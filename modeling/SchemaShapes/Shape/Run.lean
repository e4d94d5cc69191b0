import SchemaShapes.Shape.Constraint

/-!
# Runs

A run of a builder: what comes of it, how many blank nodes are taken after it, and what it has
told on the way. The last two are there also when it fails.

* `Run.traverse`: runs one after the other, up to the first that fails.
-/

namespace SchemaShapes

/-- **What a builder tells** on its way. -/
inductive Event where
  | nodeShape (className : String) (closed : Bool) (slots : Nat)
  | propertyShape (className slotName : String)
  | untypedDefault (className slotName : String)
  | compiled (schemaName : String) (classes slots triples : Nat)
deriving DecidableEq

namespace Event

/-- How much an event matters. -/
def level : Event → String
  | .nodeShape .. => "DEBUG"
  | .propertyShape .. => "DEBUG"
  | .untypedDefault .. => "WARN"
  | .compiled .. => "INFO"

/-- The sentence of an event. -/
def message : Event → String
  | .nodeShape .. => "building node shape"
  | .propertyShape .. => "building property shape"
  | .untypedDefault .. => "default value has no resolvable type; emitting untyped literal"
  | .compiled .. => "compiled shapes graph"

/-- The details of an event, each with its name. -/
def fields : Event → List (String × String)
  | .nodeShape c closed slots =>
    [("class", c), ("closed", if closed then "true" else "false"), ("slots", toString slots)]
  | .propertyShape c s => [("class", c), ("slot", s)]
  | .untypedDefault c s => [("class", c), ("slot", s)]
  | .compiled schema classes slots triples =>
    [("schema", schema), ("classes", toString classes), ("slots", toString slots),
      ("triples", toString triples)]

end Event

/-- **Why a schema does not compile**: a slot of a class, and what is wrong with it. -/
structure CompileFault where
  className : String
  slotName : String
  cause : SlotFault
deriving DecidableEq

/-- What a message says of a schema that does not compile. -/
def CompileFault.message (f : CompileFault) : String :=
  "class `" ++ f.className ++ "`, slot `" ++ f.slotName ++ "`: " ++ f.cause.message

/-- **A run of a builder.** -/
structure Run (α : Type) where
  outcome : Except CompileFault α
  /-- How many blank nodes are taken when the run ends. -/
  taken : Nat
  events : List Event

namespace Run

/-- Runs one after the other, each from the number of blank nodes that the one before it leaves,
up to the first that fails. -/
def traverse {α β : Type} (f : α → Nat → Run β) : List α → Nat → Run (List β)
  | [], next => ⟨.ok [], next, []⟩
  | a :: rest, next =>
    let first := f a next
    match first.outcome with
    | .error fault => ⟨.error fault, first.taken, first.events⟩
    | .ok b =>
      let more := traverse f rest first.taken
      ⟨more.outcome.map (b :: ·), more.taken, first.events ++ more.events⟩

/-- A run with something made of its result. -/
def map {α β : Type} (f : α → β) (run : Run α) : Run β :=
  ⟨run.outcome.map f, run.taken, run.events⟩

/-- A run with something told before it. -/
def after {α : Type} (event : Event) (run : Run α) : Run α :=
  ⟨run.outcome, run.taken, event :: run.events⟩

end Run

end SchemaShapes
