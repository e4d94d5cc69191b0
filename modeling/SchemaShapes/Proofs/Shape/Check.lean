import SchemaShapes.Proofs.Shape.Slot

/-!
# What a slot is checked for

A slot is well formed if its names stand for something and its values can be written. The **checks**
of a slot say the same one after the other, and each of them says what is wrong.

* `Slot.WellFormed`: what a slot needs.
* `Check.fault?`: what a check finds wrong with a slot.
* `Slot.wellFormed_iff`: a slot is well formed if no check finds anything.
* `Slot.faultOf_typing`, `Slot.faultOf_values`: the steps of a builder fail as the checks do.
-/

namespace SchemaShapes

namespace Schema

variable {schema : Schema}

/-- **A reference that stands for something.** An enumeration has at least one value. -/
def Resolves (schema : Schema) : Reference → Prop
  | .toType name => ∃ p, schema.resolveType? name = some p
  | .toClass name => ∃ decl ∈ schema.classes, decl.name = name
  | .toEnum name => ∃ decl, schema.findEnum? name = some decl ∧ decl.values ≠ []

/-- **A range that stands for something.** A range of several things has at least one. -/
def RangeResolves (schema : Schema) : Range → Prop
  | .only r => schema.Resolves r
  | .anyOf targets => targets ≠ [] ∧ ∀ r ∈ targets, schema.Resolves r

/-- **What is wrong with a reference.** -/
def referenceFault? (schema : Schema) : Reference → Option SlotFault
  | .toType name =>
    if (schema.resolveType? name).isSome then none else some (.unsupportedType name)
  | .toClass name =>
    if schema.classes.any (·.name == name) then none
    else some (.malformedRange (.unknownClass name))
  | .toEnum name =>
    match schema.findEnum? name with
    | none => some (.malformedRange (.unknownEnum name))
    | some decl => if decl.values = [] then some (.malformedRange (.noValues name)) else none

/-- **What is wrong with a range**: with the first of its references that does not stand for
anything. -/
def rangeFault? (schema : Schema) : Range → Option SlotFault
  | .only r => schema.referenceFault? r
  | .anyOf [] => some (.malformedRange .noAlternatives)
  | .anyOf targets => targets.findSome? schema.referenceFault?

theorem referenceFault?_eq_none {r : Reference} :
    schema.referenceFault? r = none ↔ schema.Resolves r := by
  cases r with
  | toType name => simp [referenceFault?, Resolves, Option.isSome_iff_exists]
  | toClass name => simp [referenceFault?, Resolves]
  | toEnum name =>
    rw [referenceFault?, Resolves]
    cases schema.findEnum? name with
    | none => simp
    | some decl => simp

theorem rangeFault?_eq_none {range : Range} :
    schema.rangeFault? range = none ↔ schema.RangeResolves range := by
  cases range with
  | only r => exact referenceFault?_eq_none
  | anyOf targets =>
    cases targets with
    | nil => simp [rangeFault?, RangeResolves]
    | cons r rest =>
      simp only [rangeFault?, RangeResolves, List.findSome?_eq_none_iff, referenceFault?_eq_none]
      simp

/-! ## References that are looked up -/

theorem faultOf_typeOf (name : String) :
    faultOf (schema.typeOf name) = schema.referenceFault? (.toType name) := by
  rw [typeOf, referenceFault?]
  cases schema.resolveType? name <;> rfl

theorem faultOf_classOf (name : String) :
    faultOf (schema.classOf name) = schema.referenceFault? (.toClass name) := by
  have hany : schema.classes.any (·.name == name) = (schema.findClass? name).isSome :=
    List.isSome_find?.symm
  rw [classOf, referenceFault?, hany]
  cases schema.findClass? name <;> rfl

theorem faultOf_valuesOf (name : String) :
    faultOf (schema.valuesOf name) = schema.referenceFault? (.toEnum name) := by
  rw [valuesOf, referenceFault?]
  cases schema.findEnum? name with
  | none => rfl
  | some decl => by_cases h : decl.values = [] <;> simp [h]

theorem faultOf_alternative (r : Reference) :
    faultOf (schema.alternative r) = schema.referenceFault? r := by
  cases r with
  | toType name => exact (faultOf_map _ _).trans (faultOf_typeOf name)
  | toClass name => exact (faultOf_map _ _).trans (faultOf_classOf name)
  | toEnum name => exact (faultOf_map _ _).trans (faultOf_valuesOf name)

/-- References fail with the fault of the first that does. -/
theorem faultOf_alternatives (targets : List Reference) :
    faultOf (schema.alternatives targets) = targets.findSome? schema.referenceFault? := by
  induction targets with
  | nil => rfl
  | cons r rest ih =>
    rw [alternatives, List.findSome?_cons, ← faultOf_alternative, ← ih]
    cases schema.alternative r with
    | error e => rfl
    | ok a => cases schema.alternatives rest <;> rfl

/-- **A range fails** as the check of it says. -/
theorem faultOf_constraint (range : Range) :
    faultOf (schema.constraint range) = schema.rangeFault? range := by
  cases range with
  | only r =>
    cases r with
    | toType name => exact (faultOf_map _ _).trans (faultOf_typeOf name)
    | toClass name => exact (faultOf_map _ _).trans (faultOf_classOf name)
    | toEnum name => exact (faultOf_map _ _).trans (faultOf_valuesOf name)
  | anyOf targets =>
    cases targets with
    | nil => rfl
    | cons r rest => exact (faultOf_map _ _).trans (faultOf_alternatives (r :: rest))

end Schema

/-! ## Slots -/

/-- **A well formed slot.** Its range and the type of its default stand for something, its default
can be written in the type of its values if it has to be, and its bounds can be written. -/
structure Slot.WellFormed (schema : Schema) (slot : Slot) : Prop where
  range : ∀ range, slot.range = some range → schema.RangeResolves range
  defaultType : ∀ name, slot.defaultType = some name → ∃ p, schema.resolveType? name = some p
  default : ∀ value, slot.default = some value → slot.typedDefault = true →
    ∀ p, schema.valuePrimitive? slot = some p → ∃ literal, p.encode value = .ok literal
  minimum : ∀ value, slot.minimum = some value →
    ∃ literal, slot.boundLiteral schema value = .ok literal
  maximum : ∀ value, slot.maximum = some value →
    ∃ literal, slot.boundLiteral schema value = .ok literal

/-- **What a slot is checked for.** -/
inductive Check where
  | range
  | defaultType
  | default
  | minimum
  | maximum
deriving DecidableEq

namespace Check

/-- The checks in their order. -/
def all : List Check := [.range, .defaultType, .default, .minimum, .maximum]

/-- **What a check finds wrong** with a slot. -/
def fault? (schema : Schema) (slot : Slot) : Check → Option SlotFault
  | .range => slot.range.bind schema.rangeFault?
  | .defaultType => slot.defaultType.bind fun name => schema.referenceFault? (.toType name)
  | .default =>
    (slot.default.bind fun value => faultOf (slot.defaultLiteral schema value)).map .unencodable
  | .minimum =>
    (slot.minimum.bind fun value => faultOf (slot.boundLiteral schema value)).map .unencodable
  | .maximum =>
    (slot.maximum.bind fun value => faultOf (slot.boundLiteral schema value)).map .unencodable

end Check

namespace Slot

variable {schema : Schema} {slot : Slot} {typing : Typing}

/-- **What is wrong with a slot**: what the first check finds that finds anything. -/
def fault? (schema : Schema) (slot : Slot) : Option SlotFault :=
  Check.all.findSome? (Check.fault? schema slot)

theorem faultOf_defaultLiteral_eq_none {value : Scalar} :
    faultOf (slot.defaultLiteral schema value) = none ↔ (slot.typedDefault = true →
      ∀ p, schema.valuePrimitive? slot = some p → ∃ literal, p.encode value = .ok literal) := by
  unfold defaultLiteral
  cases slot.typedDefault <;> cases schema.valuePrimitive? slot <;> simp [faultOf_eq_none]

/-- **A slot is well formed** if no check finds anything wrong with it. -/
theorem wellFormed_iff : slot.WellFormed schema ↔ slot.fault? schema = none := by
  have hchecks : slot.fault? schema = none ↔ ∀ check : Check, check.fault? schema slot = none := by
    rw [fault?, List.findSome?_eq_none_iff]
    exact ⟨fun h check => h check (by cases check <;> simp [Check.all]), fun h check _ => h check⟩
  rw [hchecks]
  -- each check is about one field of a well formed slot
  constructor
  · intro h check
    cases check with
    | range =>
      exact Option.bind_eq_none_iff.2 fun r hr => Schema.rangeFault?_eq_none.2 (h.range r hr)
    | defaultType =>
      exact Option.bind_eq_none_iff.2 fun name hn =>
        Schema.referenceFault?_eq_none.2 (h.defaultType name hn)
    | default =>
      exact Option.map_eq_none_iff.2 (Option.bind_eq_none_iff.2 fun v hv =>
        faultOf_defaultLiteral_eq_none.2 (h.default v hv))
    | minimum =>
      exact Option.map_eq_none_iff.2 (Option.bind_eq_none_iff.2 fun v hv =>
        faultOf_eq_none.2 (h.minimum v hv))
    | maximum =>
      exact Option.map_eq_none_iff.2 (Option.bind_eq_none_iff.2 fun v hv =>
        faultOf_eq_none.2 (h.maximum v hv))
  · intro h
    refine ⟨fun r hr => ?_, fun name hn => ?_, fun v hv => ?_, fun v hv => ?_, fun v hv => ?_⟩
    · exact Schema.rangeFault?_eq_none.1 (Option.bind_eq_none_iff.1 (h .range) r hr)
    · exact Schema.referenceFault?_eq_none.1 (Option.bind_eq_none_iff.1 (h .defaultType) name hn)
    · exact faultOf_defaultLiteral_eq_none.1
        (Option.bind_eq_none_iff.1 (Option.map_eq_none_iff.1 (h .default)) v hv)
    · exact faultOf_eq_none.1
        (Option.bind_eq_none_iff.1 (Option.map_eq_none_iff.1 (h .minimum)) v hv)
    · exact faultOf_eq_none.1
        (Option.bind_eq_none_iff.1 (Option.map_eq_none_iff.1 (h .maximum)) v hv)

/-! ## The steps of a builder -/

/-- The names of a slot fail as the first two checks do. -/
theorem faultOf_typing : faultOf (slot.typing schema) =
    (Check.range.fault? schema slot).or (Check.defaultType.fault? schema slot) := by
  have hrange : Check.range.fault? schema slot =
      faultOf (eachOption schema.constraint slot.range) := by
    rw [faultOf_eachOption, Check.fault?, ← funext Schema.faultOf_constraint]
  have htype : Check.defaultType.fault? schema slot =
      faultOf (eachOption schema.typeOf slot.defaultType) := by
    rw [faultOf_eachOption, Check.fault?, ← funext Schema.faultOf_typeOf]
  rw [hrange, htype, typing]
  cases eachOption schema.constraint slot.range with
  | error e => rfl
  | ok c => cases eachOption schema.typeOf slot.defaultType <;> rfl

/-- The values of a slot fail as the other checks do. -/
theorem faultOf_values (h : slot.typing schema = .ok typing) :
    (faultOf (slot.values typing)).map .unencodable =
      (Check.default.fault? schema slot).or
        ((Check.minimum.fault? schema slot).or (Check.maximum.fault? schema slot)) := by
  simp only [Check.fault?, ← faultOf_eachOption, ← funext (encodeDefault_eq h),
    ← funext (encodeBound_eq h)]
  rw [values]
  cases eachOption (slot.encodeDefault typing) slot.default with
  | error e => rfl
  | ok d =>
    cases eachOption (encodeBound typing) slot.minimum with
    | error e => rfl
    | ok l => cases eachOption (encodeBound typing) slot.maximum <;> rfl

/-- **What is wrong with a slot** is wrong with its names, or else with its values. -/
theorem fault?_eq_or : slot.fault? schema =
    (faultOf (slot.typing schema)).or ((Check.default.fault? schema slot).or
      ((Check.minimum.fault? schema slot).or (Check.maximum.fault? schema slot))) := by
  have hcons : ∀ (check : Check) (rest : List Check),
      (check :: rest).findSome? (Check.fault? schema slot) =
        (check.fault? schema slot).or (rest.findSome? (Check.fault? schema slot)) := by
    intro check rest
    rw [List.findSome?_cons]
    cases check.fault? schema slot <;> rfl
  rw [faultOf_typing, Option.or_assoc, fault?, Check.all]
  simp only [hcons, List.findSome?_nil, Option.or_none]

end Slot

end SchemaShapes
