import SchemaShapes.Number.Binary64

/-!
# JSON values

Values of JSON, with whole numbers kept apart from numbers that have a point or an exponent, and
objects as lists of entries.

* `Json.sorted`: the form of a value in which every object has its keys in order and once each.
* `Json.entry?`: the value of a key; of repeated entries the last counts.
-/

namespace SchemaShapes

/-- **A JSON value.** Objects keep their entries in the order written, repeated keys too. -/
inductive Json where
  | null
  | bool (value : Bool)
  | integer (value : Int)
  | real (value : Number.Binary64)
  | string (value : String)
  | array (items : List Json)
  | object (entries : List (String × Json))

namespace Json

/-- Entries in the order of their keys, of repeated keys the last entry. -/
def sortEntries {α : Type} (entries : List (String × α)) : List (String × α) :=
  (entries.mergeSort fun a b => (compare a.1 b.1).isLE).foldr
    (fun e rest =>
      match rest with
      | [] => [e]
      | f :: _ => if e.1 = f.1 then rest else e :: rest) []

mutual

/-- **Objects as maps.** The same value with the keys of every object in order, and of repeated
keys only the last. -/
def sorted : Json → Json
  | .array items => .array (sortedItems items)
  | .object entries => .object (sortEntries (sortedEntries entries))
  | j => j

/-- `sorted` for each item. -/
def sortedItems : List Json → List Json
  | [] => []
  | j :: rest => sorted j :: sortedItems rest

/-- `sorted` for the value of each entry. -/
def sortedEntries : List (String × Json) → List (String × Json)
  | [] => []
  | (k, j) :: rest => (k, sorted j) :: sortedEntries rest

end

/-- The value of a key in an object. -/
def entry? (j : Json) (key : String) : Option Json :=
  match j with
  | .object entries => (entries.reverse.find? fun e => e.1 == key).map (·.2)
  | _ => none

end Json

end SchemaShapes
