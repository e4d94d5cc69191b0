import Mathlib.Data.List.Forall2
import SchemaShapes.Proofs.Outcome
import SchemaShapes.Shape.Property

/-!
# What the names and values of a slot stand for

The literals of a slot, read off the schema without building anything, and what the look-ups of a
builder give when they succeed.

* `Schema.valuePrimitive?`: the type in which a slot writes its values.
* `Slot.defaultLiteral`, `Slot.boundLiteral`: the literals of a default and of a bound.
* `Slot.typing_ok`, `Slot.values_ok`: a builder finds these.
-/

namespace SchemaShapes

/-! ## References -/

namespace Schema

variable {schema : Schema}

theorem typeOf_eq_ok {name : String} {p : Primitive} :
    schema.typeOf name = .ok p ↔ schema.resolveType? name = some p := by
  unfold typeOf
  cases schema.resolveType? name <;> simp

theorem classOf_eq_ok {name : String} {i : Iri} :
    schema.classOf name = .ok i ↔ ∃ decl, schema.findClass? name = some decl ∧ decl.iri = i := by
  unfold classOf
  cases schema.findClass? name <;> simp

theorem valuesOf_eq_ok {name : String} {values : List Term} :
    schema.valuesOf name = .ok values ↔ ∃ decl, schema.findEnum? name = some decl ∧
      decl.values ≠ [] ∧ decl.values.map EnumValue.term = values := by
  unfold valuesOf
  cases schema.findEnum? name with
  | none => simp
  | some decl => by_cases h : decl.values = [] <;> simp [h]

/-- References are alternatives one by one, in order. -/
theorem alternatives_ok {targets : List Reference} {found : List Alternative}
    (h : schema.alternatives targets = .ok found) :
    List.Forall₂ (fun r a => schema.alternative r = .ok a) targets found := by
  induction targets generalizing found with
  | nil =>
    cases h
    exact .nil
  | cons r rest ih =>
    obtain ⟨a, ha, h⟩ := bind_eq_ok.1 h
    obtain ⟨more, hmore, h⟩ := bind_eq_ok.1 h
    cases h
    exact .cons ha (ih hmore)

theorem alternative_ok {r : Reference} {a : Alternative} (h : schema.alternative r = .ok a) :
    (∃ name p, r = .toType name ∧ schema.resolveType? name = some p ∧ a = .ofDatatype p.datatype) ∨
    (∃ name decl, r = .toClass name ∧ schema.findClass? name = some decl ∧ a = .ofClass decl.iri) ∨
    ∃ name decl, r = .toEnum name ∧ schema.findEnum? name = some decl ∧ decl.values ≠ [] ∧
      a = .ofValues (decl.values.map EnumValue.term) := by
  cases r with
  | toType name =>
    obtain ⟨p, hp, rfl⟩ := map_eq_ok.1 h
    exact Or.inl ⟨name, p, rfl, typeOf_eq_ok.1 hp, rfl⟩
  | toClass name =>
    obtain ⟨i, hi, rfl⟩ := map_eq_ok.1 h
    obtain ⟨decl, hd, rfl⟩ := classOf_eq_ok.1 hi
    exact Or.inr (Or.inl ⟨name, decl, rfl, hd, rfl⟩)
  | toEnum name =>
    obtain ⟨vs, hv, rfl⟩ := map_eq_ok.1 h
    obtain ⟨decl, hd, hne, rfl⟩ := valuesOf_eq_ok.1 hv
    exact Or.inr (Or.inr ⟨name, decl, rfl, hd, hne, rfl⟩)

/-- A range of several things asks for any of its alternatives. -/
theorem constraint_anyOf_ok {targets : List Reference} {c : Constraint}
    (h : schema.constraint (.anyOf targets) = .ok c) :
    targets ≠ [] ∧ ∃ found, schema.alternatives targets = .ok found ∧ c = .anyOf found := by
  rw [constraint] at h
  by_cases hne : targets = []
  · simp [hne] at h
  · rw [if_neg (by simpa using hne)] at h
    obtain ⟨found, hf, rfl⟩ := map_eq_ok.1 h
    exact ⟨hne, found, hf, rfl⟩

/-- **What a range that is understood asks for.** -/
theorem constraint_ok {range : Range} {c : Constraint} (h : schema.constraint range = .ok c) :
    (∃ name p, range = .only (.toType name) ∧ schema.resolveType? name = some p ∧
      c = .ofDatatype p) ∨
    (∃ name decl, range = .only (.toClass name) ∧ schema.findClass? name = some decl ∧
      c = .ofClass decl.iri) ∨
    (∃ name decl, range = .only (.toEnum name) ∧ schema.findEnum? name = some decl ∧
      decl.values ≠ [] ∧ c = .ofValues (decl.values.map EnumValue.term)) ∨
    ∃ targets found, range = .anyOf targets ∧ targets ≠ [] ∧
      schema.alternatives targets = .ok found ∧ c = .anyOf found := by
  cases range with
  | only r =>
    cases r with
    | toType name =>
      obtain ⟨p, hp, rfl⟩ := map_eq_ok.1 h
      exact Or.inl ⟨name, p, rfl, typeOf_eq_ok.1 hp, rfl⟩
    | toClass name =>
      obtain ⟨i, hi, rfl⟩ := map_eq_ok.1 h
      obtain ⟨decl, hd, rfl⟩ := classOf_eq_ok.1 hi
      exact Or.inr (Or.inl ⟨name, decl, rfl, hd, rfl⟩)
    | toEnum name =>
      obtain ⟨vs, hv, rfl⟩ := map_eq_ok.1 h
      obtain ⟨decl, hd, hne, rfl⟩ := valuesOf_eq_ok.1 hv
      exact Or.inr (Or.inr (Or.inl ⟨name, decl, rfl, hd, hne, rfl⟩))
  | anyOf targets =>
    obtain ⟨hne, found, hf, rfl⟩ := constraint_anyOf_ok h
    exact Or.inr (Or.inr (Or.inr ⟨targets, found, rfl, hne, hf, rfl⟩))

/-- **The type of the values of a slot**: the one it names, or else that of its range. -/
def valuePrimitive? (schema : Schema) (slot : Slot) : Option Primitive :=
  match slot.defaultType, slot.range with
  | some name, _ => schema.resolveType? name
  | none, some (.only (.toType name)) => schema.resolveType? name
  | none, _ => none

end Schema

/-! ## Values -/

theorem eachOption_eq_ok {α β ε : Type} {f : α → Except ε β} {o : Option α} {r : Option β} :
    eachOption f o = .ok r ↔
      (o = none ∧ r = none) ∨ ∃ a b, o = some a ∧ f a = .ok b ∧ r = some b := by
  cases o with
  | none => simp [eachOption, eq_comm]
  | some a =>
    rw [eachOption, map_eq_ok]
    simp [eq_comm]

/-- What comes of an optional part comes of something that is there. -/
theorem exists_of_eachOption {α β ε : Type} {f : α → Except ε β} {o : Option α} {r : Option β}
    (h : eachOption f o = .ok r) : ∀ b ∈ r, ∃ a ∈ o, f a = .ok b := by
  intro b hb
  rcases eachOption_eq_ok.1 h with ⟨-, rfl⟩ | ⟨a, c, ha, hc, rfl⟩
  · cases hb
  · cases hb
    exact ⟨a, ha, hc⟩

/-- An optional part fails if it is there and fails. -/
theorem faultOf_eachOption {α β ε : Type} (f : α → Except ε β) (o : Option α) :
    faultOf (eachOption f o) = o.bind fun a => faultOf (f a) := by
  cases o with
  | none => rfl
  | some a => exact faultOf_map _ _

namespace Slot

variable {schema : Schema} {slot : Slot} {typing : Typing}

/-- **The literal of a default**: typed if the slot asks for it and has a type for its values. -/
def defaultLiteral (schema : Schema) (slot : Slot) (value : Scalar) : Except Unencodable Literal :=
  match slot.typedDefault, schema.valuePrimitive? slot with
  | true, some p => p.encode value
  | _, _ => .ok value.untyped

/-- **The literal of a bound**: in the type of the values, or else in that of its own kind. -/
def boundLiteral (schema : Schema) (slot : Slot) (value : Scalar) : Except Unencodable Literal :=
  match schema.valuePrimitive? slot with
  | some p => p.encode value
  | none => value.encodeNaturally

/-- **A slot that is understood**: its range asks for something, and its values have the type that
the schema gives them. -/
theorem typing_ok (h : slot.typing schema = .ok typing) :
    eachOption schema.constraint slot.range = .ok typing.constraint ∧
      typing.primitive = schema.valuePrimitive? slot := by
  obtain ⟨c, hc, h⟩ := bind_eq_ok.1 h
  obtain ⟨named, hn, h⟩ := bind_eq_ok.1 h
  cases h
  refine ⟨hc, ?_⟩
  -- a type that is named comes before that of the range
  rcases eachOption_eq_ok.1 hn with ⟨hd, rfl⟩ | ⟨name, p, hd, hp, rfl⟩
  · rcases eachOption_eq_ok.1 hc with ⟨hr, rfl⟩ | ⟨range, c, hr, hcr, rfl⟩
    · simp [Schema.valuePrimitive?, hd, hr]
    · rcases Schema.constraint_ok hcr with ⟨name, p, rfl, hp, rfl⟩ | ⟨name, decl, rfl, -, rfl⟩ |
        ⟨name, decl, rfl, -, -, rfl⟩ | ⟨targets, found, rfl, -, -, rfl⟩ <;>
      simp_all [Schema.valuePrimitive?, Constraint.primitive?]
  · simp [Schema.valuePrimitive?, hd, Schema.typeOf_eq_ok.1 hp]

theorem encodeDefault_eq (h : slot.typing schema = .ok typing) (value : Scalar) :
    slot.encodeDefault typing value = slot.defaultLiteral schema value := by
  unfold encodeDefault defaultPrimitive defaultLiteral
  rw [(typing_ok h).2]
  cases slot.typedDefault <;> cases schema.valuePrimitive? slot <;> rfl

theorem encodeBound_eq (h : slot.typing schema = .ok typing) (value : Scalar) :
    encodeBound typing value = slot.boundLiteral schema value := by
  have hp := (typing_ok h).2
  cases hv : schema.valuePrimitive? slot with
  | none => simp [encodeBound, boundLiteral, hp, hv]
  | some p => simp [encodeBound, boundLiteral, hp, hv]

/-- **The values of a slot** that can be written. -/
theorem values_ok (h : slot.typing schema = .ok typing) {values : SlotValues}
    (k : slot.values typing = .ok values) :
    eachOption (slot.defaultLiteral schema) slot.default = .ok values.default ∧
      eachOption (slot.boundLiteral schema) slot.minimum = .ok values.minimum ∧
        eachOption (slot.boundLiteral schema) slot.maximum = .ok values.maximum := by
  rw [← funext (encodeDefault_eq h), ← funext (encodeBound_eq h)]
  obtain ⟨d, hd, k⟩ := bind_eq_ok.1 k
  obtain ⟨l, hl, k⟩ := bind_eq_ok.1 k
  obtain ⟨u, hu, k⟩ := bind_eq_ok.1 k
  cases k
  exact ⟨hd, hl, hu⟩

end Slot

end SchemaShapes
