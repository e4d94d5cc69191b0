import SchemaShapes.Proofs.Shape.Layout

/-!
# Names in two schemas

A builder sees a schema only through what its names stand for. So two schemas in which names stand
for the same have the same shapes, and a schema that only gives a meaning to more names has the
shapes that could be built without it.

* `Schema.SameNames.nodeShape`: shapes are the same if all names stand for the same.
* `Schema.KeepsNames.nodeShape`: a shape that is built stays the same if the names that stand for
  something keep their meaning.
-/

namespace SchemaShapes.Schema

variable {schema other : Schema}

/-! ## The same meaning -/

/-- Names of types, classes and enumerations that stand for the same in two schemas. -/
structure SameNames (schema other : Schema) : Prop where
  typeOf : other.typeOf = schema.typeOf
  classOf : other.classOf = schema.classOf
  valuesOf : other.valuesOf = schema.valuesOf

/-- Primitive types are found in the types alone. -/
theorem primitive?_eq_of_types (htypes : other.types = schema.types) (steps : Nat) (name : String) :
    other.primitive? steps name = schema.primitive? steps name := by
  induction steps generalizing name with
  | zero => rfl
  | succ steps ih => simp only [primitive?, findType?, htypes, ih]

namespace SameNames

variable (h : schema.SameNames other)

include h

theorem alternatives (targets : List Reference) :
    other.alternatives targets = schema.alternatives targets := by
  have halternative : other.alternative = schema.alternative := by
    funext r
    cases r with
    | toType name => rw [alternative, alternative, h.typeOf]
    | toClass name => rw [alternative, alternative, h.classOf]
    | toEnum name => rw [alternative, alternative, h.valuesOf]
  induction targets with
  | nil => rfl
  | cons r rest ih => rw [Schema.alternatives, Schema.alternatives, halternative, ih]

theorem constraint : other.constraint = schema.constraint := by
  funext range
  cases range with
  | only r =>
    cases r with
    | toType name => rw [Schema.constraint, Schema.constraint, h.typeOf]
    | toClass name => rw [Schema.constraint, Schema.constraint, h.classOf]
    | toEnum name => rw [Schema.constraint, Schema.constraint, h.valuesOf]
  | anyOf targets => rw [Schema.constraint, Schema.constraint, h.alternatives]

/-- **Shapes are the same** if names stand for the same. -/
theorem nodeShape (options : Options) : other.nodeShape options = schema.nodeShape options := by
  have htyping : ∀ slot : Slot, slot.typing other = slot.typing schema := by
    intro slot
    rw [Slot.typing, Slot.typing, h.constraint, h.typeOf]
  funext decl next
  simp only [Schema.nodeShape, propertyShapes, propertyShape, htyping]

end SameNames

/-! ## More names with a meaning -/

/-- **Names that keep their meaning**: what stands for something in the one schema stands for the
same in the other. -/
structure KeepsNames (schema other : Schema) : Prop where
  typeOf : ∀ name p, schema.typeOf name = .ok p → other.typeOf name = .ok p
  classOf : ∀ name iri, schema.classOf name = .ok iri → other.classOf name = .ok iri
  valuesOf : ∀ name values, schema.valuesOf name = .ok values → other.valuesOf name = .ok values

namespace KeepsNames

variable (h : schema.KeepsNames other)

include h

theorem alternative {r : Reference} {a : Alternative} (ha : schema.alternative r = .ok a) :
    other.alternative r = .ok a := by
  cases r with
  | toType name =>
    obtain ⟨p, hp, rfl⟩ := map_eq_ok.1 ha
    exact map_eq_ok.2 ⟨p, h.typeOf name p hp, rfl⟩
  | toClass name =>
    obtain ⟨iri, hi, rfl⟩ := map_eq_ok.1 ha
    exact map_eq_ok.2 ⟨iri, h.classOf name iri hi, rfl⟩
  | toEnum name =>
    obtain ⟨values, hv, rfl⟩ := map_eq_ok.1 ha
    exact map_eq_ok.2 ⟨values, h.valuesOf name values hv, rfl⟩

theorem alternatives {targets : List Reference} {found : List Alternative}
    (hf : schema.alternatives targets = .ok found) : other.alternatives targets = .ok found := by
  induction targets generalizing found with
  | nil => exact hf
  | cons r rest ih =>
    obtain ⟨a, ha, hf⟩ := bind_eq_ok.1 hf
    obtain ⟨more, hmore, hf⟩ := bind_eq_ok.1 hf
    exact bind_eq_ok.2 ⟨a, h.alternative ha, bind_eq_ok.2 ⟨more, ih hmore, hf⟩⟩

theorem constraint {range : Range} {c : Constraint} (hc : schema.constraint range = .ok c) :
    other.constraint range = .ok c := by
  cases range with
  | only r =>
    cases r with
    | toType name =>
      obtain ⟨p, hp, rfl⟩ := map_eq_ok.1 hc
      exact map_eq_ok.2 ⟨p, h.typeOf name p hp, rfl⟩
    | toClass name =>
      obtain ⟨iri, hi, rfl⟩ := map_eq_ok.1 hc
      exact map_eq_ok.2 ⟨iri, h.classOf name iri hi, rfl⟩
    | toEnum name =>
      obtain ⟨values, hv, rfl⟩ := map_eq_ok.1 hc
      exact map_eq_ok.2 ⟨values, h.valuesOf name values hv, rfl⟩
  | anyOf targets =>
    obtain ⟨hne, found, hf, rfl⟩ := constraint_anyOf_ok hc
    rw [Schema.constraint, if_neg (by simpa using hne)]
    exact map_eq_ok.2 ⟨found, h.alternatives hf, rfl⟩

/-- A slot that is understood is understood in the same way. -/
theorem typing {slot : Slot} {typing : Typing} (ht : slot.typing schema = .ok typing) :
    slot.typing other = .ok typing := by
  obtain ⟨c, hc, ht⟩ := bind_eq_ok.1 ht
  obtain ⟨named, hn, ht⟩ := bind_eq_ok.1 ht
  have hrange : eachOption other.constraint slot.range = .ok c := by
    rcases eachOption_eq_ok.1 hc with ⟨hnone, rfl⟩ | ⟨range, c, hsome, hrange, rfl⟩
    · exact eachOption_eq_ok.2 (Or.inl ⟨hnone, rfl⟩)
    · exact eachOption_eq_ok.2 (Or.inr ⟨range, c, hsome, h.constraint hrange, rfl⟩)
  have hnamed : eachOption other.typeOf slot.defaultType = .ok named := by
    rcases eachOption_eq_ok.1 hn with ⟨hnone, rfl⟩ | ⟨name, p, hsome, hp, rfl⟩
    · exact eachOption_eq_ok.2 (Or.inl ⟨hnone, rfl⟩)
    · exact eachOption_eq_ok.2 (Or.inr ⟨name, p, hsome, h.typeOf name p hp, rfl⟩)
  exact bind_eq_ok.2 ⟨c, hrange, bind_eq_ok.2 ⟨named, hnamed, ht⟩⟩

variable {options : Options} {decl : ClassDecl}

theorem propertyShape {slot : Slot} {order next : Nat} {f : Fragment}
    (hf : (schema.propertyShape options decl slot order next).outcome = .ok f) :
    other.propertyShape options decl slot order next =
      schema.propertyShape options decl slot order next := by
  obtain ⟨typing, values, ht, -, -, -⟩ := propertyShape_ok hf
  simp only [Schema.propertyShape, ht, h.typing ht]

/-- **A shape that is built** stays the same. -/
theorem nodeShape {next : Nat} {f : Fragment}
    (hf : (schema.nodeShape options decl next).outcome = .ok f) :
    other.nodeShape options decl next = schema.nodeShape options decl next := by
  obtain ⟨properties, hp, -⟩ := nodeShape_ok hf
  have hsame : other.propertyShapes options decl (next + decl.taken options) =
      schema.propertyShapes options decl (next + decl.taken options) :=
    Run.traverse_eq_of_ok (fun _ _ _ hs => h.propertyShape hs) hp
  rw [Schema.nodeShape, Schema.nodeShape, hsame]

end KeepsNames

end SchemaShapes.Schema
