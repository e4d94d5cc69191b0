import SchemaShapes.Proofs.Schema.RoundTrip

/-!
# Schemas that documents hold

What is written of a schema without infinite numbers is a document, and it is read as that schema.
So the schemas that come from documents are those without infinite numbers, and writing one and
reading it again changes nothing.

* `Schema.inRange_toJson`: what is written is in range.
* `Schema.fromDocument_iff`: the schemas that documents hold.
* `Schema.ofJson_toJson`: what is written of them is read as the same schema, also with other names
  for some of its defaults.
-/

namespace SchemaShapes

open Json

/-! ## What is written -/

theorem inRange_optionalField {α : Type} {name : String} {toJson : α → Json} {value : Option α}
    (h : ∀ a ∈ value, (toJson a).InRange) : ∀ e ∈ optionalField name toJson value, e.2.InRange := by
  cases value with
  | none => simp [optionalField]
  | some a => simpa [optionalField] using h a rfl

theorem Scalar.inRange_toJson {value : Scalar} (h : value.IsFinite) : value.toJson.InRange := by
  cases value with
  | bool b => exact .bool b
  | integer n => exact .integer ⟨n.minValue_le_toInt, Int.lt_of_le_of_lt n.toInt_le (by decide)⟩
  | real x =>
    have hjson : toJson (.real x) = .real x := if_pos h
    rw [hjson]
    exact .real h
  | text s => exact .string s

theorem inRange_countJson (n : UInt64) : (countJson n).InRange := by
  have hsize : (n.toNat : Int) < UInt64.size := by exact_mod_cast n.toNat_lt
  exact .integer ⟨Int.le_trans (by decide) (Int.natCast_nonneg n.toNat), hsize⟩

theorem Reference.inRange_toJson (r : Reference) : r.toJson.InRange := by
  cases r with
  | toType name => exact .object (by simpa using .string name)
  | toClass name => exact .object (by simpa using .string name)
  | toEnum name => exact .object (by simpa using .string name)

theorem Range.inRange_toJson (r : Range) : r.toJson.InRange := by
  cases r with
  | only target => exact target.inRange_toJson
  | anyOf targets =>
    have htargets : Json.InRange (.array (targets.map Reference.toJson)) :=
      .array (List.forall_mem_map.2 fun r _ => r.inRange_toJson)
    exact .object (by simpa using htargets)

theorem Slot.inRange_toJson {s : Slot} (h : s.IsFinite) : s.toJson.InRange := by
  have hvalue : ∀ {key : String} {value : Option Scalar}, (∀ v ∈ value, v.IsFinite) →
      ∀ e ∈ optionalField key Scalar.toJson value, e.2.InRange :=
    fun hvalue => inRange_optionalField fun v hv => Scalar.inRange_toJson (hvalue v hv)
  have hcount : ∀ {key : String} {value : Option UInt64},
      ∀ e ∈ optionalField key countJson value, e.2.InRange :=
    inRange_optionalField fun n _ => inRange_countJson n
  have htext : ∀ {key : String} {value : Option String},
      ∀ e ∈ optionalField key Json.string value, e.2.InRange :=
    inRange_optionalField fun t _ => .string t
  have hrange : ∀ e ∈ optionalField "range" Range.toJson s.range, e.2.InRange :=
    inRange_optionalField fun r _ => r.inRange_toJson
  refine .object ?_
  simp only [List.forall_mem_append, List.forall_mem_cons, List.not_mem_nil, false_imp_iff,
    implies_true, and_true]
  exact ⟨⟨⟨⟨⟨⟨⟨⟨⟨⟨⟨.string s.name, .string s.path⟩, hrange⟩, hcount⟩, hcount⟩, hvalue h.default⟩,
    htext⟩, .bool s.typedDefault⟩, htext⟩, htext⟩, hvalue h.minimum⟩, hvalue h.maximum⟩

theorem ClassDecl.inRange_toJson {c : ClassDecl} (h : ∀ slot ∈ c.slots, slot.IsFinite) :
    c.toJson.InRange := by
  have hslots : Json.InRange (.array (c.slots.map Slot.toJson)) :=
    .array (List.forall_mem_map.2 fun slot hslot => Slot.inRange_toJson (h slot hslot))
  refine .object ?_
  simp only [List.forall_mem_append, List.forall_mem_cons, List.not_mem_nil, false_imp_iff,
    implies_true, and_true]
  exact ⟨⟨⟨⟨.string c.name, .string c.iri⟩, inRange_optionalField fun t _ => .string t⟩,
    inRange_optionalField fun b _ => .bool b⟩, hslots⟩

theorem EnumValue.inRange_toJson (e : EnumValue) : e.toJson.InRange := by
  refine .object ?_
  simp only [List.forall_mem_append, List.forall_mem_cons, List.not_mem_nil, false_imp_iff,
    implies_true, and_true]
  exact ⟨.string e.text, inRange_optionalField fun t _ => .string t⟩

theorem EnumDecl.inRange_toJson (e : EnumDecl) : e.toJson.InRange := by
  have hvalues : Json.InRange (.array (e.values.map EnumValue.toJson)) :=
    .array (List.forall_mem_map.2 fun v _ => v.inRange_toJson)
  refine .object ?_
  simp only [List.forall_mem_cons, List.not_mem_nil, false_imp_iff, implies_true, and_true]
  exact ⟨.string e.name, hvalues⟩

theorem TypeDecl.inRange_toJson (t : TypeDecl) : t.toJson.InRange := by
  refine .object ?_
  simp only [List.forall_mem_append, List.forall_mem_cons, List.not_mem_nil, false_imp_iff,
    implies_true, and_true]
  exact ⟨⟨.string t.name, inRange_optionalField fun n _ => .string n⟩,
    inRange_optionalField fun n _ => .string n⟩

namespace Schema

variable {s : Schema}

/-- **What is written of a schema** has numbers in range, if those of the schema are finite. -/
theorem inRange_toJson (h : s.IsFinite) : s.toJson.InRange := by
  have hclasses : Json.InRange (.array (s.classes.map ClassDecl.toJson)) :=
    .array (List.forall_mem_map.2 fun c hc => ClassDecl.inRange_toJson (h c hc))
  have henums : Json.InRange (.array (s.enums.map EnumDecl.toJson)) :=
    .array (List.forall_mem_map.2 fun e _ => e.inRange_toJson)
  have htypes : Json.InRange (.array (s.types.map TypeDecl.toJson)) :=
    .array (List.forall_mem_map.2 fun t _ => t.inRange_toJson)
  refine .object ?_
  simp only [List.forall_mem_cons, List.not_mem_nil, false_imp_iff, implies_true, and_true]
  exact ⟨.string s.name, .string s.id, hclasses, henums, htypes⟩

/-! ## What is read back -/

/-- **The schemas that documents hold** are those without infinite numbers. -/
theorem fromDocument_iff : s.FromDocument ↔ s.IsFinite := by
  constructor
  · exact FromDocument.isFinite
  · intro h
    exact Or.inl ⟨s.toJson, inRange_toJson h, (readsAs_toJson .value h).asMap⟩

/-- **Writing and reading.** A schema from a document has finite numbers only, and what is written
of it is read as the same schema, whether its objects are taken as maps or as they stand, and
whichever of its defaults stand under their other name. -/
theorem ofJson_toJson (h : s.FromDocument) :
    s.IsFinite ∧ Schema.ofJson s.toJson = .ok s ∧
      ∀ chosen, Schema.ofJson (s.toJson.renameDefaults chosen) = .ok s ∧
        ∀ origin, Schema.read origin (.ofJson (s.toJson.renameDefaults chosen)) = .ok s := by
  have hfinite := h.isFinite
  refine ⟨hfinite, (readsAs_toJson .value hfinite).asMap, fun chosen => ⟨?_, fun origin => ?_⟩⟩
  · exact (readsAs_renameDefaults .value hfinite chosen).asMap
  · exact (readsAs_renameDefaults origin hfinite chosen).plain

/-- A schema whose only default is a whole number that is a double, with bounds at the ends of what
is kept whole. -/
def catalogue : Schema where
  name := "catalogue"
  id := "urn:catalogue"
  classes :=
    [{ name := "Item", iri := "urn:Item", description := none, closed := some true,
       slots :=
        [{ Slot.bare "size" "urn:size" with
            range := some (.anyOf [.toType "Size", .toEnum "Class"]), minCount := some 1
            default := some (.real (Number.Binary64.ofInt 5))
            minimum := some (.integer Int64.minValue), maximum := some (.integer Int64.maxValue) },
          Slot.bare "note" "urn:note"] }]
  enums := [{ name := "Class", values := [{ text := "large", meaning := some "urn:large" }] }]
  types := [{ name := "Size", parent := some "integer", datatype := none }]

theorem ofJson_toJson_sample : catalogue.FromDocument ∧
    Schema.ofJson catalogue.toJson = .ok catalogue ∧
    Schema.ofJson (catalogue.toJson.renameDefaults fun _ k => k == 0) = .ok catalogue := by
  have hsize : Scalar.IsFinite (.real (Number.Binary64.ofInt 5)) :=
    Number.Binary64.isFinite_ofInt (by decide)
  have hdocument : catalogue.FromDocument := by
    refine fromDocument_iff.2 ?_
    simp only [IsFinite, catalogue, List.forall_mem_cons, List.not_mem_nil, false_imp_iff,
      implies_true, and_true]
    refine ⟨⟨?_, ?_, ?_⟩, ⟨?_, ?_, ?_⟩⟩
    · rintro _ ⟨⟩
      exact hsize
    · rintro _ ⟨⟩
      trivial
    · rintro _ ⟨⟩
      trivial
    all_goals rintro _ ⟨⟩
  obtain ⟨-, hread, hchosen⟩ := ofJson_toJson hdocument
  exact ⟨hdocument, hread, (hchosen _).1⟩

end Schema

end SchemaShapes
