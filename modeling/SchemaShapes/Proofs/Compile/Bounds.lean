import SchemaShapes.Proofs.Compile.Faults
import SchemaShapes.Proofs.Compile.Iris

/-!
# Bounds and the values that they bound

The datatype that a shape asks for is that of the range of its slot. Its bounds are written in the
type of the default, if the slot names one, and in that of the range otherwise. So a bound can be
compared with the values of the slot unless the slot names a type that is not that of its range.

* `Graph.BoundsComparable`: the bounds have the datatype that is asked for.
* `Slot.KeepsType`: a slot with bounds that names no other type than that of its range.
* `Schema.bound_cases`, `Schema.exists_bound`: which bounds a graph has.
* `Schema.compile_bounds`: the bounds of a graph are comparable exactly if its slots keep to their
  types.
-/

namespace SchemaShapes

/-- **Bounds that are comparable** with what they bound: where a datatype is asked for, each bound
is a literal of that datatype. -/
def Graph.BoundsComparable (g : Graph) : Prop :=
  ∀ s d p o, (⟨s, Sh.datatype, .iri d⟩ : Triple) ∈ g → p ∈ boundPredicates →
    (⟨s, p, o⟩ : Triple) ∈ g → ∃ l : Literal, o = .literal l ∧ l.datatype = some d

namespace Slot

variable {schema : Schema} {options : Options} {slot : Slot} {order : Nat} {edges : List Edge}
  {p : Iri} {o : Term}

/-- **A slot that keeps to its type.** If it has bounds, and names a type beside the one in its
range, both names stand for the same primitive type. -/
def KeepsType (schema : Schema) (slot : Slot) : Prop :=
  ∀ name other, slot.range = some (.only (.toType name)) → slot.defaultType = some other →
    slot.bounds ≠ [] → schema.resolveType? other = schema.resolveType? name

/-- The values of a slot that keeps to its type have the type of its range. -/
theorem KeepsType.valuePrimitive? (h : slot.KeepsType schema) {name : String}
    (hr : slot.range = some (.only (.toType name))) (hb : slot.bounds ≠ []) :
    schema.valuePrimitive? slot = schema.resolveType? name := by
  cases hd : slot.defaultType with
  | none => simp [Schema.valuePrimitive?, hd, hr]
  | some other =>
    rw [← h name other hr hd hb]
    simp [Schema.valuePrimitive?, hd]

/-- **The datatype of a bound** is that of the type of the values, if there is one. -/
theorem datatype_of_boundLiteral {value : Scalar} {l : Literal}
    (h : slot.boundLiteral schema value = .ok l) {q : Primitive}
    (hq : schema.valuePrimitive? slot = some q) : l.datatype = some q.datatype := by
  simp only [boundLiteral, hq] at h
  exact Primitive.datatype_of_encode h

/-! ## What a slot says of its bounds -/

/-- **What a range says** is a datatype, or nothing that has to do with bounds. -/
theorem mem_rangeEdges_cases {range : Option Range} {found : List Edge}
    (h : schema.RangeEdges range found) (he : (p, o) ∈ found) :
    p ∈ [Sh.classIri, Sh.nodeKind, Sh.inList, Sh.orList] ∨
      p = Sh.datatype ∧ ∃ name q, range = some (.only (.toType name)) ∧
        schema.resolveType? name = some q ∧ o = .iri q.datatype := by
  cases h with
  | free => cases he
  | @ofType name q hq =>
    simp only [List.mem_cons, Prod.mk.injEq, List.not_mem_nil, or_false] at he
    rcases he with ⟨rfl, rfl⟩ | ⟨rfl, rfl⟩
    · exact .inr ⟨rfl, name, q, rfl, hq, rfl⟩
    · exact .inl (by decide)
  | ofClass hd =>
    simp only [List.mem_cons, Prod.mk.injEq, List.not_mem_nil, or_false] at he
    rcases he with ⟨rfl, rfl⟩ | ⟨rfl, rfl⟩
    · exact .inl (by decide)
    · exact .inl (by decide)
  | ofEnum head =>
    cases List.mem_singleton.1 he
    exact .inl (by decide)
  | ofUnion head =>
    cases List.mem_singleton.1 he
    exact .inl (by decide)

/-- **An edge to a datatype or to a bound** leads to that of the range, or to the literal of a bound of
the slot. -/
theorem Says.datatype_or_bound (h : slot.Says schema p o) (hp : p ∈ Sh.datatype :: boundPredicates) :
    (p = Sh.datatype ∧ ∃ name q, slot.range = some (.only (.toType name)) ∧
      schema.resolveType? name = some q ∧ o = .iri q.datatype) ∨
    p ∈ boundPredicates ∧
      ∃ value ∈ slot.bounds, ∃ l, slot.boundLiteral schema value = .ok l ∧ o = .literal l := by
  have htext : ∀ q ∈ [Sh.name, Sh.description, Sh.pattern], q ∉ Sh.datatype :: boundPredicates := by
    decide
  have hnumber : ∀ q ∈ [Sh.order, Sh.minCount, Sh.maxCount], q ∉ Sh.datatype :: boundPredicates := by
    decide
  have hrange : ∀ q ∈ [Sh.classIri, Sh.nodeKind, Sh.inList, Sh.orList],
      q ∉ Sh.datatype :: boundPredicates := by decide
  cases h with
  | path => exact absurd hp (by decide)
  | text hq s => exact absurd hp (htext p hq)
  | number hq n => exact absurd hp (hnumber p hq)
  | range h he =>
    rcases mem_rangeEdges_cases h he with hq | hdatatype
    · exact absurd hp (hrange p hq)
    · exact .inl hdatatype
  | default _ hl => exact absurd hp (by decide)
  | bound hbound hvalue hl => exact .inr ⟨hbound, _, hvalue, _, hl, rfl⟩

theorem datatype_notMem_boundPredicates : Sh.datatype ∉ boundPredicates := by decide

/-- **An edge to a bound** leads to the literal of a bound of the slot. -/
theorem Says.of_bound (h : slot.Says schema p o) (hp : p ∈ boundPredicates) :
    ∃ value ∈ slot.bounds, ∃ l, slot.boundLiteral schema value = .ok l ∧ o = .literal l := by
  rcases h.datatype_or_bound (List.mem_cons_of_mem _ hp) with ⟨rfl, -⟩ | ⟨-, hbound⟩
  · exact absurd hp datatype_notMem_boundPredicates
  · exact hbound

/-- **An edge to a datatype** leads to that of the range. -/
theorem Says.of_datatype (h : slot.Says schema Sh.datatype o) :
    ∃ name q, slot.range = some (.only (.toType name)) ∧ schema.resolveType? name = some q ∧
      o = .iri q.datatype := by
  rcases h.datatype_or_bound List.mem_cons_self with ⟨-, hdatatype⟩ | ⟨hbound, -⟩
  · exact hdatatype
  · exact absurd hbound datatype_notMem_boundPredicates

/-- **All bounds are said.** -/
theorem bound_mem_of_meaning (h : slot.Meaning schema options order edges) {value : Scalar}
    (hvalue : value ∈ slot.bounds) :
    ∃ p ∈ boundPredicates, ∃ l, slot.boundLiteral schema value = .ok l ∧ (p, .literal l) ∈ edges := by
  obtain ⟨range, default, minimum, maximum, -, -, hminimum, hmaximum, rfl⟩ := h
  rcases List.mem_append.1 hvalue with hv | hv
  · rw [Option.mem_toList.1 hv] at hminimum
    obtain ⟨l, hl, rfl⟩ := map_eq_ok.1 hminimum
    exact ⟨Sh.minInclusive, by decide, l, hl, by simp [optionalEdge]⟩
  · rw [Option.mem_toList.1 hv] at hmaximum
    obtain ⟨l, hl, rfl⟩ := map_eq_ok.1 hmaximum
    exact ⟨Sh.maxInclusive, by decide, l, hl, by simp [optionalEdge]⟩

/-- **The datatype of a range is said.** -/
theorem datatype_mem_of_meaning (h : slot.Meaning schema options order edges) {name : String}
    (hr : slot.range = some (.only (.toType name))) :
    ∃ q, schema.resolveType? name = some q ∧ (Sh.datatype, .iri q.datatype) ∈ edges := by
  obtain ⟨range, default, minimum, maximum, hrange, -, -, -, rfl⟩ := h
  rw [hr] at hrange
  cases hrange with
  | @ofType _ q hq => exact ⟨q, hq, by simp⟩

end Slot

namespace Schema

variable {schema : Schema} {options : Options} {g : Graph} {i j : Nat} {decl : ClassDecl}
  {slot : Slot} {s o : Term} {p : Iri}

/-- A slot of a schema that compiles is well formed. -/
theorem SlotAt.wellFormed (hs : schema.SlotAt i j decl slot)
    (h : schema.compile options = .ok g) : slot.WellFormed schema := by
  have hnone := schema.faultOf_compile options
  rw [h, faultOf_ok] at hnone
  have hdecl := List.findSome?_eq_none_iff.1 hnone.symm decl (List.mem_of_getElem? hs.classAt)
  exact classFault?_eq_none.1 hdecl slot (List.mem_of_getElem? hs.slotAt)

/-- **What is said of slots only.** A predicate that is used neither at the shape of a class nor in a
list is that of an edge of the node of a slot. -/
theorem slot_cases (h : schema.compile options = .ok g) (ht : (⟨s, p, o⟩ : Triple) ∈ g)
    (hshape : p ∉ Sh.property :: Sh.ignoredProperties :: classPredicates)
    (hlist : p ∉ listPredicates) :
    ∃ i j decl slot edges, schema.SlotAt i j decl slot ∧
      s = .blank (schema.propertyNode options i j) ∧ slot.Meaning schema options j edges ∧
      (p, o) ∈ edges := by
  simp only [List.mem_cons, not_or] at hshape
  obtain ⟨hproperty, hignored, hclass⟩ := hshape
  cases compile_origin h ht with
  | @shape _ decl _ _ hi he =>
    rw [← decl.map_shapeEdges options] at he
    obtain ⟨e, hedge, rfl, -⟩ := mem_map_toEdge.1 he
    rcases ClassDecl.mem_shapeEdges_cases hedge with ⟨hmem, -⟩ | ⟨-, rfl⟩
    · exact absurd hmem hclass
    · exact absurd rfl hignored
  | property hs => exact absurd rfl hproperty
  | slot hs hm he => exact ⟨_, _, _, _, _, hs, rfl, hm, he⟩
  | ignored ho => exact absurd (by simp [listPredicates]) hlist
  | listed hs he => exact absurd (predicate_of_reading he) hlist
  | link hlink ho => exact absurd hlink hlist

/-- **Which bounds a graph has**: those of its slots, at their nodes. -/
theorem bound_cases (h : schema.compile options = .ok g) (hp : p ∈ boundPredicates)
    (ht : (⟨s, p, o⟩ : Triple) ∈ g) :
    ∃ i j decl slot, schema.SlotAt i j decl slot ∧ s = .blank (schema.propertyNode options i j) ∧
      ∃ value ∈ slot.bounds, ∃ l, slot.boundLiteral schema value = .ok l ∧ o = .literal l := by
  have hother : ∀ q ∈ boundPredicates, q ∉ Sh.property :: Sh.ignoredProperties :: classPredicates ∧
      q ∉ listPredicates := by decide
  obtain ⟨i, j, decl, slot, edges, hs, hnode, hm, he⟩ :=
    slot_cases h ht (hother p hp).1 (hother p hp).2
  exact ⟨i, j, decl, slot, hs, hnode, (Slot.says_of_meaning hm he).of_bound hp⟩

/-- **A graph has all the bounds of its slots.** -/
theorem exists_bound (h : schema.compile options = .ok g) (hs : schema.SlotAt i j decl slot)
    {value : Scalar} (hvalue : value ∈ slot.bounds) :
    ∃ p ∈ boundPredicates, ∃ l, slot.boundLiteral schema value = .ok l ∧
      (⟨.blank (schema.propertyNode options i j), p, .literal l⟩ : Triple) ∈ g := by
  obtain ⟨edges, hm, -, hiff⟩ := mem_propertyNode h hs
  obtain ⟨p, hp, l, hl, he⟩ := Slot.bound_mem_of_meaning hm hvalue
  exact ⟨p, hp, l, hl, (hiff _ _).2 he⟩

/-- **The datatype that a shape asks for** is that of the range of its slot. -/
theorem mem_datatype_iff (h : schema.compile options = .ok g) (hs : schema.SlotAt i j decl slot) :
    (⟨.blank (schema.propertyNode options i j), Sh.datatype, o⟩ : Triple) ∈ g ↔
      ∃ name q, slot.range = some (.only (.toType name)) ∧ schema.resolveType? name = some q ∧
        o = .iri q.datatype := by
  obtain ⟨edges, hm, -, hiff⟩ := mem_propertyNode h hs
  rw [hiff]
  constructor
  · intro he
    exact (Slot.says_of_meaning hm he).of_datatype
  · rintro ⟨name, q, hr, hq, rfl⟩
    obtain ⟨q', hq', he⟩ := Slot.datatype_mem_of_meaning hm hr
    cases hq.symm.trans hq'
    exact he

/-! ## Graphs -/

/-- Slots that keep to their types have comparable bounds. -/
theorem boundsComparable_of_keepsType (h : schema.compile options = .ok g)
    (hkeep : ∀ decl ∈ schema.classes, ∀ slot ∈ decl.slots, slot.KeepsType schema) :
    g.BoundsComparable := by
  intro s d p o hdatatype hp ht
  obtain ⟨i, j, decl, slot, hs, rfl, value, hvalue, l, hl, rfl⟩ := bound_cases h hp ht
  obtain ⟨name, q, hr, hq, hd⟩ := (mem_datatype_iff h hs).1 hdatatype
  cases hd
  have hkeeps := hkeep decl (List.mem_of_getElem? hs.classAt) slot (List.mem_of_getElem? hs.slotAt)
  have hvalues := (hkeeps.valuePrimitive? hr (List.ne_nil_of_mem hvalue)).trans hq
  exact ⟨l, rfl, Slot.datatype_of_boundLiteral hl hvalues⟩

/-- A slot whose bounds are comparable keeps to its type. -/
theorem keepsType_of_boundsComparable (h : schema.compile options = .ok g)
    (hall : g.BoundsComparable) (hs : schema.SlotAt i j decl slot) : slot.KeepsType schema := by
  intro name other hr hd hbounds
  obtain ⟨value, hvalue⟩ := List.exists_mem_of_ne_nil _ hbounds
  obtain ⟨p, hp, l, hl, ht⟩ := exists_bound h hs hvalue
  -- both names stand for something, or the schema would not compile
  have hwell := hs.wellFormed h
  obtain ⟨r, hother⟩ := hwell.defaultType other hd
  obtain ⟨q, hname⟩ : ∃ q, schema.resolveType? name = some q := hwell.range _ hr
  have hvalues : schema.valuePrimitive? slot = some r := by
    simpa [valuePrimitive?, hd] using hother
  -- the bound has the datatype of the one, and is compared with that of the other
  obtain ⟨k, hk, hdatatype⟩ :=
    hall _ _ p _ ((mem_datatype_iff h hs).2 ⟨name, q, hr, hname, rfl⟩) hp ht
  cases hk
  rw [Slot.datatype_of_boundLiteral hl hvalues, Option.some.injEq] at hdatatype
  rw [hother, hname, Primitive.datatype_injective hdatatype]

/-- **The bounds of a graph.** Each is a literal at the node of a slot, in the type of the values of
the slot if there is one: the type that the slot names, or else that of its range. The datatype that
is asked for there is that of the range. So the bounds are comparable with the values that they bound
if and only if no slot with bounds names a type that is not the type of its range. -/
theorem compile_bounds (h : schema.compile options = .ok g) :
    (∀ s p o, p ∈ boundPredicates → (⟨s, p, o⟩ : Triple) ∈ g →
      ∃ i j decl slot l, schema.SlotAt i j decl slot ∧
        s = .blank (schema.propertyNode options i j) ∧ o = .literal l ∧
        ∀ q, schema.valuePrimitive? slot = some q → l.datatype = some q.datatype) ∧
    (∀ i j decl slot, schema.SlotAt i j decl slot → ∀ o,
      (⟨.blank (schema.propertyNode options i j), Sh.datatype, o⟩ : Triple) ∈ g ↔
        ∃ name q, slot.range = some (.only (.toType name)) ∧ schema.resolveType? name = some q ∧
          o = .iri q.datatype) ∧
    (g.BoundsComparable ↔ ∀ decl ∈ schema.classes, ∀ slot ∈ decl.slots, slot.KeepsType schema) := by
  refine ⟨fun s p o hp ht => ?_, fun i j decl slot hs o => mem_datatype_iff h hs,
    fun hall decl hdecl slot hslot => ?_, boundsComparable_of_keepsType h⟩
  · obtain ⟨i, j, decl, slot, hs, hnode, value, -, l, hl, ho⟩ := bound_cases h hp ht
    exact ⟨i, j, decl, slot, l, hs, hnode, ho, fun q hq => Slot.datatype_of_boundLiteral hl hq⟩
  · obtain ⟨i, hi⟩ := List.mem_iff_getElem?.1 hdecl
    obtain ⟨j, hj⟩ := List.mem_iff_getElem?.1 hslot
    exact keepsType_of_boundsComparable h hall ⟨hi, hj⟩

/-- A schema with one slot, whose range is a type of its own and whose bounds are one number and one
text. -/
def bounding (defaultType : String) : Schema where
  name := "bounding"
  id := "urn:bounding"
  classes :=
    [{ name := "Person", iri := "urn:Person", description := none, closed := some false,
       slots :=
        [{ Slot.bare "age" "urn:age" with
            range := some (.only (.toType "age")), defaultType := some defaultType
            minimum := some (.integer 0), maximum := some (.text " +150 ") }] }]
  enums := []
  types := [⟨"age", some "integer", none⟩]

theorem compile_bounds_sample : ∃ g, (bounding "int").compile .standard = .ok g ∧
    (⟨.blank 0, Sh.datatype, .iri Xsd.integer⟩ : Triple) ∈ g ∧
    (⟨.blank 0, Sh.maxInclusive, .literal ⟨"150", some Xsd.integer⟩⟩ : Triple) ∈ g ∧
    g.BoundsComparable := by
  obtain ⟨g, h⟩ : ∃ g, (bounding "int").compile .standard = .ok g := ⟨_, rfl⟩
  obtain ⟨shapes, hs, hg, -⟩ := compile_ok h
  cases hs
  have hmaximum :
      (⟨.blank 0, Sh.maxInclusive, .literal ⟨"150", some Xsd.integer⟩⟩ : Triple) ∈ g := by
    rw [hg, Graph.mem_ofList]
    decide +kernel
  obtain ⟨-, hdatatype, hcomparable⟩ := compile_bounds h
  refine ⟨g, h, (hdatatype 0 0 _ _ ⟨rfl, rfl⟩ _).2 ⟨"age", .integer, rfl, by decide, rfl⟩, hmaximum,
    hcomparable.2 fun decl hdecl slot hslot name other hr hd _ => ?_⟩
  -- there is one class with one slot
  rw [bounding, List.mem_singleton] at hdecl
  subst hdecl
  rw [List.mem_singleton] at hslot
  subst hslot
  cases hr
  cases hd
  decide

/-- **Bounds in another type.** A slot of whole numbers that names strings as the type of its default
has bounds that are strings, which no whole number can be compared with. -/
theorem bounding_string : ∃ g, (bounding "string").compile .standard = .ok g ∧
    (⟨.iri "urn:Person", Sh.property, .blank 0⟩ : Triple) ∈ g ∧
    (⟨.blank 0, Sh.datatype, .iri Xsd.integer⟩ : Triple) ∈ g ∧
    (⟨.blank 0, Sh.minInclusive, .literal ⟨"0", some Xsd.string⟩⟩ : Triple) ∈ g ∧
    ¬ g.BoundsComparable := by
  obtain ⟨g, h⟩ : ∃ g, (bounding "string").compile .standard = .ok g := ⟨_, rfl⟩
  obtain ⟨shapes, hs, hg, -⟩ := compile_ok h
  cases hs
  have hproperty : (⟨.iri "urn:Person", Sh.property, .blank 0⟩ : Triple) ∈ g := by
    rw [hg, Graph.mem_ofList]
    decide +kernel
  have hdatatype : (⟨.blank 0, Sh.datatype, .iri Xsd.integer⟩ : Triple) ∈ g := by
    rw [hg, Graph.mem_ofList]
    decide +kernel
  have hminimum : (⟨.blank 0, Sh.minInclusive, .literal ⟨"0", some Xsd.string⟩⟩ : Triple) ∈ g := by
    rw [hg, Graph.mem_ofList]
    decide +kernel
  refine ⟨g, h, hproperty, hdatatype, hminimum, fun hall => ?_⟩
  obtain ⟨l, hl, hdatatype'⟩ := hall _ _ _ _ hdatatype (by decide) hminimum
  cases hl
  exact absurd hdatatype' (by decide)

end Schema

end SchemaShapes
