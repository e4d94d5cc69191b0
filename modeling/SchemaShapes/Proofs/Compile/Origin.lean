import SchemaShapes.Proofs.Compile.Lists
import SchemaShapes.Proofs.Compile.Meaning

/-!
# Where the triples of a graph come from

A triple of a graph of shapes is an edge of the shape of a class, an edge of the node of a slot, or
stands in one of their lists. In a list it either only holds the list together, or says what a name
in the range of the slot stands for.

* `Encodes`: triples that say some edges at blank nodes, and are links otherwise.
* `Constraint.cases_of_mem`, `Constraint.said_of_mem`: what the lists of a constraint say.
* `Schema.Origin`: the origins of triples.
* `Schema.compile_origin`: each triple of a graph has one of them.
-/

namespace SchemaShapes

open Fragment

/-- A term that holds lists together: a cell or a shape in a list, or the end. -/
def Term.IsLink (t : Term) : Prop := (∃ n, t = .blank n) ∨ t = .iri Rdf.nil

theorem Term.isLink_blank (n : Nat) : (Term.blank n).IsLink := Or.inl ⟨n, rfl⟩

/-- **Triples of lists.** They leave blank nodes, and say all of `edges`, and but for links nothing
else. -/
structure Encodes (ts : List Triple) (edges : List Edge) : Prop where
  cases : ∀ t ∈ ts, (∃ n, t.subject = .blank n) ∧
    (t.object.IsLink ∨ (t.predicate, t.object) ∈ edges)
  said : ∀ e ∈ edges, ∃ n, (⟨.blank n, e.1, e.2⟩ : Triple) ∈ ts

namespace Encodes

variable {ts us : List Triple} {edges more : List Edge}

theorem nil : Encodes [] [] := ⟨by simp, by simp⟩

theorem append (h : Encodes ts edges) (k : Encodes us more) :
    Encodes (ts ++ us) (edges ++ more) where
  cases := by
    intro t ht
    rcases List.mem_append.1 ht with ht | ht
    · exact ⟨(h.cases t ht).1, (h.cases t ht).2.imp_right (List.mem_append_left _)⟩
    · exact ⟨(k.cases t ht).1, (k.cases t ht).2.imp_right (List.mem_append_right _)⟩
  said := by
    intro e he
    rcases List.mem_append.1 he with he | he
    · obtain ⟨n, hn⟩ := h.said e he
      exact ⟨n, List.mem_append_left _ hn⟩
    · obtain ⟨n, hn⟩ := k.said e he
      exact ⟨n, List.mem_append_right _ hn⟩

theorem edge (n : Nat) (p : Iri) (o : Term) : Encodes [⟨.blank n, p, o⟩] [(p, o)] :=
  ⟨by simp, by simp⟩

/-- Triples whose edges all are links say nothing. -/
theorem of_links (h : Encodes ts edges) (hlinks : ∀ e ∈ edges, e.2.IsLink) : Encodes ts [] where
  cases := fun t ht => ⟨(h.cases t ht).1, Or.inl ((h.cases t ht).2.elim id (hlinks _))⟩
  said := by simp

theorem link (n : Nat) (p : Iri) {o : Term} (ho : o.IsLink) : Encodes [⟨.blank n, p, o⟩] [] :=
  (edge n p o).of_links (by simpa using ho)

end Encodes

theorem isLink_collection (items : List Term) (next : Nat) :
    (collection items next).node.IsLink := by
  unfold collection cellOrNil
  split
  · exact Term.isLink_blank next
  · exact Or.inr rfl

/-- **The cells of a list** say its items. -/
theorem encodes_cells (items : List Term) (next : Nat) :
    Encodes (cells items next) (items.map fun item => (Rdf.first, item)) := by
  induction items generalizing next with
  | nil => exact .nil
  | cons item items ih =>
    rw [cells_cons, List.map_cons]
    have hrest := Encodes.link next Rdf.rest (isLink_collection items (next + 1))
    exact (Encodes.edge next Rdf.first item).append (hrest.append (ih (next + 1)))

/-! ## Ranges -/

namespace Alternative

/-- **The shape of an alternative** says what the alternative is read as. -/
theorem encodes_shape (a : Alternative) (next : Nat) :
    Encodes (a.shape next).triples a.readings := by
  rw [triples_shape]
  cases a with
  | ofDatatype iri => exact (Encodes.edge next Sh.datatype (.iri iri)).append .nil
  | ofClass iri => exact (Encodes.edge next Sh.classIri (.iri iri)).append .nil
  | ofValues values =>
    have hlist := Encodes.link next Sh.inList (isLink_collection values (next + 1))
    exact hlist.append (encodes_cells values (next + 1))

theorem encodes_shapes (alternatives : List Alternative) (next : Nat) :
    Encodes ((shapes alternatives next).flatMap (·.triples))
      (alternatives.flatMap Alternative.readings) := by
  induction alternatives generalizing next with
  | nil => exact .nil
  | cons a more ih =>
    rw [shapes, List.flatMap_cons, List.flatMap_cons]
    exact (a.encodes_shape next).append (ih (next + a.taken))

theorem isLink_of_mem_shapes {alternatives : List Alternative} {next : Nat} {f : Fragment}
    (hf : f ∈ shapes alternatives next) : f.node.IsLink := by
  induction alternatives generalizing next with
  | nil => cases hf
  | cons a more ih =>
    rw [shapes, List.mem_cons] at hf
    rcases hf with rfl | hf
    · exact Term.isLink_blank next
    · exact ih hf

/-- **A disjunction** says what its alternatives are read as: its own cells are links. -/
theorem encodes_disjunction (alternatives : List Alternative) (next : Nat) :
    Encodes (disjunction alternatives next).triples
      (alternatives.flatMap Alternative.readings) := by
  have hcells := encodes_cells ((shapes alternatives next).map (·.node))
    (next + shapesTaken alternatives)
  have hlinks := hcells.of_links fun e he => by
    obtain ⟨node, hnode, rfl⟩ := List.mem_map.1 he
    obtain ⟨f, hf, rfl⟩ := List.mem_map.1 hnode
    exact isLink_of_mem_shapes hf
  exact hlinks.append (encodes_shapes alternatives next)

end Alternative

/-- **What a constraint is read as**, like an alternative. -/
def Constraint.readings : Constraint → List Edge
  | .ofDatatype p => [(Sh.datatype, .iri p.datatype)]
  | .ofClass iri => [(Sh.classIri, .iri iri)]
  | .ofValues values => values.map fun v => (Rdf.first, v)
  | .anyOf alternatives => alternatives.flatMap Alternative.readings

/-- What the edges of a constraint lead to says at most what the constraint is read as. -/
theorem Constraint.cases_of_mem {c : Constraint} {next : Nat} {e : Iri × Fragment}
    (he : e ∈ c.edges next) {t : Triple} (ht : t ∈ e.2.triples) :
    (∃ n, t.subject = .blank n) ∧
      (t.object.IsLink ∨ (t.predicate, t.object) ∈ c.readings) := by
  cases c with
  | ofDatatype p =>
    simp only [Constraint.edges, List.mem_cons, List.not_mem_nil, or_false] at he
    rcases he with rfl | rfl <;> cases ht
  | ofClass iri =>
    simp only [Constraint.edges, List.mem_cons, List.not_mem_nil, or_false] at he
    rcases he with rfl | rfl <;> cases ht
  | ofValues values =>
    rw [List.mem_singleton.1 he] at ht
    exact (encodes_cells values next).cases t ht
  | anyOf alternatives =>
    rw [List.mem_singleton.1 he] at ht
    exact (Alternative.encodes_disjunction alternatives next).cases t ht

/-- **All that a constraint is read as is said**, by an edge or in a list. -/
theorem Constraint.said_of_mem {c : Constraint} {edge : Edge} (h : edge ∈ c.readings)
    (next : Nat) : ∃ e ∈ c.edges next, (e.1, e.2.node) = edge ∨
      ∃ n, (⟨.blank n, edge.1, edge.2⟩ : Triple) ∈ e.2.triples := by
  cases c with
  | ofDatatype p => exact ⟨_, List.mem_cons_self, Or.inl (List.mem_singleton.1 h).symm⟩
  | ofClass iri => exact ⟨_, List.mem_cons_self, Or.inl (List.mem_singleton.1 h).symm⟩
  | ofValues values =>
    exact ⟨_, List.mem_cons_self, Or.inr ((encodes_cells values next).said edge h)⟩
  | anyOf alternatives =>
    exact ⟨_, List.mem_cons_self,
      Or.inr ((Alternative.encodes_disjunction alternatives next).said edge h)⟩

/-- The references of a range. -/
def Range.references : Range → List Reference
  | .only target => [target]
  | .anyOf targets => targets

/-! ## The graph -/

namespace Schema

/-- **What the names in the range of a slot stand for.** -/
def rangeReadings (schema : Schema) (slot : Slot) : List Edge :=
  (slot.range.toList.flatMap Range.references).flatMap schema.readings

variable {schema : Schema} {options : Options} {g : Graph}

/-- A range that is understood is read as what its names stand for. -/
theorem constraint_reads {range : Range} {c : Constraint} (h : schema.constraint range = .ok c) :
    c.readings = range.references.flatMap schema.readings := by
  rcases constraint_ok h with ⟨name, p, rfl, hp, rfl⟩ | ⟨name, decl, rfl, hd, rfl⟩ |
    ⟨name, decl, rfl, hd, -, rfl⟩ | ⟨targets, found, rfl, -, hf, rfl⟩
  · simp [Constraint.readings, Range.references, readings, hp]
  · simp [Constraint.readings, Range.references, readings, hd]
  · simp [Constraint.readings, Range.references, readings, enumTerms, hd]
  · exact (alternatives_read hf).1

/-- A slot that is understood has a constraint if it has a range, and this is read as the range. -/
theorem typing_reads {slot : Slot} {typing : Typing} (h : slot.typing schema = .ok typing) :
    (typing.constraint.map Constraint.readings).getD [] = schema.rangeReadings slot := by
  rcases eachOption_eq_ok.1 (Slot.typing_ok h).1 with ⟨hr, hc⟩ | ⟨range, c, hr, hok, hc⟩
  · simp [rangeReadings, hr, hc]
  · simp [rangeReadings, hr, hc, constraint_reads hok]

/-- What the names in a range stand for are IRIs, and texts without a datatype. -/
theorem untyped_of_mem_rangeReadings {slot : Slot} {p : Iri} {l : Literal}
    (h : (p, .literal l) ∈ schema.rangeReadings slot) : l.datatype = none := by
  obtain ⟨r, -, hr⟩ := List.mem_flatMap.1 h
  cases r with
  | toType name => simp [readings] at hr
  | toClass name => simp [readings] at hr
  | toEnum name =>
    obtain ⟨v, hv, heq⟩ := List.mem_map.1 hr
    obtain ⟨-, rfl⟩ := Prod.mk.inj heq
    unfold enumTerms at hv
    split at hv
    · cases hv
    · obtain ⟨value, -, hterm⟩ := List.mem_map.1 hv
      unfold EnumValue.term at hterm
      split at hterm <;> cases hterm
      rfl

/-- **Where a triple comes from.** -/
inductive Origin (schema : Schema) (options : Options) : Triple → Prop
  /-- An edge of the shape of a class. -/
  | shape {i : Nat} {decl : ClassDecl} {p : Iri} {o : Term}
    (hi : schema.classes[i]? = some decl)
    (he : (p, o) ∈ decl.Meaning options (schema.classStart options i)) :
    Origin schema options ⟨.iri (options.shapeIri decl), p, o⟩
  /-- The edge of the shape of a class to a slot. -/
  | property {i j : Nat} {decl : ClassDecl} {slot : Slot} (hs : schema.SlotAt i j decl slot) :
    Origin schema options ⟨.iri (options.shapeIri decl), Sh.property,
      .blank (schema.propertyNode options i j)⟩
  /-- An edge of the node of a slot. -/
  | slot {i j : Nat} {decl : ClassDecl} {slot : Slot} (hs : schema.SlotAt i j decl slot)
    {edges : List Edge} (hm : slot.Meaning schema options j edges) {p : Iri} {o : Term}
    (he : (p, o) ∈ edges) :
    Origin schema options ⟨.blank (schema.propertyNode options i j), p, o⟩
  /-- An item of the list of a closed shape. -/
  | ignored {n : Nat} {o : Term} (ho : o ∈ ignoredProperties) :
    Origin schema options ⟨.blank n, Rdf.first, o⟩
  /-- What a name in a range stands for, in a list. -/
  | listed {i j : Nat} {decl : ClassDecl} {slot : Slot} (hs : schema.SlotAt i j decl slot)
    {n : Nat} {p : Iri} {o : Term} (he : (p, o) ∈ schema.rangeReadings slot) :
    Origin schema options ⟨.blank n, p, o⟩
  /-- A triple that holds a list together. -/
  | link {n : Nat} {p : Iri} {o : Term} (hp : p ∈ listPredicates) (ho : o.IsLink) :
    Origin schema options ⟨.blank n, p, o⟩

section Built

variable {shapes properties : List Fragment} {i : Nat} {decl : ClassDecl}

/-- The triples below an edge of the shape of a class are those of its list. -/
theorem origin_of_mem_shapeEdges {next : Nat} {e : Iri × Fragment}
    (he : e ∈ decl.shapeEdges options next) {t : Triple} (ht : t ∈ e.2.triples) :
    schema.Origin options t := by
  rcases ClassDecl.mem_shapeEdges_cases he with ⟨-, hnil⟩ | ⟨-, rfl⟩
  · simp [hnil] at ht
  · obtain ⟨⟨n, hs⟩, hlink | hitem⟩ := (encodes_cells ignoredProperties next).cases t ht
    · obtain ⟨s, p, o⟩ := t
      cases hs
      exact .link (predicate_of_mem_cells ht) hlink
    · obtain ⟨s, p, o⟩ := t
      cases hs
      obtain ⟨item, hitem, heq⟩ := List.mem_map.1 hitem
      cases heq
      exact .ignored hitem

/-- The triples below an edge of the node of a slot are those of the lists of its range. -/
theorem origin_of_mem_propertyEdges {j : Nat} {slot : Slot} (hs : schema.SlotAt i j decl slot)
    {typing : Typing} (htyping : slot.typing schema = .ok typing) {values : SlotValues}
    {next : Nat} {e : Iri × Fragment}
    (he : e ∈ slot.propertyEdges options j typing values next) {t : Triple}
    (ht : t ∈ e.2.triples) : schema.Origin options t := by
  rcases Slot.mem_propertyEdges_cases he with hnil | ⟨c, hc, hedge⟩
  · simp [hnil] at ht
  · have hreads := typing_reads htyping
    rw [hc, Option.map_some, Option.getD_some] at hreads
    obtain ⟨s, p, o⟩ := t
    obtain ⟨⟨n, hn⟩, hlink | hsaid⟩ := c.cases_of_mem hedge ht
    · cases hn
      exact .link (predicate_of_mem_range hedge ht) hlink
    · cases hn
      exact .listed hs (hreads ▸ hsaid)

end Built

/-- **Each triple of a graph has an origin.** -/
theorem compile_origin (h : schema.compile options = .ok g) {t : Triple} (ht : t ∈ g) :
    schema.Origin options t := by
  obtain ⟨shapes, hforest, hbuilt, hshapes⟩ := compile_shapes h
  obtain ⟨f, hf, htf⟩ := hforest.mem_iff.1 ht
  obtain ⟨i, decl, properties, hi, hb, rfl⟩ := hshapes f hf
  obtain ⟨e, he, hte⟩ := mem_describe.1 htf
  rcases List.mem_append.1 he with he | he
  · rcases hte with rfl | hte
    · refine .shape hi ?_
      rw [← decl.map_shapeEdges options]
      exact mem_map_toEdge.2 ⟨e, he, rfl, rfl⟩
    · exact origin_of_mem_shapeEdges he hte
  · -- an edge to a slot, or a triple of the shape of the slot
    obtain ⟨q, hq, rfl⟩ := List.mem_map.1 he
    obtain ⟨j, hj⟩ := List.mem_iff_getElem?.1 hq
    obtain ⟨slot, hs⟩ := hb.exists_slot hi hj
    obtain ⟨q', hq', hrun⟩ := hb.propertyShape hs
    cases hj.symm.trans hq'
    obtain ⟨typing, values, htyping, hv, rfl, -⟩ := propertyShape_ok hrun
    rcases hte with rfl | hte
    · exact .property hs
    · obtain ⟨e, he, rfl | hte⟩ := mem_describe.1 hte
      · exact .slot hs (Slot.meaning_of_ok htyping hv _) (mem_map_toEdge.2 ⟨e, he, rfl, rfl⟩)
      · exact origin_of_mem_propertyEdges hs htyping he hte

/-- **What the names in a range stand for is said** at some blank node. -/
theorem exists_mem_of_mem_rangeReadings (h : schema.compile options = .ok g) {i j : Nat}
    {decl : ClassDecl} {slot : Slot} (hs : schema.SlotAt i j decl slot) {edge : Edge}
    (hedge : edge ∈ schema.rangeReadings slot) :
    ∃ n, (⟨.blank n, edge.1, edge.2⟩ : Triple) ∈ g := by
  obtain ⟨shapes, hforest, hbuilt, -⟩ := compile_shapes h
  obtain ⟨properties, hb⟩ := hbuilt i decl hs.classAt
  obtain ⟨f, hf, hrun⟩ := hb.propertyShape hs
  obtain ⟨typing, values, ht, hv, rfl, -⟩ := propertyShape_ok hrun
  -- what is below the node of the slot is in the graph
  have hbelow : ∀ t, t ∈ (describe (.blank (schema.propertyNode options i j))
      (slot.propertyEdges options j typing values (schema.propertyNode options i j + 1))).triples →
      t ∈ g := fun t ht => hforest.mem_iff.2 ⟨_, hb.mem_shapes, mem_describe.2
    ⟨_, List.mem_append_right _ (List.mem_map_of_mem (List.mem_of_getElem? hf)), Or.inr ht⟩⟩
  rw [← typing_reads ht] at hedge
  cases hc : typing.constraint with
  | none => simp [hc] at hedge
  | some c =>
    rw [hc, Option.map_some, Option.getD_some] at hedge
    obtain ⟨e, he, hsaid⟩ := c.said_of_mem hedge (schema.propertyNode options i j + 1)
    have hmem : e ∈ slot.propertyEdges options j typing values
        (schema.propertyNode options i j + 1) := by
      simp [Slot.propertyEdges, hc, he]
    rcases hsaid with rfl | ⟨n, hn⟩
    · exact ⟨_, hbelow _ (mem_describe.2 ⟨e, hmem, Or.inl rfl⟩)⟩
    · exact ⟨n, hbelow _ (mem_describe.2 ⟨e, hmem, Or.inr hn⟩)⟩

end Schema

end SchemaShapes
