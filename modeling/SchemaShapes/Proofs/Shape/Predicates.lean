import SchemaShapes.Proofs.Rdf.Tree
import SchemaShapes.Shape.Node

/-!
# Which predicates a shape uses

A property shape has no two edges with one predicate, and the lists below it have predicates of
their own.

* `Slot.nodup_predicates`: each edge of a property shape has its own predicate.
* `Slot.predicate_of_mem`: the predicates in and below a property shape.
* `ClassDecl.mem_shapeEdges_cases`: the edges of a node shape besides its slots.
* `ClassDecl.nodup_predicates`: each of these has its own predicate.
-/

namespace SchemaShapes

open Fragment

/-- The predicates of ranges, in the order in which they are written. -/
def rangePredicates : List Iri := [Sh.datatype, Sh.classIri, Sh.nodeKind, Sh.inList, Sh.orList]

/-- The predicates of a property shape, in the order in which they are written. -/
def slotPredicates : List Iri :=
  [Sh.path] ++ [Sh.name, Sh.description, Sh.order] ++ [Sh.minCount] ++ [Sh.maxCount] ++
    rangePredicates ++ [Sh.defaultValue] ++ [Sh.pattern] ++ [Sh.minInclusive] ++ [Sh.maxInclusive]

/-- The predicates in the lists of a property shape. -/
def listPredicates : List Iri := [Rdf.first, Rdf.rest, Sh.datatype, Sh.classIri, Sh.inList]

theorem slotPredicates_nodup : slotPredicates.Nodup := by decide

/-! ## Each predicate once -/

theorem Slot.literalEdge_predicates (predicate : Iri) (literal : Option Literal) :
    ((Slot.literalEdge predicate literal).map (·.1)).Sublist [predicate] := by
  cases literal with
  | none => exact List.nil_sublist _
  | some l => exact List.Sublist.refl _

theorem Constraint.edges_predicates (c : Constraint) (next : Nat) :
    ((c.edges next).map (·.1)).Sublist rangePredicates := by
  cases c with
  | ofDatatype p => exact (by decide : [Sh.datatype, Sh.nodeKind].Sublist rangePredicates)
  | ofClass iri => exact (by decide : [Sh.classIri, Sh.nodeKind].Sublist rangePredicates)
  | ofValues values => exact (by decide : [Sh.inList].Sublist rangePredicates)
  | anyOf alternatives => exact (by decide : [Sh.orList].Sublist rangePredicates)

theorem Slot.propertyEdges_predicates (options : Options) (slot : Slot) (order : Nat)
    (typing : Typing) (values : SlotValues) (next : Nat) :
    ((slot.propertyEdges options order typing values next).map (·.1)).Sublist slotPredicates := by
  have hmeta : ((if options.metadata then slot.metadataEdges order else []).map (·.1)).Sublist
      [Sh.name, Sh.description, Sh.order] := by
    cases options.metadata with
    | false => exact List.nil_sublist _
    | true =>
      simp only [if_true, metadataEdges, List.map_append]
      exact ((literalEdge_predicates Sh.name _).append
        (literalEdge_predicates Sh.description _)).append (literalEdge_predicates Sh.order _)
  have hrange : (((typing.constraint.map fun c => c.edges next).getD []).map (·.1)).Sublist
      rangePredicates := by
    cases typing.constraint with
    | none => exact List.nil_sublist _
    | some c => exact c.edges_predicates next
  -- part by part, in the order in which both are written
  simp only [propertyEdges, List.map_cons, List.map_append, slotPredicates, List.append_assoc]
  refine List.Sublist.cons_cons _ (hmeta.append ?_)
  refine (literalEdge_predicates _ _).append ((literalEdge_predicates _ _).append ?_)
  refine hrange.append ((literalEdge_predicates _ _).append ?_)
  exact (literalEdge_predicates _ _).append
    ((literalEdge_predicates _ _).append (literalEdge_predicates _ _))

/-- **Each edge of a property shape has its own predicate.** -/
theorem Slot.nodup_predicates (options : Options) (slot : Slot) (order : Nat) (typing : Typing)
    (values : SlotValues) (next : Nat) :
    ((slot.propertyEdges options order typing values next).map (·.1)).Nodup :=
  slotPredicates_nodup.sublist (propertyEdges_predicates options slot order typing values next)

/-! ## Below a property shape -/

theorem predicate_of_mem_cells {items : List Term} {next : Nat} {t : Triple}
    (h : t ∈ cells items next) : t.predicate ∈ listPredicates := by
  induction items generalizing next with
  | nil => cases h
  | cons item items ih =>
    rw [cells_cons, List.mem_cons, List.mem_cons] at h
    rcases h with rfl | rfl | h
    · simp [listPredicates]
    · simp [listPredicates]
    · exact ih h

theorem predicate_of_mem_shape {a : Alternative} {next : Nat} {t : Triple}
    (h : t ∈ (a.shape next).triples) : t.predicate ∈ listPredicates := by
  obtain ⟨e, he, h⟩ := mem_describe.1 h
  rw [List.mem_singleton] at he
  subst he
  cases a with
  | ofDatatype iri =>
    rcases h with rfl | h
    · simp [listPredicates, Alternative.predicate]
    · cases h
  | ofClass iri =>
    rcases h with rfl | h
    · simp [listPredicates, Alternative.predicate]
    · cases h
  | ofValues values =>
    rcases h with rfl | h
    · simp [listPredicates, Alternative.predicate]
    · exact predicate_of_mem_cells h

theorem predicate_of_mem_shapes {alternatives : List Alternative} {next : Nat} {t : Triple}
    (h : t ∈ (Alternative.shapes alternatives next).flatMap (·.triples)) :
    t.predicate ∈ listPredicates := by
  induction alternatives generalizing next with
  | nil => cases h
  | cons a more ih =>
    rw [Alternative.shapes, List.flatMap_cons, List.mem_append] at h
    rcases h with h | h
    · exact predicate_of_mem_shape h
    · exact ih h

theorem predicate_of_mem_range {c : Constraint} {next : Nat} {e : Iri × Fragment}
    (he : e ∈ c.edges next) {t : Triple} (h : t ∈ e.2.triples) : t.predicate ∈ listPredicates := by
  cases c with
  | ofDatatype p =>
    simp only [Constraint.edges, List.mem_cons, List.not_mem_nil, or_false] at he
    rcases he with rfl | rfl <;> cases h
  | ofClass iri =>
    simp only [Constraint.edges, List.mem_cons, List.not_mem_nil, or_false] at he
    rcases he with rfl | rfl <;> cases h
  | ofValues values =>
    rw [Constraint.edges, List.mem_singleton] at he
    subst he
    exact predicate_of_mem_cells h
  | anyOf alternatives =>
    rw [Constraint.edges, List.mem_singleton] at he
    subst he
    rcases List.mem_append.1 h with h | h
    · exact predicate_of_mem_cells h
    · exact predicate_of_mem_shapes h

theorem Slot.triples_of_mem_literalEdge {predicate : Iri} {literal : Option Literal}
    {e : Iri × Fragment} (he : e ∈ Slot.literalEdge predicate literal) : e.2.triples = [] := by
  cases literal with
  | none => cases he
  | some l =>
    rw [List.mem_singleton.1 he]
    rfl

/-- An edge of a property shape leads to a list of its range, or to a term that is not described. -/
theorem Slot.mem_propertyEdges_cases {options : Options} {slot : Slot} {order : Nat}
    {typing : Typing} {values : SlotValues} {next : Nat} {e : Iri × Fragment}
    (he : e ∈ slot.propertyEdges options order typing values next) :
    e.2.triples = [] ∨ ∃ c, typing.constraint = some c ∧ e ∈ c.edges next := by
  have hmeta : e ∈ (if options.metadata then slot.metadataEdges order else []) →
      e.2.triples = [] := by
    intro h
    cases ho : options.metadata with
    | false => simp [ho] at h
    | true =>
      simp only [ho, if_true, metadataEdges, List.mem_append] at h
      rcases h with (h | h) | h <;> exact triples_of_mem_literalEdge h
  have hrange : e ∈ (typing.constraint.map fun c => c.edges next).getD [] →
      ∃ c, typing.constraint = some c ∧ e ∈ c.edges next := by
    intro h
    cases hc : typing.constraint with
    | none => simp [hc] at h
    | some c => exact ⟨c, rfl, by simpa [hc] using h⟩
  simp only [propertyEdges, List.mem_cons, List.mem_append] at he
  rcases he with rfl | ((((((h | h) | h) | h) | h) | h) | h) | h
  · exact Or.inl rfl
  · exact Or.inl (hmeta h)
  · exact Or.inl (triples_of_mem_literalEdge h)
  · exact Or.inl (triples_of_mem_literalEdge h)
  · exact Or.inr (hrange h)
  · exact Or.inl (triples_of_mem_literalEdge h)
  · exact Or.inl (triples_of_mem_literalEdge h)
  · exact Or.inl (triples_of_mem_literalEdge h)
  · exact Or.inl (triples_of_mem_literalEdge h)

/-- **The predicates in and below a property shape.** -/
theorem Slot.predicate_of_mem {options : Options} {slot : Slot} {order : Nat} {typing : Typing}
    {values : SlotValues} {node : Term} {next : Nat} {t : Triple}
    (h : t ∈ (describe node (slot.propertyEdges options order typing values next)).triples) :
    t.predicate ∈ slotPredicates ∨ t.predicate ∈ listPredicates := by
  obtain ⟨e, he, rfl | ht⟩ := mem_describe.1 h
  · exact Or.inl ((propertyEdges_predicates options slot order typing values next).subset
      (List.mem_map_of_mem he))
  · rcases mem_propertyEdges_cases he with hnil | ⟨c, -, hc⟩
    · simp [hnil] at ht
    · exact Or.inr (predicate_of_mem_range hc ht)

/-! ## Node shapes -/

/-- The predicates of a node shape besides its slots and its list. -/
def classPredicates : List Iri := [Rdf.type, Sh.targetClass, Sh.closed, Sh.description]

theorem classPredicates_ne {p : Iri} (h : p ∈ classPredicates) :
    p ≠ Sh.property ∧ p ≠ Sh.ignoredProperties := by
  have hall : ∀ q ∈ classPredicates, q ≠ Sh.property ∧ q ≠ Sh.ignoredProperties := by decide
  exact hall p h

/-- **An edge of a node shape** leads to a term that is not described, or to the cell of its
list. -/
theorem ClassDecl.mem_shapeEdges_cases {options : Options} {decl : ClassDecl} {next : Nat}
    {e : Iri × Fragment} (he : e ∈ decl.shapeEdges options next) :
    (e.1 ∈ classPredicates ∧ e.2.triples = []) ∨
      (options.closes decl = true ∧
        e = (Sh.ignoredProperties, Fragment.collection ignoredProperties next)) := by
  simp only [shapeEdges, List.mem_append, List.mem_cons, List.not_mem_nil, or_false] at he
  rcases he with ((rfl | rfl | rfl) | h) | h
  · exact Or.inl ⟨by simp [classPredicates], rfl⟩
  · exact Or.inl ⟨by simp [classPredicates], rfl⟩
  · exact Or.inl ⟨by simp [classPredicates], rfl⟩
  · cases hc : options.closes decl with
    | false => simp [hc] at h
    | true => exact Or.inr ⟨rfl, by simpa [hc] using h⟩
  · cases ho : options.metadata with
    | false => simp [ho] at h
    | true =>
      simp only [ho, if_true] at h
      have hp : e.1 ∈ [Sh.description] :=
        (Slot.literalEdge_predicates Sh.description _).subset (List.mem_map_of_mem h)
      rw [List.mem_singleton] at hp
      exact Or.inl ⟨by simp [classPredicates, hp], Slot.triples_of_mem_literalEdge h⟩

/-- **Each edge of a node shape**, besides those to its slots, has its own predicate. -/
theorem ClassDecl.nodup_predicates (options : Options) (decl : ClassDecl) (next : Nat) :
    ((decl.shapeEdges options next).map (·.1)).Nodup := by
  have hlist : ((if options.closes decl then
      [(Sh.ignoredProperties, Fragment.collection ignoredProperties next)] else []).map
      (·.1)).Sublist [Sh.ignoredProperties] := by
    cases options.closes decl with
    | false => exact List.nil_sublist _
    | true => exact List.Sublist.refl _
  have hmeta : ((if options.metadata then
      Slot.literalEdge Sh.description (decl.description.map .untyped) else []).map
      (·.1)).Sublist [Sh.description] := by
    cases options.metadata with
    | false => exact List.nil_sublist _
    | true => exact Slot.literalEdge_predicates _ _
  have hall : ([Rdf.type, Sh.targetClass, Sh.closed] ++ [Sh.ignoredProperties] ++
      [Sh.description]).Nodup := by decide
  simp only [shapeEdges, List.map_append]
  exact hall.sublist (((List.Sublist.refl _).append hlist).append hmeta)

theorem ClassDecl.predicate_ne_property {options : Options} {decl : ClassDecl} {next : Nat}
    {e : Iri × Fragment} (he : e ∈ decl.shapeEdges options next) : e.1 ≠ Sh.property := by
  rcases mem_shapeEdges_cases he with ⟨hp, -⟩ | ⟨-, rfl⟩
  · exact (classPredicates_ne hp).1
  · exact (by decide : Sh.ignoredProperties ≠ Sh.property)

end SchemaShapes
