import Mathlib.Algebra.BigOperators.Group.List.Basic
import SchemaShapes.Proofs.Rdf.Distinct
import SchemaShapes.Proofs.Shape.Layout
import SchemaShapes.Proofs.Shape.Predicates

/-!
# How large shapes are

How many triples a shape is written in and how many blank nodes it takes can be read off the schema.
The triples of one shape are all different.

* `Schema.slotTriples`, `Schema.slotNodes`: what a slot adds to the shape of its class.
* `Schema.classTriples`, `Schema.classNodes`: the shape of a class, with its slots.
* `Schema.size_nodeShape`: the shape that is built is as large.
* `Schema.nodup_nodeShape`: it lists no triple twice.
-/

namespace SchemaShapes

open Fragment

namespace Schema

/-! ## What a schema says -/

/-- How many values an enumeration lists. -/
def valueCount (schema : Schema) (name : String) : Nat :=
  ((schema.findEnum? name).map (·.values.length)).getD 0

/-- How many triples a member of a union is written in: two for its cell, one for its shape, and
two for the cell of each value that it lists. -/
def memberTriples (schema : Schema) : Reference → Nat
  | .toEnum name => 3 + 2 * schema.valueCount name
  | _ => 3

/-- How many blank nodes a member of a union takes. -/
def memberNodes (schema : Schema) : Reference → Nat
  | .toEnum name => 2 + schema.valueCount name
  | _ => 2

/-- **How many triples a range is written in.** -/
def rangeTriples (schema : Schema) : Range → Nat
  | .only (.toEnum name) => 1 + 2 * schema.valueCount name
  | .only _ => 2
  | .anyOf targets => 1 + (targets.map schema.memberTriples).sum

/-- **How many blank nodes a range takes.** -/
def rangeNodes (schema : Schema) : Range → Nat
  | .only (.toEnum name) => schema.valueCount name
  | .only _ => 0
  | .anyOf targets => (targets.map schema.memberNodes).sum

/-- **How many triples a slot is written in**, with the one that leads to its shape. -/
def slotTriples (schema : Schema) (options : Options) (slot : Slot) : Nat :=
  2 + (if options.metadata then 2 + slot.description.isSome.toNat else 0) +
    slot.minCount.isSome.toNat + slot.maxCount.isSome.toNat + slot.default.isSome.toNat +
    slot.pattern.isSome.toNat + slot.minimum.isSome.toNat + slot.maximum.isSome.toNat +
    (slot.range.map schema.rangeTriples).getD 0

/-- **How many blank nodes a slot takes.** -/
def slotNodes (schema : Schema) (slot : Slot) : Nat :=
  1 + (slot.range.map schema.rangeNodes).getD 0

/-- **How many triples a class is written in**, with its slots. -/
def classTriples (schema : Schema) (options : Options) (decl : ClassDecl) : Nat :=
  3 + (if options.closes decl then 3 else 0) +
    (if options.metadata then decl.description.isSome.toNat else 0) +
    (decl.slots.map (schema.slotTriples options)).sum

/-- **How many blank nodes a class takes**, with its slots. -/
def classNodes (schema : Schema) (options : Options) (decl : ClassDecl) : Nat :=
  (if options.closes decl then 1 else 0) + (decl.slots.map schema.slotNodes).sum

end Schema

/-! ## Ranges -/

theorem nodup_collection {items : List Term} (h : ∀ t ∈ items, t.numbers = []) (next : Nat) :
    (collection items next).triples.Nodup := by
  have hs := Spans.leaves h next
  rw [collection_eq_chain]
  refine nodup_chain hs.branches hs.chain.nodup_owned fun f hf => ?_
  obtain ⟨t, -, rfl⟩ := List.mem_map.1 hf
  exact List.nodup_nil

theorem nodup_shape {a : Alternative} (h : a.Ground) (next : Nat) :
    (a.shape next).triples.Nodup := by
  have hown := (spans_shape h next).nodup_owned
  have htarget : (a.target (next + 1)).Branch ∧ (a.target (next + 1)).triples.Nodup := by
    cases a with
    | ofDatatype iri => exact ⟨branch_leaf rfl, List.nodup_nil⟩
    | ofClass iri => exact ⟨branch_leaf rfl, List.nodup_nil⟩
    | ofValues values =>
      exact ⟨(Spans.collection h (next + 1)).branches _ List.mem_cons_self,
        nodup_collection h (next + 1)⟩
  exact nodup_describe (by simpa using htarget.1) hown (by simp) (by simpa using htarget.2)

theorem nodup_shapes {alternatives : List Alternative} (h : ∀ a ∈ alternatives, a.Ground)
    (next : Nat) : ∀ f ∈ Alternative.shapes alternatives next, f.triples.Nodup := by
  induction alternatives generalizing next with
  | nil => simp [Alternative.shapes]
  | cons a more ih =>
    rw [List.forall_mem_cons] at h
    exact List.forall_mem_cons.2 ⟨nodup_shape h.1 next, ih h.2 _⟩

theorem nodup_disjunction {alternatives : List Alternative} (h : ∀ a ∈ alternatives, a.Ground)
    (next : Nat) : (Alternative.disjunction alternatives next).triples.Nodup := by
  have hs := spans_shapes h next
  -- the shapes and their cells, listed in the order of a tree
  refine (chain_perm _ _).nodup_iff.2 ?_
  exact nodup_chain hs.branches hs.chain.nodup_owned (nodup_shapes h next)

theorem Constraint.nodup_edges {c : Constraint} (h : c.Ground) (next : Nat) :
    ∀ e ∈ c.edges next, e.2.triples.Nodup := by
  cases c with
  | ofDatatype p => simp [Constraint.edges, Fragment.leaf]
  | ofClass iri => simp [Constraint.edges, Fragment.leaf]
  | ofValues values => simpa [Constraint.edges] using nodup_collection h next
  | anyOf alternatives => simpa [Constraint.edges] using nodup_disjunction h next

/-- How many triples the shape of an alternative is written in. -/
def Alternative.size : Alternative → Nat
  | .ofValues values => 1 + 2 * values.length
  | _ => 1

theorem Alternative.length_shape (a : Alternative) (next : Nat) :
    (a.shape next).triples.length = a.size := by
  rw [shape, length_describe, weight_cons, weight_nil, Nat.add_zero]
  cases a with
  | ofDatatype iri => rfl
  | ofClass iri => rfl
  | ofValues values => exact congrArg (1 + ·) (length_cells values (next + 1))

theorem Alternative.length_disjunction (alternatives : List Alternative) (next : Nat) :
    (disjunction alternatives next).triples.length =
      (alternatives.map fun a => 2 + a.size).sum := by
  have hshapes : ∀ n, ((shapes alternatives n).flatMap (·.triples)).length =
      (alternatives.map size).sum := by
    induction alternatives with
    | nil => exact fun _ => rfl
    | cons a more ih =>
      intro n
      rw [shapes, List.flatMap_cons, List.length_append, length_shape, ih, List.map_cons,
        List.sum_cons]
  have hcells : (collection ((shapes alternatives next).map (·.node))
      (next + shapesTaken alternatives)).triples.length = 2 * alternatives.length := by
    rw [collection, length_cells, List.length_map, length_shapes]
  rw [disjunction, List.length_append, hshapes, hcells]
  simp [List.sum_map_add, Nat.mul_comm]

theorem Alternative.disjunctionTaken_eq_sum (alternatives : List Alternative) :
    disjunctionTaken alternatives = (alternatives.map fun a => 1 + a.taken).sum := by
  have hshapes : shapesTaken alternatives = (alternatives.map taken).sum := by
    rw [shapesTaken, List.sum_eq_foldr, List.foldr_map]
  rw [disjunctionTaken, hshapes]
  simp [List.sum_map_add, Nat.add_comm]

/-- How many triples the edges of a constraint come with. -/
def Constraint.size : Constraint → Nat
  | .ofDatatype _ => 2
  | .ofClass _ => 2
  | .ofValues values => 1 + 2 * values.length
  | .anyOf alternatives => 1 + (alternatives.map fun a => 2 + a.size).sum

theorem Constraint.weight_edges (c : Constraint) (next : Nat) : weight (c.edges next) = c.size := by
  cases c with
  | ofDatatype p => rfl
  | ofClass iri => rfl
  | ofValues values => exact congrArg (1 + ·) (length_cells values next)
  | anyOf alternatives =>
    exact congrArg (1 + ·) (Alternative.length_disjunction alternatives next)

namespace Schema

variable {schema : Schema} {options : Options} {decl : ClassDecl} {slot : Slot} {order next : Nat}

theorem size_alternative {r : Reference} {a : Alternative} (h : schema.alternative r = .ok a) :
    2 + a.size = schema.memberTriples r ∧ 1 + a.taken = schema.memberNodes r := by
  rcases alternative_ok h with ⟨_, _, rfl, -, rfl⟩ | ⟨_, _, rfl, -, rfl⟩ | ⟨_, _, rfl, hd, -, rfl⟩
  · exact ⟨rfl, rfl⟩
  · exact ⟨rfl, rfl⟩
  · simp only [Alternative.size, Alternative.taken, memberTriples, memberNodes, valueCount, hd,
      List.length_map, Option.map_some, Option.getD_some]
    omega

theorem size_alternatives {targets : List Reference} {found : List Alternative}
    (h : schema.alternatives targets = .ok found) :
    (found.map fun a => 2 + a.size) = targets.map schema.memberTriples ∧
      (found.map fun a => 1 + a.taken) = targets.map schema.memberNodes := by
  have hall := alternatives_ok h
  clear h
  induction hall with
  | nil => exact ⟨rfl, rfl⟩
  | cons ha _ ih =>
    obtain ⟨hsize, htaken⟩ := size_alternative ha
    simp only [List.map_cons, hsize, htaken, ih.1, ih.2, and_self]

/-- **The size of a range** that is understood. -/
theorem size_constraint {range : Range} {c : Constraint} (h : schema.constraint range = .ok c) :
    c.size = schema.rangeTriples range ∧ c.taken = schema.rangeNodes range := by
  rcases constraint_ok h with ⟨_, _, rfl, -, rfl⟩ | ⟨_, _, rfl, -, rfl⟩ | ⟨_, _, rfl, hd, -, rfl⟩ |
    ⟨targets, found, rfl, -, hf, rfl⟩
  · exact ⟨rfl, rfl⟩
  · exact ⟨rfl, rfl⟩
  · simp [Constraint.size, Constraint.taken, rangeTriples, rangeNodes, valueCount, hd]
  · obtain ⟨hsize, htaken⟩ := size_alternatives hf
    simp only [Constraint.size, Constraint.taken, rangeTriples, rangeNodes,
      Alternative.disjunctionTaken_eq_sum, hsize, htaken, and_self]

/-! ## Property shapes -/

end Schema

theorem weight_literalEdge (predicate : Iri) (literal : Option Literal) :
    weight (Slot.literalEdge predicate literal) = literal.isSome.toNat := by
  cases literal <;> rfl

theorem isSome_eachOption {α β ε : Type} {f : α → Except ε β} {o : Option α} {r : Option β}
    (h : eachOption f o = .ok r) : r.isSome = o.isSome := by
  rcases eachOption_eq_ok.1 h with ⟨rfl, rfl⟩ | ⟨a, b, rfl, -, rfl⟩ <;> rfl

namespace Schema

variable {schema : Schema} {options : Options} {decl : ClassDecl} {slot : Slot} {order next : Nat}

theorem size_typing {typing : Typing} (h : slot.typing schema = .ok typing) :
    (typing.constraint.map Constraint.size).getD 0 = (slot.range.map schema.rangeTriples).getD 0 ∧
      typing.taken = (slot.range.map schema.rangeNodes).getD 0 := by
  rw [Typing.taken]
  rcases eachOption_eq_ok.1 (Slot.typing_ok h).1 with ⟨hr, hc⟩ | ⟨range, c, hr, hok, hc⟩
  · rw [hr, hc]
    exact ⟨rfl, rfl⟩
  · rw [hr, hc]
    exact size_constraint hok

theorem weight_propertyEdges {typing : Typing} {values : SlotValues}
    (ht : slot.typing schema = .ok typing) (hv : slot.values typing = .ok values) :
    1 + weight (slot.propertyEdges options order typing values next) =
      schema.slotTriples options slot := by
  obtain ⟨hdefault, hmin, hmax⟩ := Slot.values_ok ht hv
  have hmeta : weight (if options.metadata then slot.metadataEdges order else []) =
      if options.metadata then 2 + slot.description.isSome.toNat else 0 := by
    cases options.metadata with
    | false => rfl
    | true =>
      simp only [if_true, Slot.metadataEdges, weight_append, weight_literalEdge, Option.isSome_map,
        Option.isSome_some, Bool.toNat_true]
      omega
  have hrange : weight ((typing.constraint.map fun c => c.edges next).getD []) =
      (slot.range.map schema.rangeTriples).getD 0 := by
    rw [← (size_typing ht).1]
    cases typing.constraint with
    | none => rfl
    | some c => exact c.weight_edges next
  simp only [Slot.propertyEdges, weight_cons, weight_append, weight_literalEdge, hmeta, hrange,
    Option.isSome_map, isSome_eachOption hdefault, isSome_eachOption hmin, isSome_eachOption hmax,
    slotTriples, Fragment.leaf, List.length_nil]
  omega

/-- **The size of a property shape**, and how many blank nodes it takes. -/
theorem size_propertyShape {f : Fragment}
    (h : (schema.propertyShape options decl slot order next).outcome = .ok f) :
    1 + f.triples.length = schema.slotTriples options slot ∧
      (schema.propertyShape options decl slot order next).taken = next + schema.slotNodes slot := by
  obtain ⟨typing, values, ht, hv, rfl, htaken⟩ := propertyShape_ok h
  refine ⟨?_, ?_⟩
  · rw [length_describe]
    exact weight_propertyEdges ht hv
  · rw [htaken, (size_typing ht).2, slotNodes, Nat.add_assoc]

/-- **A property shape lists no triple twice**, since its predicates differ. -/
theorem nodup_propertyShape {f : Fragment}
    (h : (schema.propertyShape options decl slot order next).outcome = .ok f) :
    f.triples.Nodup := by
  have hown := (spans_propertyShape h).nodup_owned
  obtain ⟨typing, values, ht, hv, rfl, -⟩ := propertyShape_ok h
  have hground := typing_ground ht
  have hspans := Slot.spans_propertyEdges options slot order values hground (next + 1)
  refine nodup_describe (fun e he => hspans.branch_of_mem he) hown ?_ ?_
  · refine List.Nodup.of_map Prod.fst ?_
    rw [List.map_map]
    exact slot.nodup_predicates options order typing values (next + 1)
  · intro e he
    rcases Slot.mem_propertyEdges_cases he with hnil | ⟨c, hc, hmem⟩
    · rw [hnil]
      exact List.nodup_nil
    · exact c.nodup_edges (hground c hc) (next + 1) e hmem

/-! ## Node shapes -/

theorem size_propertyShapes {properties : List Fragment}
    (h : (schema.propertyShapes options decl next).outcome = .ok properties) :
    (properties.map fun p => 1 + p.triples.length) = decl.slots.map (schema.slotTriples options) ∧
      (schema.propertyShapes options decl next).taken =
        next + (decl.slots.map schema.slotNodes).sum := by
  have hslots : decl.slots.zipIdx.map Prod.fst = decl.slots := List.zipIdx_map_fst 0 decl.slots
  have hsize : ∀ (s : Slot × Nat) n p,
      (schema.propertyShape options decl s.1 s.2 n).outcome = .ok p →
        1 + p.triples.length = (schema.slotTriples options ∘ Prod.fst) s :=
    fun _ _ _ hp => (size_propertyShape hp).1
  have htaken : ∀ (s : Slot × Nat) n p,
      (schema.propertyShape options decl s.1 s.2 n).outcome = .ok p →
        (schema.propertyShape options decl s.1 s.2 n).taken =
          n + (schema.slotNodes ∘ Prod.fst) s :=
    fun _ _ _ hp => (size_propertyShape hp).2
  refine ⟨(Run.map_traverse hsize h).trans ?_, (Run.taken_traverse htaken h).trans ?_⟩
  · rw [← List.map_map, hslots]
  · rw [← List.map_map, hslots]

theorem weight_shapeEdges (options : Options) (decl : ClassDecl) (next : Nat) :
    weight (decl.shapeEdges options next) = 3 + (if options.closes decl then 3 else 0) +
      (if options.metadata then decl.description.isSome.toNat else 0) := by
  have hlist : weight (if options.closes decl then
      [(Sh.ignoredProperties, Fragment.collection ignoredProperties next)] else []) =
      if options.closes decl then 3 else 0 := by
    cases options.closes decl with
    | false => rfl
    | true => exact congrArg (1 + ·) (length_cells ignoredProperties next)
  have hmeta : weight (if options.metadata then
      Slot.literalEdge Sh.description (decl.description.map .untyped) else []) =
      if options.metadata then decl.description.isSome.toNat else 0 := by
    cases options.metadata with
    | false => rfl
    | true => exact (weight_literalEdge _ _).trans (congrArg Bool.toNat Option.isSome_map)
  rw [ClassDecl.shapeEdges, weight_append, weight_append, hlist, hmeta]
  rfl

/-- **The size of a node shape**, and how many blank nodes it takes. -/
theorem size_nodeShape {f : Fragment} (h : (schema.nodeShape options decl next).outcome = .ok f) :
    f.triples.length = schema.classTriples options decl ∧
      (schema.nodeShape options decl next).taken = next + schema.classNodes options decl := by
  obtain ⟨properties, hp, rfl⟩ := nodeShape_ok h
  obtain ⟨hsize, htaken⟩ := size_propertyShapes hp
  constructor
  · have hproperties : weight (properties.map fun p => (Sh.property, p)) =
        (decl.slots.map (schema.slotTriples options)).sum := by
      rw [weight, List.map_map, ← hsize]
      rfl
    rw [length_describe, ClassDecl.nodeEdges, weight_append, weight_shapeEdges, hproperties,
      classTriples]
  · rw [taken_nodeShape, htaken, classNodes, ClassDecl.taken, Nat.add_assoc]
    rfl

/-- The edges of a node shape differ: those to its slots lead to different nodes. -/
theorem nodup_nodeEdges {properties : List Fragment}
    (h : (schema.propertyShapes options decl (next + decl.taken options)).outcome =
      .ok properties) :
    ((decl.nodeEdges options next properties).map fun e => (e.1, e.2.node)).Nodup := by
  have hclass : ((decl.shapeEdges options next).map fun e => (e.1, e.2.node)).Nodup := by
    refine List.Nodup.of_map Prod.fst ?_
    rw [List.map_map]
    exact decl.nodup_predicates options next
  have hnodes : (properties.map (·.node)).Nodup := by
    refine nodup_nodes (spans_propertyShapes h).nodup fun f hf => ?_
    obtain ⟨_, _, -, -, hrun⟩ := Run.exists_of_mem_traverse h hf
    obtain ⟨_, _, -, -, rfl, -⟩ := propertyShape_ok hrun
    exact ⟨_, rfl⟩
  have hslots : ((properties.map fun p => (Sh.property, p)).map
      fun e => (e.1, e.2.node)).Nodup := by
    refine List.Nodup.of_map Prod.snd ?_
    rw [List.map_map, List.map_map]
    exact hnodes
  rw [ClassDecl.nodeEdges, List.map_append]
  refine hclass.append hslots fun e hc hs => ?_
  -- no other edge has the predicate of slots
  obtain ⟨e', he', rfl⟩ := List.mem_map.1 hc
  obtain ⟨e'', he'', heq⟩ := List.mem_map.1 hs
  obtain ⟨p, -, rfl⟩ := List.mem_map.1 he''
  exact ClassDecl.predicate_ne_property he' (congrArg Prod.fst heq).symm

/-- **A node shape lists no triple twice.** -/
theorem nodup_nodeShape {f : Fragment} (h : (schema.nodeShape options decl next).outcome = .ok f) :
    f.triples.Nodup := by
  obtain ⟨properties, hp, rfl⟩ := nodeShape_ok h
  have hspans := spans_nodeEdges hp
  have hown : (describe (.iri (options.shapeIri decl))
      (decl.nodeEdges options next properties)).owned.Nodup := by
    rw [owned_describe]
    exact hspans.nodup
  refine nodup_describe (fun e he => hspans.branch_of_mem he) hown (nodup_nodeEdges hp)
    fun e he => ?_
  rcases List.mem_append.1 he with he | he
  · rcases ClassDecl.mem_shapeEdges_cases he with ⟨-, hnil⟩ | ⟨-, rfl⟩
    · rw [hnil]
      exact List.nodup_nil
    · exact nodup_collection (by simp [ignoredProperties]) next
  · obtain ⟨p, hmem, rfl⟩ := List.mem_map.1 he
    obtain ⟨_, _, -, -, hrun⟩ := Run.exists_of_mem_traverse hp hmem
    exact nodup_propertyShape hrun

end Schema

end SchemaShapes
