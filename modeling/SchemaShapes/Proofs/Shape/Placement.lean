import SchemaShapes.Proofs.Shape.Layout
import SchemaShapes.Proofs.Shape.Movable

/-!
# Where shapes are placed

What a shape says does not depend on the numbers of its blank nodes: started elsewhere, every
builder builds the same with its numbers moved.

* `rename_disjunction`, `Constraint.rename_edges`: what a range asks for moves with its numbers.
* `Schema.movable_propertyShape`, `Schema.movable_nodeShape`: the builders of shapes are movable.
-/

namespace SchemaShapes

open Fragment

variable {σ : Nat → Nat} {first next : Nat}

/-! ## Ranges -/

theorem rename_target {a : Alternative} (ha : a.Ground) (h : Moves σ first next a.taken) :
    (a.target (first + 1)).rename σ = a.target (next + 1) := by
  cases a with
  | ofDatatype iri => rfl
  | ofClass iri => rfl
  | ofValues values =>
    have hcells : Moves σ (first + 1) (next + 1) values.length := h.right
    rw [Alternative.target, rename_collection hcells, rename_terms ha]
    rfl

/-- **The shape of an alternative** moves with its numbers. -/
theorem rename_shape {a : Alternative} (ha : a.Ground) (h : Moves σ first next a.taken) :
    (a.shape first).rename σ = a.shape next := by
  have hnode : Term.rename σ (.blank first) = .blank next :=
    congrArg Term.blank (h.head a.taken_pos)
  rw [Alternative.shape, rename_describe, hnode, renameEdges, List.map_singleton,
    rename_target ha h]
  rfl

theorem rename_shapes {alternatives : List Alternative} (hall : ∀ a ∈ alternatives, a.Ground)
    (h : Moves σ first next (Alternative.shapesTaken alternatives)) :
    (Alternative.shapes alternatives first).map (Fragment.rename σ) =
      Alternative.shapes alternatives next := by
  induction alternatives generalizing first next with
  | nil => rfl
  | cons a more ih =>
    obtain ⟨ha, hmore⟩ := List.forall_mem_cons.1 hall
    have hmoves : Moves σ first next (a.taken + Alternative.shapesTaken more) := h
    rw [Alternative.shapes, List.map_cons, rename_shape ha hmoves.left, ih hmore hmoves.right]
    rfl

/-- **A disjunction** moves with its numbers. -/
theorem rename_disjunction {alternatives : List Alternative} (hall : ∀ a ∈ alternatives, a.Ground)
    (h : Moves σ first next (Alternative.disjunctionTaken alternatives)) :
    (Alternative.disjunction alternatives first).rename σ =
      Alternative.disjunction alternatives next := by
  have hshapes := rename_shapes hall h.left
  have hcells : Moves σ (first + Alternative.shapesTaken alternatives)
      (next + Alternative.shapesTaken alternatives)
      ((Alternative.shapes alternatives first).map (·.node)).length := by
    rw [List.length_map, Alternative.length_shapes]
    exact h.right
  -- the cells hold the nodes of the shapes, and both move
  have hlist := rename_collection hcells
  have hnodes : ((Alternative.shapes alternatives first).map (·.node)).map (Term.rename σ) =
      (Alternative.shapes alternatives next).map (·.node) := by
    rw [← hshapes, List.map_map, List.map_map]
    rfl
  have htriples : ((Alternative.shapes alternatives first).flatMap (·.triples)).map
      (Triple.rename σ) = (Alternative.shapes alternatives next).flatMap (·.triples) := by
    rw [← hshapes, List.map_flatMap, List.flatMap_map]
    rfl
  rw [hnodes] at hlist
  rw [Alternative.disjunction, Alternative.disjunction, ← hlist, Fragment.rename,
    List.map_append, htriples]
  rfl

/-- **What a constraint says** moves with its numbers. -/
theorem Constraint.rename_edges {c : Constraint} (hc : c.Ground) (h : Moves σ first next c.taken) :
    renameEdges σ (c.edges first) = c.edges next := by
  cases c with
  | ofDatatype p => rfl
  | ofClass iri => rfl
  | ofValues values =>
    rw [edges, renameEdges, List.map_singleton, rename_collection h, rename_terms hc]
    rfl
  | anyOf alternatives =>
    rw [edges, renameEdges, List.map_singleton, rename_disjunction hc h]
    rfl

/-! ## Property shapes -/

theorem Slot.rename_literalEdge (predicate : Iri) (literal : Option Literal) :
    renameEdges σ (Slot.literalEdge predicate literal) = Slot.literalEdge predicate literal := by
  cases literal <;> rfl

theorem Slot.rename_metadataEdges (slot : Slot) (order : Nat) :
    renameEdges σ (slot.metadataEdges order) = slot.metadataEdges order := by
  simp only [metadataEdges, renameEdges_append, rename_literalEdge]

/-- **What a property shape says** moves with its numbers. -/
theorem Slot.rename_propertyEdges (options : Options) (slot : Slot) (order : Nat) {typing : Typing}
    (values : SlotValues) (hc : ∀ c, typing.constraint = some c → c.Ground)
    (h : Moves σ first next typing.taken) :
    renameEdges σ (slot.propertyEdges options order typing values first) =
      slot.propertyEdges options order typing values next := by
  have hmeta : renameEdges σ (if options.metadata then slot.metadataEdges order else []) =
      if options.metadata then slot.metadataEdges order else [] := by
    cases options.metadata with
    | false => rfl
    | true => exact rename_metadataEdges slot order
  have hrange : renameEdges σ ((typing.constraint.map fun c => c.edges first).getD []) =
      (typing.constraint.map fun c => c.edges next).getD [] := by
    rw [Typing.taken] at h
    cases hk : typing.constraint with
    | none => rfl
    | some c =>
      rw [hk] at h
      exact Constraint.rename_edges (hc c hk) h
  have hpath : ∀ es, renameEdges σ ((Sh.path, Fragment.leaf (.iri slot.path)) :: es) =
      (Sh.path, Fragment.leaf (.iri slot.path)) :: renameEdges σ es := fun es => rfl
  simp only [propertyEdges, hpath, renameEdges_append, rename_literalEdge, hmeta, hrange]

namespace Schema

variable (schema : Schema) (options : Options) (decl : ClassDecl)

/-- A property shape is built if its slot is understood and its values can be written. -/
theorem propertyShape_of_ok {slot : Slot} {typing : Typing} {values : SlotValues}
    (ht : slot.typing schema = .ok typing) (hv : slot.values typing = .ok values)
    (order next : Nat) :
    (schema.propertyShape options decl slot order next).outcome = .ok
        (.describe (.blank next) (slot.propertyEdges options order typing values (next + 1))) ∧
      (schema.propertyShape options decl slot order next).taken = next + (1 + typing.taken) := by
  simp [propertyShape, Run.after, ht, hv, Nat.add_assoc]

/-- **Property shapes** can be built from every start. -/
theorem movable_propertyShape (slot : Slot) (order : Nat) :
    Run.Movable Fragment.rename (schema.propertyShape options decl slot order) := by
  intro first f hf
  obtain ⟨typing, values, ht, hv, rfl, -⟩ := propertyShape_ok hf
  refine ⟨1 + typing.taken, fun σ next h => ?_⟩
  obtain ⟨hbuilt, htaken⟩ := propertyShape_of_ok schema options decl ht hv order next
  refine ⟨?_, htaken⟩
  have hnode : Term.rename σ (.blank first) = .blank next :=
    congrArg Term.blank (h.head (by omega))
  rw [hbuilt, rename_describe, hnode,
    Slot.rename_propertyEdges options slot order values (typing_ground ht) h.right]

theorem movable_propertyShapes :
    Run.Movable (fun σ => List.map (Fragment.rename σ)) (schema.propertyShapes options decl) :=
  Run.Movable.traverse fun s _ => schema.movable_propertyShape options decl s.1 s.2

/-! ## Node shapes -/

theorem rename_shapeEdges (h : Moves σ first next (decl.taken options)) :
    renameEdges σ (decl.shapeEdges options first) = decl.shapeEdges options next := by
  have hlist : renameEdges σ (if options.closes decl then
      [(Sh.ignoredProperties, Fragment.collection ignoredProperties first)] else []) =
      if options.closes decl then
        [(Sh.ignoredProperties, Fragment.collection ignoredProperties next)] else [] := by
    rw [ClassDecl.taken] at h
    cases hk : options.closes decl with
    | false => rfl
    | true =>
      rw [hk] at h
      rw [if_pos rfl, if_pos rfl, renameEdges, List.map_singleton, rename_collection h]
      rfl
  have hmeta : renameEdges σ (if options.metadata then
      Slot.literalEdge Sh.description (decl.description.map .untyped) else []) =
      if options.metadata then
        Slot.literalEdge Sh.description (decl.description.map .untyped) else [] := by
    cases options.metadata with
    | false => rfl
    | true => exact Slot.rename_literalEdge _ _
  rw [ClassDecl.shapeEdges, renameEdges_append, renameEdges_append, hlist, hmeta]
  rfl

/-- **Node shapes** can be built from every start. -/
theorem movable_nodeShape : Run.Movable Fragment.rename (schema.nodeShape options decl) := by
  intro first f hf
  obtain ⟨properties, hp, rfl⟩ := nodeShape_ok hf
  obtain ⟨taken, hmove⟩ := schema.movable_propertyShapes options decl _ properties hp
  refine ⟨decl.taken options + taken, fun σ next h => ?_⟩
  obtain ⟨hbuilt, htaken⟩ := hmove σ _ h.right
  refine ⟨map_eq_ok.2 ⟨_, hbuilt, ?_⟩, ?_⟩
  · rw [rename_describe, ClassDecl.nodeEdges, renameEdges_append,
      rename_shapeEdges options decl h.left, renameEdges_map]
    rfl
  · rw [taken_nodeShape, htaken, Nat.add_assoc]

end Schema

end SchemaShapes
