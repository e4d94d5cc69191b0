import SchemaShapes.Proofs.Outcome
import SchemaShapes.Proofs.Rdf.Collection
import SchemaShapes.Shape.Alternative

/-!
# Disjunctions read back

The shapes of a disjunction come first, each with the values it lists, and then the cells. A graph
that says of their blank nodes what the disjunction says gives the alternatives back in order.

* `Alternative.readings`: what an alternative is read as.
* `edges_shape`, `targets_shape`: the one edge of a shape, and what it asks for.
* `reads_disjunction`: the alternatives, or a refusal if one of the lists is too long.
-/

namespace SchemaShapes

open Fragment

namespace Alternative

/-- **What an alternative is read as**: the values that it lists one by one. -/
def readings : Alternative → List Edge
  | .ofDatatype iri => [(Sh.datatype, .iri iri)]
  | .ofClass iri => [(Sh.classIri, .iri iri)]
  | .ofValues values => values.map fun v => (Rdf.first, v)

/-- The values that an alternative lists are not more than a walk visits. -/
def Fits : Alternative → Prop
  | .ofValues values => values.length ≤ SubjectIndex.maxListLength
  | _ => True

theorem taken_pos (a : Alternative) : 0 < a.taken := by
  cases a <;> simp only [taken] <;> omega

theorem confined_target (a : Alternative) (next : Nat) :
    Confined (a.target (next + 1)).triples (next + 1) (next + a.taken) := by
  cases a with
  | ofDatatype iri => intro t ht; cases ht
  | ofClass iri => intro t ht; cases ht
  | ofValues values =>
    rw [taken, ← Nat.add_assoc]
    exact confined_cells values (next + 1)

theorem triples_shape (a : Alternative) (next : Nat) :
    (a.shape next).triples = [⟨.blank next, a.predicate, (a.target (next + 1)).node⟩] ++
      (a.target (next + 1)).triples := by
  simp [shape, describe]

theorem confined_link (next : Nat) (p : Iri) (o : Term) :
    Confined [⟨.blank next, p, o⟩] next (next + 1) := by
  intro t ht
  rw [List.mem_singleton] at ht
  exact ⟨next, le_rfl, Nat.lt_succ_self next, ht ▸ rfl⟩

theorem confined_shape (a : Alternative) (next : Nat) :
    Confined (a.shape next).triples next (next + a.taken) := by
  have hpos := a.taken_pos
  rw [triples_shape]
  exact (confined_link next _ _).append (a.confined_target next) (Nat.le_succ next) (by omega)

theorem confined_shapes (alternatives : List Alternative) (next : Nat) :
    Confined ((shapes alternatives next).flatMap (·.triples)) next
      (next + shapesTaken alternatives) := by
  induction alternatives generalizing next with
  | nil => intro t ht; cases ht
  | cons a more ih =>
    have htaken : next + shapesTaken (a :: more) = next + a.taken + shapesTaken more :=
      (Nat.add_assoc ..).symm
    rw [shapes, List.flatMap_cons, htaken]
    exact (a.confined_shape next).append (ih (next + a.taken)) (Nat.le_add_right _ _)
      (Nat.le_add_right _ _)

theorem length_shapes (alternatives : List Alternative) (next : Nat) :
    (shapes alternatives next).length = alternatives.length := by
  induction alternatives generalizing next with
  | nil => rfl
  | cons a more ih => rw [shapes, List.length_cons, List.length_cons, ih]

end Alternative

namespace SubjectIndex

open SchemaShapes.Alternative

variable {g : Graph}

/-- **The one edge of a shape.** -/
theorem edges_shape {a : Alternative} {next : Nat}
    (h : g.AgreesOn (a.shape next).triples next (next + a.taken)) :
    (ofGraph g).edges (.blank next) = [(a.predicate, (a.target (next + 1)).node)] := by
  have hpos := a.taken_pos
  rw [triples_shape] at h
  obtain ⟨hlink, -⟩ := h.split (confined_link next _ _) (a.confined_target next) (by omega)
    (by omega)
  refine edges_eq_singleton fun p o => ?_
  rw [hlink next le_rfl (Nat.lt_succ_self next)]
  simp

/-- **What a shape asks for**, unless it lists too many values. -/
theorem targets_shape {a : Alternative} {next : Nat}
    (h : g.AgreesOn (a.shape next).triples next (next + a.taken)) :
    Reads a.Fits ((ofGraph g).targets (a.predicate, (a.target (next + 1)).node)) a.readings := by
  cases a with
  | ofDatatype iri => exact ⟨fun _ => rfl, fun hfit => absurd trivial hfit⟩
  | ofClass iri => exact ⟨fun _ => rfl, fun hfit => absurd trivial hfit⟩
  | ofValues values =>
    rw [triples_shape] at h
    have htarget := (Alternative.ofValues values).confined_target next
    obtain ⟨-, hcells⟩ := h.split (confined_link next _ _) htarget (by omega)
      (by simp only [taken]; omega)
    rw [taken, ← Nat.add_assoc] at hcells
    have hread := reads_collection (lists_of_agreesOn hcells)
    have htargets : (ofGraph g).targets (Sh.inList, (collection values (next + 1)).node) =
        ((ofGraph g).listItems (collection values (next + 1)).node).map fun vs =>
          vs.map fun v => (Rdf.first, v) := by
      have hin : (Sh.inList == Sh.classIri || Sh.inList == Sh.datatype) = false := by decide
      simp [targets, hin]
    refine ⟨fun hfit => ?_, fun hfit => ?_⟩
    · exact htargets.trans (by rw [hread.1 hfit]; rfl)
    · obtain ⟨cell, hcell⟩ := hread.2 hfit
      exact ⟨cell, htargets.trans (by rw [hcell]; rfl)⟩

/-- **What the shapes of a disjunction ask for**, one after the other. -/
theorem reads_shapes {alternatives : List Alternative} {next : Nat}
    (h : g.AgreesOn ((shapes alternatives next).flatMap (·.triples)) next
      (next + shapesTaken alternatives)) :
    Reads (∀ a ∈ alternatives, a.Fits)
      (((((shapes alternatives next).map (·.node)).flatMap (ofGraph g).edges).mapM
        (ofGraph g).targets)) (alternatives.map readings) := by
  induction alternatives generalizing next with
  | nil => exact ⟨fun _ => rfl, fun hfit => absurd (by simp) hfit⟩
  | cons a more ih =>
    have htaken : next + shapesTaken (a :: more) = next + a.taken + shapesTaken more :=
      (Nat.add_assoc ..).symm
    rw [shapes, List.flatMap_cons, htaken] at h
    obtain ⟨hshape, hmore⟩ := h.split (a.confined_shape next) (confined_shapes more _)
      (Nat.le_add_right _ _) (Nat.le_add_right _ _)
    have hnode : (a.shape next).node = .blank next := rfl
    rw [shapes, List.map_cons, List.flatMap_cons, hnode, edges_shape hshape, List.singleton_append,
      List.mapM_cons, List.map_cons]
    have hfirst := targets_shape hshape
    have hrest := ih hmore
    refine ⟨fun hfit => ?_, fun hfit => ?_⟩
    · rw [hfirst.1 (hfit a (by simp)), hrest.1 fun b hb => hfit b (by simp [hb])]
      rfl
    · -- the first shape that lists too many values is where the reading stops
      by_cases ha : a.Fits
      · obtain ⟨cell, hcell⟩ := hrest.2 fun hall => hfit (List.forall_mem_cons.2 ⟨ha, hall⟩)
        exact ⟨cell, by rw [hfirst.1 ha, hcell]; rfl⟩
      · obtain ⟨cell, hcell⟩ := hfirst.2 ha
        exact ⟨cell, by rw [hcell]; rfl⟩

/-- **The alternatives of a disjunction** are read back in order, unless one of its lists is too
long. -/
theorem reads_disjunction {alternatives : List Alternative} {next : Nat}
    (h : g.AgreesOn (disjunction alternatives next).triples next
      (next + disjunctionTaken alternatives)) :
    Reads (alternatives.length ≤ maxListLength ∧ ∀ a ∈ alternatives, a.Fits)
      ((ofGraph g).alternatives (disjunction alternatives next).node)
      (alternatives.flatMap readings) := by
  set members := (shapes alternatives next).map (·.node) with hmembers
  set cell := next + shapesTaken alternatives with hcell
  have hlen : members.length = alternatives.length := by
    rw [hmembers, List.length_map, Alternative.length_shapes]
  have hstop : next + disjunctionTaken alternatives = cell + members.length := by
    rw [hlen, hcell, disjunctionTaken, Nat.add_assoc]
  rw [hstop] at h
  have htriples : (disjunction alternatives next).triples =
      cells members cell ++ (shapes alternatives next).flatMap (·.triples) := rfl
  rw [htriples] at h
  -- the shapes have the first numbers, and the cells those behind them
  obtain ⟨hshapes, hcells⟩ := (h.perm List.perm_append_comm).split
    (confined_shapes alternatives next) (confined_cells members cell) (Nat.le_add_right _ _)
    (Nat.le_add_right _ _)
  have hlist := reads_collection (lists_of_agreesOn hcells)
  have hread := reads_shapes hshapes
  have hnode : (disjunction alternatives next).node = (collection members cell).node := rfl
  rw [hlen] at hlist
  rw [hnode, SubjectIndex.alternatives]
  refine ⟨fun hfit => ?_, fun hfit => ?_⟩
  · rw [hlist.1 hfit.1]
    refine (congrArg (· >>= fun found => pure found.flatten) (hread.1 hfit.2)).trans ?_
    rw [List.flatMap_def]
    rfl
  · by_cases hl : alternatives.length ≤ maxListLength
    · obtain ⟨at', hat⟩ := hread.2 fun hall => hfit ⟨hl, hall⟩
      refine ⟨at', ?_⟩
      rw [hlist.1 hl]
      exact congrArg (· >>= fun found => pure found.flatten) hat
    · obtain ⟨at', hat⟩ := hlist.2 hl
      exact ⟨at', by rw [hat]; rfl⟩

end SubjectIndex

end SchemaShapes
