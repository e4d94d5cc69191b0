import SchemaShapes.Proofs.Rdf.Embedding
import SchemaShapes.Proofs.Rdf.Index

/-!
# Collections read back

The cells of a collection are blank nodes that nothing else describes. Then the walk along it gives
its items in order, or is refused if there are more of them than a walk visits.

* `lists_of_agreesOn`: a graph that says of the cells what the collection says has its links.
* `listItems_collection`: the walk along these links.
-/

namespace SchemaShapes

open Fragment

/-- **Read, or refused as too long.** -/
def Reads {α : Type} (fits : Prop) (outcome : Except ListFault α) (answer : α) : Prop :=
  (fits → outcome = .ok answer) ∧ (¬ fits → ∃ cell, outcome = .error (.tooLong cell))

theorem confined_cells (items : List Term) (next : Nat) :
    Confined (cells items next) next (next + items.length) := by
  induction items generalizing next with
  | nil => intro t ht; cases ht
  | cons item items ih =>
    intro t ht
    rw [cells_cons, List.mem_cons, List.mem_cons] at ht
    rcases ht with rfl | rfl | ht
    · exact ⟨next, by simp, by simp, rfl⟩
    · exact ⟨next, by simp, by simp, rfl⟩
    · obtain ⟨n, h1, h2, h3⟩ := ih (next + 1) t ht
      rw [List.length_cons]
      exact ⟨n, by omega, by omega, h3⟩

theorem confined_pair (next : Nat) (item rest : Term) :
    Confined [⟨.blank next, Rdf.first, item⟩, ⟨.blank next, Rdf.rest, rest⟩] next (next + 1) := by
  intro t ht
  simp only [List.mem_cons, List.not_mem_nil, or_false] at ht
  rcases ht with rfl | rfl <;> exact ⟨next, le_rfl, Nat.lt_succ_self next, rfl⟩

namespace SubjectIndex

/-- **The links of a collection**: each cell has its item and the next cell. -/
def Lists (index : SubjectIndex) : List Term → Nat → Prop
  | [], _ => True
  | item :: items, cell =>
    index.object? (.blank cell) Rdf.first = some item ∧
      index.object? (.blank cell) Rdf.rest = some (collection items (cell + 1)).node ∧
        Lists index items (cell + 1)

/-- A graph that says of the cells what the collection says has the links of the collection. -/
theorem lists_of_agreesOn {g : Graph} {items : List Term} {next : Nat}
    (h : g.AgreesOn (cells items next) next (next + items.length)) :
    (ofGraph g).Lists items next := by
  induction items generalizing next with
  | nil => trivial
  | cons item items ih =>
    have hstop : next + (items.length + 1) = next + 1 + items.length := by omega
    rw [List.length_cons, hstop] at h
    have hsplit : cells (item :: items) next =
        [⟨.blank next, Rdf.first, item⟩,
          ⟨.blank next, Rdf.rest, (collection items (next + 1)).node⟩] ++
            cells items (next + 1) := cells_cons item items next
    rw [hsplit] at h
    -- the first cell and the cells behind it say nothing of each other
    obtain ⟨hcell, hmore⟩ := h.split (confined_pair next item _) (confined_cells items (next + 1))
      (Nat.le_succ next) (Nat.le_add_right _ _)
    have hne : Rdf.first ≠ Rdf.rest := by decide
    refine ⟨object?_eq_some fun o => ?_, object?_eq_some fun o => ?_, ih hmore⟩
    · rw [hcell next le_rfl (Nat.lt_succ_self next)]
      simp [hne]
    · rw [hcell next le_rfl (Nat.lt_succ_self next)]
      simp [hne.symm]

theorem walk_nil (index : SubjectIndex) (budget : Nat) (visited : Std.HashSet Term)
    (items : List Term) : index.walk budget (.iri Rdf.nil) visited items = .ok items.reverse := by
  cases budget <;> rw [walk, if_pos rfl]

theorem walk_zero (index : SubjectIndex) (n : Nat) (visited : Std.HashSet Term)
    (items : List Term) : index.walk 0 (.blank n) visited items = .error (.tooLong (.blank n)) := by
  rw [walk, if_neg (by simp)]

/-- One step of a walk, at a cell that it has not visited. -/
theorem walk_succ {index : SubjectIndex} {n : Nat} {visited : Std.HashSet Term}
    {item next : Term} (hv : Term.blank n ∉ visited)
    (hf : index.object? (.blank n) Rdf.first = some item)
    (hr : index.object? (.blank n) Rdf.rest = some next) (budget : Nat) (items : List Term) :
    index.walk (budget + 1) (.blank n) visited items =
      index.walk budget next (visited.insert (.blank n)) (item :: items) := by
  rw [walk, if_neg (by simp)]
  simp [hv, hf, hr]

/-- **The walk along a collection** visits its cells in order, and stops where it may visit no
more. -/
theorem walk_collection {index : SubjectIndex} {items : List Term} {next : Nat}
    (h : index.Lists items next) {budget : Nat} {visited : Std.HashSet Term} (before : List Term)
    (hv : ∀ n, next ≤ n → Term.blank n ∉ visited) :
    index.walk budget (collection items next).node visited before =
      if items.length ≤ budget then .ok (before.reverse ++ items)
      else .error (.tooLong (.blank (next + budget))) := by
  induction items generalizing next budget visited before with
  | nil =>
    have hnode : (collection [] next).node = .iri Rdf.nil := by simp [collection, cellOrNil]
    rw [hnode, walk_nil, List.length_nil, if_pos (Nat.zero_le _), List.append_nil]
  | cons item items ih =>
    obtain ⟨hf, hr, hmore⟩ := h
    have hnode : (collection (item :: items) next).node = .blank next := by
      simp [collection, cellOrNil]
    rw [hnode, List.length_cons]
    -- a full walk is refused at the cell, whatever the cell holds
    cases budget with
    | zero => rw [walk_zero, if_neg (by omega), Nat.add_zero]
    | succ budget =>
      have hv' : ∀ n, next + 1 ≤ n → Term.blank n ∉ visited.insert (.blank next) := by
        intro n hn hin
        rcases Std.HashSet.mem_insert.1 hin with heq | hin
        · rw [beq_iff_eq, Term.blank.injEq] at heq
          omega
        · exact hv n (by omega) hin
      rw [walk_succ (hv next le_rfl) hf hr, ih hmore (item :: before) hv']
      by_cases hfit : items.length ≤ budget
      · rw [if_pos hfit, if_pos (by omega), List.reverse_cons, List.append_assoc,
          List.singleton_append]
      · rw [if_neg hfit, if_neg (by omega), Nat.add_assoc, Nat.add_comm 1 budget]

/-- **The items of a collection** are read back in order, or refused at the cell behind the last
that a walk visits. -/
theorem listItems_collection {index : SubjectIndex} {items : List Term} {next : Nat}
    (h : index.Lists items next) :
    index.listItems (collection items next).node =
      if items.length ≤ maxListLength then .ok items
      else .error (.tooLong (.blank (next + maxListLength))) := by
  rw [listItems, walk_collection h [] (fun n _ => Std.HashSet.not_mem_empty), List.reverse_nil,
    List.nil_append]

theorem reads_collection {index : SubjectIndex} {items : List Term} {next : Nat}
    (h : index.Lists items next) :
    Reads (items.length ≤ maxListLength) (index.listItems (collection items next).node) items := by
  rw [listItems_collection h]
  exact ⟨fun hfit => if_pos hfit, fun hfit => ⟨_, if_neg hfit⟩⟩

end SubjectIndex

end SchemaShapes
