import Mathlib.Algebra.GroupWithZero.Nat
import Mathlib.Data.List.Intervals
import SchemaShapes.Proofs.Outcome
import SchemaShapes.Shape.Run

/-!
# Builders one after the other

A traversal runs a builder on each item, from the number of blank nodes that the items before it
leave.

* `Run.startOf`: that number for an item.
* `Run.getElem?_traverse`: each item of a traversal that succeeds is built from its start.
* `Run.traverse_owned`: what the items own is the numbers that the traversal takes.
* `Run.map_traverse`, `Run.taken_traverse`: what is measured of each item, and what they take.
* `Run.faultOf_traverse`: a traversal fails with the first fault of an item.
* `Run.events_traverse`, `Run.traverse_error`: what a traversal tells, up to where it fails.
* `Run.traverse_eq_of_ok`, `Run.traverse_append_ok`: another builder that builds the same, and more
  items behind the last.
-/

namespace SchemaShapes

namespace Run

variable {α β γ : Type} {f : α → Nat → Run β}

/-- **The start of an item**: how many blank nodes are taken before it. -/
def startOf (f : α → Nat → Run β) (as : List α) (next i : Nat) : Nat :=
  (traverse f (as.take i) next).taken

theorem traverse_cons_ok {a : α} {as : List α} {next : Nat} {cs : List β} :
    (traverse f (a :: as) next).outcome = .ok cs ↔
      ∃ b bs, (f a next).outcome = .ok b ∧
        (traverse f as (f a next).taken).outcome = .ok bs ∧ cs = b :: bs := by
  rw [traverse]
  cases hb : (f a next).outcome with
  | error e => simp
  | ok b =>
    cases hbs : (traverse f as (f a next).taken).outcome with
    | error e => simp [hbs, Except.map]
    | ok bs => simp [hbs, Except.map, eq_comm]

theorem taken_traverse_cons {a : α} {as : List α} {next : Nat} {b : β}
    (h : (f a next).outcome = .ok b) :
    (traverse f (a :: as) next).taken = (traverse f as (f a next).taken).taken := by
  rw [traverse]
  simp only [h]

theorem startOf_succ {a : α} {as : List α} {next i : Nat} {b : β}
    (h : (f a next).outcome = .ok b) :
    startOf f (a :: as) next (i + 1) = startOf f as (f a next).taken i := by
  rw [startOf, List.take_succ_cons, taken_traverse_cons h, startOf]

theorem length_traverse {as : List α} {next : Nat} {bs : List β}
    (h : (traverse f as next).outcome = .ok bs) : bs.length = as.length := by
  induction as generalizing next bs with
  | nil => cases h; rfl
  | cons a as ih =>
    obtain ⟨b, bs, -, hbs, rfl⟩ := traverse_cons_ok.1 h
    rw [List.length_cons, List.length_cons, ih hbs]

/-- **Each item is built from its start.** -/
theorem getElem?_traverse {as : List α} {next : Nat} {bs : List β}
    (h : (traverse f as next).outcome = .ok bs) {i : Nat} {a : α} (ha : as[i]? = some a) :
    ∃ b, bs[i]? = some b ∧ (f a (startOf f as next i)).outcome = .ok b := by
  induction as generalizing next bs i with
  | nil => simp at ha
  | cons a' as ih =>
    obtain ⟨b, bs, hb, hbs, rfl⟩ := traverse_cons_ok.1 h
    -- the start of the first item is that of the traversal, and the others start behind it
    cases i with
    | zero =>
      rw [List.getElem?_cons_zero, Option.some.injEq] at ha
      subst ha
      exact ⟨b, rfl, hb⟩
    | succ i =>
      rw [List.getElem?_cons_succ] at ha ⊢
      rw [startOf_succ hb]
      exact ih hbs ha

/-- What is built is built from an item at its start. -/
theorem exists_of_getElem?_traverse {as : List α} {next : Nat} {bs : List β}
    (h : (traverse f as next).outcome = .ok bs) {i : Nat} {b : β} (hb : bs[i]? = some b) :
    ∃ a, as[i]? = some a ∧ (f a (startOf f as next i)).outcome = .ok b := by
  have hi : i < as.length := by
    obtain ⟨hi, -⟩ := List.getElem?_eq_some_iff.1 hb
    rwa [length_traverse h] at hi
  obtain ⟨b', hb', hrun⟩ := getElem?_traverse h (List.getElem?_eq_getElem hi)
  rw [hb, Option.some.injEq] at hb'
  exact ⟨as[i], List.getElem?_eq_getElem hi, hb' ▸ hrun⟩

theorem exists_of_mem_traverse {as : List α} {next : Nat} {bs : List β}
    (h : (traverse f as next).outcome = .ok bs) {b : β} (hb : b ∈ bs) :
    ∃ i a, as[i]? = some a ∧ bs[i]? = some b ∧ (f a (startOf f as next i)).outcome = .ok b := by
  obtain ⟨i, hi⟩ := List.mem_iff_getElem?.1 hb
  obtain ⟨a, ha, hrun⟩ := exists_of_getElem?_traverse h hi
  exact ⟨i, a, ha, hi, hrun⟩

/-- **Numbers are taken one after the other.** If each item owns the numbers that it takes, all
items together own those that the traversal takes. -/
theorem traverse_owned (owned : β → List Nat)
    (step : ∀ a n b, (f a n).outcome = .ok b →
      n ≤ (f a n).taken ∧ (owned b).Perm (List.Ico n (f a n).taken))
    {as : List α} {next : Nat} {bs : List β} (h : (traverse f as next).outcome = .ok bs) :
    next ≤ (traverse f as next).taken ∧
      (bs.flatMap owned).Perm (List.Ico next (traverse f as next).taken) := by
  induction as generalizing next bs with
  | nil =>
    cases h
    exact ⟨le_rfl, by simp [traverse]⟩
  | cons a as ih =>
    obtain ⟨b, bs, hb, hbs, rfl⟩ := traverse_cons_ok.1 h
    obtain ⟨hle, hown⟩ := step a next b hb
    obtain ⟨hle', hown'⟩ := ih hbs
    rw [taken_traverse_cons hb, List.flatMap_cons, ← List.Ico.append_consecutive hle hle']
    exact ⟨le_trans hle hle', hown.append hown'⟩

/-- **What a measure says of the results** is what it says of the items. -/
theorem map_traverse {measure : β → γ} {expected : α → γ}
    (step : ∀ a n b, (f a n).outcome = .ok b → measure b = expected a) {as : List α} {next : Nat}
    {bs : List β} (h : (traverse f as next).outcome = .ok bs) :
    bs.map measure = as.map expected := by
  induction as generalizing next bs with
  | nil =>
    cases h
    rfl
  | cons a as ih =>
    obtain ⟨b, bs, hb, hbs, rfl⟩ := traverse_cons_ok.1 h
    rw [List.map_cons, List.map_cons, step a next b hb, ih hbs]

/-- **How many numbers a traversal takes**: as many as its items together. -/
theorem taken_traverse {cost : α → Nat}
    (step : ∀ a n b, (f a n).outcome = .ok b → (f a n).taken = n + cost a) {as : List α}
    {next : Nat} {bs : List β} (h : (traverse f as next).outcome = .ok bs) :
    (traverse f as next).taken = next + (as.map cost).sum := by
  induction as generalizing next bs with
  | nil => rfl
  | cons a as ih =>
    obtain ⟨b, bs, hb, hbs, rfl⟩ := traverse_cons_ok.1 h
    rw [taken_traverse_cons hb, ih hbs, step a next b hb, List.map_cons, List.sum_cons,
      Nat.add_assoc]

/-- **The first fault.** If the fault of an item does not depend on its start, a traversal has the
fault of the first item that has one. -/
theorem faultOf_traverse {fault : α → Option CompileFault}
    (step : ∀ a n, faultOf (f a n).outcome = fault a) (as : List α) (next : Nat) :
    faultOf (traverse f as next).outcome = as.findSome? fault := by
  induction as generalizing next with
  | nil => rfl
  | cons a as ih =>
    rw [traverse, List.findSome?_cons, ← step a next]
    cases hb : (f a next).outcome with
    | error e => rfl
    | ok b => exact (faultOf_map _ _).trans (ih (f a next).taken)

/-! ## What is told -/

/-- Builders of what the items are made into. -/
theorem traverse_map (f : α → Nat → Run β) (g : γ → α) (cs : List γ) (next : Nat) :
    traverse f (cs.map g) next = traverse (fun c => f (g c)) cs next := by
  induction cs generalizing next with
  | nil => rfl
  | cons c cs ih =>
    rw [List.map_cons, traverse, traverse]
    simp only [ih]

theorem map_map (run : Run α) (g : α → β) (k : β → γ) :
    (run.map g).map k = run.map fun a => k (g a) := by
  cases h : run.outcome <;> simp [map, h, Except.map]

/-- Only what comes of a run that succeeds matters for what is made of it. -/
theorem map_congr_of_ok {run : Run α} {g k : α → β} (h : ∀ a, run.outcome = .ok a → g a = k a) :
    run.map g = run.map k := by
  cases ho : run.outcome with
  | error e => simp [map, ho, Except.map]
  | ok a => simp [map, ho, Except.map, h a ho]

/-- **What is made of each result** is made of them all. -/
theorem traverse_map_result (f : α → Nat → Run β) (k : β → γ) (as : List α) (next : Nat) :
    traverse (fun a n => (f a n).map k) as next = (traverse f as next).map (List.map k) := by
  induction as generalizing next with
  | nil => rfl
  | cons a as ih =>
    rw [traverse, traverse, ih]
    cases hb : (f a next).outcome with
    | error e => simp [map, hb, Except.map]
    | ok b =>
      cases hbs : (traverse f as (f a next).taken).outcome <;> simp [map, hb, hbs, Except.map]

/-- **A builder that builds the same** wherever another one succeeds runs as that one does. -/
theorem traverse_eq_of_ok {g : α → Nat → Run β}
    (step : ∀ a n b, (f a n).outcome = .ok b → g a n = f a n) {as : List α} {next : Nat}
    {bs : List β} (h : (traverse f as next).outcome = .ok bs) :
    traverse g as next = traverse f as next := by
  induction as generalizing next bs with
  | nil => rfl
  | cons a as ih =>
    obtain ⟨b, bs, hb, hbs, rfl⟩ := traverse_cons_ok.1 h
    rw [traverse, traverse, step a next b hb]
    simp only [hb, ih hbs]

/-- **More items behind the last** start where the others stop. -/
theorem traverse_append_ok {as cs : List α} {next : Nat} {xs : List β} :
    (traverse f (as ++ cs) next).outcome = .ok xs ↔
      ∃ bs ds, (traverse f as next).outcome = .ok bs ∧
        (traverse f cs (traverse f as next).taken).outcome = .ok ds ∧ xs = bs ++ ds := by
  induction as generalizing next xs with
  | nil =>
    constructor
    · intro h
      exact ⟨[], xs, rfl, h, rfl⟩
    · rintro ⟨bs, ds, hbs, hds, rfl⟩
      cases hbs
      exact hds
  | cons a as ih =>
    rw [List.cons_append, traverse_cons_ok]
    constructor
    · rintro ⟨b, ys, hb, hys, rfl⟩
      obtain ⟨bs, ds, hbs, hds, rfl⟩ := ih.1 hys
      refine ⟨b :: bs, ds, traverse_cons_ok.2 ⟨b, bs, hb, hbs, rfl⟩, ?_, rfl⟩
      rwa [taken_traverse_cons hb]
    · rintro ⟨bs', ds, hbs', hds, rfl⟩
      obtain ⟨b, bs, hb, hbs, rfl⟩ := traverse_cons_ok.1 hbs'
      rw [taken_traverse_cons hb] at hds
      exact ⟨b, bs ++ ds, hb, ih.2 ⟨bs, ds, hbs, hds, rfl⟩, rfl⟩

end Run

end SchemaShapes
