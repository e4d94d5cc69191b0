import Mathlib.Data.List.Basic

/-!
# Outcomes

Steps that may fail, one after the other, and the fault of the first that does.

* `bind_eq_ok`, `map_eq_ok`: how a sequence of steps succeeds.
* `faultOf`: the fault of an outcome that has one.
* `mapError_eq_ok`, `mapError_map`, `mapError_bind`: outcomes whose faults are told in other words.
* `mapM_eq_some`, `mapM_perm`: steps on the items of a list that all give something.
* `find?_of_nodup`, `find?_map_of_injective`: a look-up by a key that no two items share, and one by
  keys that are renamed.
-/

namespace SchemaShapes

variable {ε α β : Type}

/-- Two steps succeed if the first does, and the second on its result. -/
theorem bind_eq_ok {x : Except ε α} {f : α → Except ε β} {b : β} :
    (x >>= f) = .ok b ↔ ∃ a, x = .ok a ∧ f a = .ok b := by
  cases x with
  | error e =>
    constructor
    · intro h
      cases h
    · rintro ⟨a, h, -⟩
      cases h
  | ok a =>
    constructor
    · intro h
      exact ⟨a, rfl, h⟩
    · rintro ⟨a', h, k⟩
      cases h
      exact k

theorem map_eq_ok {x : Except ε α} {f : α → β} {b : β} :
    x.map f = .ok b ↔ ∃ a, x = .ok a ∧ f a = b := by
  cases x <;> simp [Except.map]

/-- The fault of an outcome that has one. -/
def faultOf : Except ε α → Option ε
  | .ok _ => none
  | .error e => some e

@[simp] theorem faultOf_ok (a : α) : faultOf (.ok a : Except ε α) = none := rfl
@[simp] theorem faultOf_error (e : ε) : faultOf (.error e : Except ε α) = some e := rfl

@[simp] theorem faultOf_map (f : α → β) (x : Except ε α) : faultOf (x.map f) = faultOf x := by
  cases x <;> rfl

theorem faultOf_eq_some {x : Except ε α} {e : ε} : faultOf x = some e ↔ x = .error e := by
  cases x <;> simp

theorem faultOf_eq_none {x : Except ε α} : faultOf x = none ↔ ∃ a, x = .ok a := by
  cases x <;> simp

theorem mapError_eq_ok {ε' : Type} {x : Except ε α} {f : ε → ε'} {a : α} :
    x.mapError f = .ok a ↔ x = .ok a := by
  cases x <;> simp [Except.mapError]

theorem mapError_map {ε' : Type} (x : Except ε α) (f : ε → ε') (g : α → β) :
    (x.map g).mapError f = (x.mapError f).map g := by
  cases x <;> rfl

theorem mapError_bind {ε' : Type} (x : Except ε α) (f : ε → ε') (g : α → Except ε β) :
    (x >>= g).mapError f = x.mapError f >>= fun a => (g a).mapError f := by
  cases x <;> rfl

/-- Items that give something one by one give it all together. -/
theorem mapM_eq_some {as : List α} {f : α → Option β} {g : α → β}
    (h : ∀ a ∈ as, f a = some (g a)) : as.mapM f = some (as.map g) := by
  induction as with
  | nil => rfl
  | cons a as ih =>
    rw [List.mapM_cons, h a (by simp), ih fun b hb => h b (by simp [hb])]
    rfl

/-- **Steps in another order** on what a list was made into give back its items in another order, if
each step gives back its item. -/
theorem mapM_perm {as : List α} {bs : List β} {f : α → β} {step : β → Option α}
    (hperm : bs.Perm (as.map f)) (h : ∀ a ∈ as, step (f a) = some a) :
    ∃ as', bs.mapM step = some as' ∧ as'.Perm as := by
  refine ⟨bs.filterMap step, ?_, ?_⟩
  · have hsome : ∀ b ∈ bs, ∃ a, step b = some a := by
      intro b hb
      obtain ⟨a, ha, rfl⟩ := List.mem_map.1 (hperm.mem_iff.1 hb)
      exact ⟨a, h a ha⟩
    clear hperm
    induction bs with
    | nil => rfl
    | cons b bs ih =>
      obtain ⟨a, ha⟩ := hsome b List.mem_cons_self
      have hmore := ih fun c hc => hsome c (List.mem_cons_of_mem _ hc)
      rw [List.mapM_cons, ha, hmore, List.filterMap_cons_some ha]
      rfl
  · have hsame : ∀ a ∈ as, (step ∘ f) a = some a := h
    have hback : (as.map f).filterMap step = as := by
      rw [List.filterMap_map, List.filterMap_congr hsame, List.filterMap_some]
    have hkeep := hperm.filterMap step
    rwa [hback] at hkeep

/-- **A look-up finds each item**, if no two items have the same key. -/
theorem find?_of_nodup [BEq β] [LawfulBEq β] {key : α → β} {as : List α} (h : (as.map key).Nodup)
    {a : α} (ha : a ∈ as) : as.find? (fun x => key x == key a) = some a := by
  induction as with
  | nil => cases ha
  | cons x as ih =>
    obtain ⟨hnew, hmore⟩ := List.nodup_cons.1 h
    rcases List.mem_cons.1 ha with rfl | ha
    · simp
    · have hne : key x ≠ key a := fun k => hnew (List.mem_map.2 ⟨a, ha, k.symm⟩)
      rw [List.find?_cons_of_neg (by simpa using hne)]
      exact ih hmore ha

/-- **A look-up by renamed keys** finds the same item. -/
theorem find?_map_of_injective [BEq β] [LawfulBEq β] (key : α → β) {f : α → α} {rename : β → β}
    (hrename : Function.Injective rename) (hkey : ∀ a, key (f a) = rename (key a)) (as : List α)
    (b : β) : (as.map f).find? (fun a => key a == rename b) =
      (as.find? fun a => key a == b).map f := by
  have hsame : (fun a => key a == rename b) ∘ f = fun a => key a == b := by
    funext a
    rw [Function.comp_apply, hkey, hrename.beq_eq]
  rw [List.find?_map, hsame]

end SchemaShapes
