import SchemaShapes.Proofs.Rdf.Renaming
import SchemaShapes.Proofs.Shape.Traverse

/-!
# Builders that can start elsewhere

A builder is **movable** if another start changes nothing but the numbers of what it builds, and
those as any renaming does that moves the one start to the other. Two builders are **alike** if they
build the same from the same start, up to a renaming of the numbers that they take.

* `Run.Movable.traverse`: movable builders one after the other are movable.
* `Run.alike_of_forall₂`, `Run.alike_of_perm`: builders that are alike one by one, or that come in
  another order, are alike together.
-/

namespace SchemaShapes.Run

variable {α β γ : Type}

/-- **A movable builder.** What is built from `first` is there from every other start, with its
numbers renamed by whatever moves those that were taken. -/
def Movable (rename : (Nat → Nat) → β → β) (f : Nat → Run β) : Prop :=
  ∀ first b, (f first).outcome = .ok b → ∃ taken, ∀ σ next, Moves σ first next taken →
    (f next).outcome = .ok (rename σ b) ∧ (f next).taken = next + taken

/-- **Alike builders**: from the same start they take the same numbers, and what they write differs
by a renaming of these. -/
def Alike (out : β → List Triple) (f g : Nat → Run β) : Prop :=
  ∀ first b, (f first).outcome = .ok b → ∃ c, (g first).outcome = .ok c ∧
    (g first).taken = (f first).taken ∧ Relabels first (f first).taken (out b) (out c)

namespace Movable

variable {rename : (Nat → Nat) → β → β} {f : Nat → Run β} {first : Nat} {b : β}

/-- A builder that succeeds takes numbers from its start on. -/
theorem le_taken (h : Movable rename f) (hb : (f first).outcome = .ok b) :
    first ≤ (f first).taken := by
  obtain ⟨taken, hmove⟩ := h first b hb
  rw [(hmove id first (Moves.refl first taken)).2]
  omega

/-- A renaming that leaves the numbers that are taken alone leaves what is built alone. -/
theorem rename_eq_self (h : Movable rename f) (hb : (f first).outcome = .ok b) {σ : Nat → Nat}
    (hσ : ∀ k, first ≤ k → k < (f first).taken → σ k = k) : rename σ b = b := by
  obtain ⟨taken, hmove⟩ := h first b hb
  have htaken := (hmove id first (Moves.refl first taken)).2
  have hsame := (hmove σ first (Moves.of_fixed hσ (by omega))).1
  rw [hb, Except.ok.injEq] at hsame
  exact hsame.symm

/-- What is written holds only numbers that are taken. -/
theorem within (h : Movable rename f) (hb : (f first).outcome = .ok b) {out : β → List Triple}
    (hout : ∀ σ b, out (rename σ b) = (out b).map (Triple.rename σ)) :
    Within first (f first).taken (out b) := by
  intro σ hσ
  rw [← hout, h.rename_eq_self hb hσ]

end Movable

/-- **Movable builders one after the other** are movable. -/
theorem Movable.traverse {rename : (Nat → Nat) → β → β} {f : α → Nat → Run β} {as : List α}
    (h : ∀ a ∈ as, Movable rename (f a)) :
    Movable (fun σ => List.map (rename σ)) (traverse f as) := by
  induction as with
  | nil =>
    intro first bs hbs
    cases hbs
    exact ⟨0, fun σ next _ => ⟨rfl, rfl⟩⟩
  | cons a as ih =>
    intro first cs hcs
    obtain ⟨b, bs, hb, hbs, rfl⟩ := traverse_cons_ok.1 hcs
    obtain ⟨t, hmove⟩ := h a List.mem_cons_self first b hb
    have htaken := (hmove id first (Moves.refl first t)).2
    rw [htaken] at hbs
    -- the rest starts where the first builder stops, here and from every other start
    obtain ⟨u, hmore⟩ := ih (fun c hc => h c (List.mem_cons_of_mem _ hc)) _ bs hbs
    refine ⟨t + u, fun σ next hσ => ?_⟩
    obtain ⟨hhead, hheadTaken⟩ := hmove σ next hσ.left
    obtain ⟨htail, htailTaken⟩ := hmore σ (next + t) hσ.right
    rw [← hheadTaken] at htail htailTaken
    refine ⟨traverse_cons_ok.2 ⟨_, _, hhead, htail, rfl⟩, ?_⟩
    rw [taken_traverse_cons hhead, htailTaken, hheadTaken, Nat.add_assoc]

/-! ## Alike builders -/

theorem Alike.refl (out : β → List Triple) (f : Nat → Run β) : Alike out f f :=
  fun first b hb => ⟨b, hb, rfl, Relabels.refl first _ _⟩

theorem Alike.trans {out : β → List Triple} {f g k : Nat → Run β} (h : Alike out f g)
    (h' : Alike out g k) : Alike out f k := by
  intro first b hb
  obtain ⟨c, hc, htaken, hrel⟩ := h first b hb
  obtain ⟨d, hd, htaken', hrel'⟩ := h' first c hc
  rw [htaken] at htaken' hrel'
  exact ⟨d, hd, htaken', hrel.trans hrel'⟩

section Traverse

variable {rename : (Nat → Nat) → β → β} {out : β → List Triple}
  (hout : ∀ σ b, out (rename σ b) = (out b).map (Triple.rename σ))

include hout

/-- What several builders write is renamed as what each of them writes. -/
theorem flatMap_rename (σ : Nat → Nat) (bs : List β) :
    (bs.map (rename σ)).flatMap out = (bs.flatMap out).map (Triple.rename σ) := by
  rw [List.flatMap_map, List.map_flatMap]
  exact congrArg (List.flatMap · bs) (funext fun b => hout σ b)

/-- **Alike builders first, and alike builders behind them.** -/
theorem alike_cons {f : α → Nat → Run β} {g : γ → Nat → Run β} {a : α} {c : γ} {as : List α}
    {cs : List γ} (hf : Movable rename (f a)) (hg : ∀ c ∈ cs, Movable rename (g c))
    (h : Alike out (f a) (g c)) (k : Alike (List.flatMap out) (traverse f as) (traverse g cs)) :
    Alike (List.flatMap out) (traverse f (a :: as)) (traverse g (c :: cs)) := by
  intro first xs hxs
  obtain ⟨b, bs, hb, hbs, rfl⟩ := traverse_cons_ok.1 hxs
  obtain ⟨d, hd, htaken, hrel⟩ := h first b hb
  obtain ⟨ds, hds, htaken', hrel'⟩ := k _ bs hbs
  -- the two parts hold numbers of their own, so that their renamings go together
  have hwithin := hf.within hb hout
  have hwithin' := (Movable.traverse hg).within hds (flatMap_rename hout)
  have hle := hf.le_taken hb
  have hle' := (Movable.traverse hg).le_taken hds
  rw [htaken'] at hwithin' hle'
  rw [← htaken] at hds
  refine ⟨d :: ds, traverse_cons_ok.2 ⟨d, ds, hd, hds, rfl⟩, ?_, ?_⟩
  · rw [taken_traverse_cons hb, taken_traverse_cons hd, htaken, htaken']
  · rw [taken_traverse_cons hb, List.flatMap_cons, List.flatMap_cons]
    exact hrel.append hle hle' hrel' hwithin hwithin'

/-- **Builders that are alike one by one** are alike together. -/
theorem alike_of_forall₂ {f : α → Nat → Run β} {g : γ → Nat → Run β} {as : List α} {cs : List γ}
    (hf : ∀ a ∈ as, Movable rename (f a)) (hg : ∀ c ∈ cs, Movable rename (g c))
    (h : List.Forall₂ (fun a c => Alike out (f a) (g c)) as cs) :
    Alike (List.flatMap out) (traverse f as) (traverse g cs) := by
  induction h with
  | nil =>
    intro first bs hbs
    cases hbs
    exact ⟨[], rfl, rfl, Relabels.refl first _ _⟩
  | cons hac _ ih =>
    have htail := ih (fun a ha => hf a (List.mem_cons_of_mem _ ha))
      fun c hc => hg c (List.mem_cons_of_mem _ hc)
    exact alike_cons hout (hf _ List.mem_cons_self)
      (fun c hc => hg c (List.mem_cons_of_mem _ hc)) hac htail

/-- **Two neighbours that change places.** -/
theorem alike_swap {f : α → Nat → Run β} (a a' : α) {as : List α} (ha : Movable rename (f a))
    (ha' : Movable rename (f a')) (has : ∀ c ∈ as, Movable rename (f c)) :
    Alike (List.flatMap out) (traverse f (a :: a' :: as)) (traverse f (a' :: a :: as)) := by
  intro first xs hxs
  obtain ⟨b, ys, hb, hys, rfl⟩ := traverse_cons_ok.1 hxs
  obtain ⟨b', bs, hb', hbs, rfl⟩ := traverse_cons_ok.1 hys
  obtain ⟨t, hmove⟩ := ha first b hb
  have ht := (hmove id first (Moves.refl first t)).2
  rw [taken_traverse_cons hb, taken_traverse_cons hb']
  rw [ht] at hb' hbs ⊢
  obtain ⟨u, hmove'⟩ := ha' _ b' hb'
  have hu := (hmove' id _ (Moves.refl _ u)).2
  rw [hu] at hbs ⊢
  -- the two exchange their numbers, and what is behind them keeps its own
  obtain ⟨hfirst, hfirstTaken⟩ := hmove' (exchange first t u) first (moves_exchange_right first t u)
  obtain ⟨hsecond, hsecondTaken⟩ := hmove (exchange first t u) _ (moves_exchange_left first t u)
  have hrest := (Movable.traverse has).within hbs (flatMap_rename hout) (exchange first t u)
    fun k hk _ => exchange_of_outside (Or.inr hk)
  have hle := (Movable.traverse has).le_taken hbs
  rw [← hfirstTaken] at hsecond hsecondTaken
  have hstart : (f a (f a' first).taken).taken = first + t + u := by
    rw [hsecondTaken, hfirstTaken]
    omega
  have hbs' : (traverse f as (f a (f a' first).taken).taken).outcome = .ok bs := by
    rw [hstart, hbs]
  refine ⟨_, traverse_cons_ok.2 ⟨_, _, hfirst, traverse_cons_ok.2 ⟨_, _, hsecond, hbs', rfl⟩, rfl⟩,
    ?_, exchange first t u, fun k hk => exchange_of_outside (by omega), ?_⟩
  · rw [taken_traverse_cons hfirst, taken_traverse_cons hsecond, hstart]
  · simp only [List.flatMap_cons, List.map_append, hrest, hout]
    exact List.perm_append_comm_assoc _ _ _

/-- **Builders in another order** are alike. -/
theorem alike_of_perm {f : α → Nat → Run β} {as cs : List α} (h : as.Perm cs)
    (hf : ∀ a ∈ as, Movable rename (f a)) :
    Alike (List.flatMap out) (traverse f as) (traverse f cs) := by
  induction h with
  | nil => exact Alike.refl _ _
  | cons a hperm ih =>
    have htail := fun c hc => hf c (List.mem_cons_of_mem _ hc)
    exact alike_cons hout (hf a List.mem_cons_self) (fun c hc => htail c (hperm.mem_iff.2 hc))
      (Alike.refl _ _) (ih htail)
  | swap a a' as =>
    obtain ⟨ha', hmore⟩ := List.forall_mem_cons.1 hf
    obtain ⟨ha, has⟩ := List.forall_mem_cons.1 hmore
    exact alike_swap hout a' a ha' ha has
  | trans hperm _ ih ih' =>
    exact (ih hf).trans (ih' fun c hc => hf c (hperm.mem_iff.2 hc))

end Traverse

end SchemaShapes.Run
