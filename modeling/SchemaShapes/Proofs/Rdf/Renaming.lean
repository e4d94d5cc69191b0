import Mathlib.Logic.Equiv.Basic
import SchemaShapes.Proofs.Rdf.Tree
import SchemaShapes.Rdf.Graph

/-!
# Blank nodes renamed

The number of a blank node has no meaning of its own: graphs that differ only in their numbers are
the same but for a **renaming**. What a builder hands on depends on the numbers it starts from in
this way only, so a renaming that moves the one start to the other moves the whole of it.

* `Moves`: a renaming that takes consecutive numbers to consecutive numbers.
* `rename_collection`: a collection moves with its numbers.
* `Relabels`: triples that are renamed between two bounds.
* `Relabels.append`: neighbours that are renamed each for itself.
* `exchange`: the renaming of neighbours that change places.
-/

namespace SchemaShapes

/-- A term with its number renamed. -/
def Term.rename (σ : Nat → Nat) : Term → Term
  | .blank n => .blank (σ n)
  | t => t

/-- A triple with its numbers renamed. -/
def Triple.rename (σ : Nat → Nat) (t : Triple) : Triple :=
  ⟨t.subject.rename σ, t.predicate, t.object.rename σ⟩

/-- **A graph with its blank nodes renamed.** -/
def Graph.rename (σ : Nat → Nat) (g : Graph) : Graph :=
  Graph.ofList (g.toList.map (Triple.rename σ))

namespace Fragment

/-- A fragment with its numbers renamed. -/
def rename (σ : Nat → Nat) (f : Fragment) : Fragment :=
  ⟨f.node.rename σ, f.triples.map (Triple.rename σ)⟩

/-- Edges with the numbers of what they lead to renamed. -/
def renameEdges (σ : Nat → Nat) (edges : List (Iri × Fragment)) : List (Iri × Fragment) :=
  edges.map fun e => (e.1, e.2.rename σ)

end Fragment

open Fragment

variable {σ τ : Nat → Nat}

/-! ## Renaming and building -/

/-- A term without a number stays. -/
theorem Term.rename_of_ground {t : Term} (h : t.numbers = []) : t.rename σ = t := by
  cases t with
  | blank n => cases h
  | iri i => rfl
  | literal l => rfl

theorem Term.rename_rename (t : Term) : (t.rename σ).rename τ = t.rename (τ ∘ σ) := by
  cases t <;> rfl

theorem Triple.rename_rename (t : Triple) : (t.rename σ).rename τ = t.rename (τ ∘ σ) := by
  simp only [rename, Term.rename_rename]

theorem Triple.rename_id (t : Triple) : t.rename id = t := by
  obtain ⟨s, p, o⟩ := t
  cases s <;> cases o <;> rfl

namespace Fragment

theorem rename_describe (node : Term) (edges : List (Iri × Fragment)) :
    (describe node edges).rename σ = describe (node.rename σ) (renameEdges σ edges) := by
  rw [rename, describe, describe, renameEdges, List.map_flatMap, List.flatMap_map]
  rfl

theorem renameEdges_append (es fs : List (Iri × Fragment)) :
    renameEdges σ (es ++ fs) = renameEdges σ es ++ renameEdges σ fs :=
  List.map_append

/-- Edges of one predicate, renamed. -/
theorem renameEdges_map (p : Iri) (fs : List Fragment) :
    renameEdges σ (fs.map fun f => (p, f)) = (fs.map (rename σ)).map fun f => (p, f) := by
  rw [renameEdges, List.map_map, List.map_map]
  rfl

end Fragment

/-- **A graph of renamed triples** is the renamed graph. -/
theorem Graph.ofList_eq_rename {ts us : List Triple} (h : us.Perm (ts.map (Triple.rename σ))) :
    Graph.ofList us = (Graph.ofList ts).rename σ := by
  refine Graph.eq_of_mem_iff fun t => ?_
  rw [rename, mem_ofList, mem_ofList, h.mem_iff, List.mem_map, List.mem_map]
  simp only [mem_toList, mem_ofList]

/-! ## Numbers that move -/

/-- **A renaming that moves** the `taken` numbers from `first` on to those from `next` on. -/
def Moves (σ : Nat → Nat) (first next taken : Nat) : Prop :=
  ∀ k < taken, σ (first + k) = next + k

namespace Moves

variable {first next a b : Nat}

theorem refl (first taken : Nat) : Moves id first first taken := fun _ _ => rfl

/-- Numbers that are not renamed stay where they are. -/
theorem of_fixed {stop taken : Nat} (h : ∀ k, first ≤ k → k < stop → σ k = k)
    (hstop : first + taken ≤ stop) : Moves σ first first taken := by
  intro k hk
  exact h (first + k) (by omega) (by omega)

theorem head (h : Moves σ first next a) (ha : 0 < a) : σ first = next :=
  h 0 ha

theorem left (h : Moves σ first next (a + b)) : Moves σ first next a := by
  intro k hk
  exact h k (by omega)

theorem right (h : Moves σ first next (a + b)) : Moves σ (first + a) (next + a) b := by
  intro k hk
  have hmove := h (a + k) (by omega)
  rwa [← Nat.add_assoc, ← Nat.add_assoc] at hmove

end Moves

/-- A list moves with the numbers of its cells. -/
theorem rename_chain {members : List Fragment} {first next : Nat}
    (h : Moves σ first next members.length) :
    (chain members first).rename σ = chain (members.map (Fragment.rename σ)) next := by
  -- the head takes the first number, and the rest of the list those behind it
  induction members generalizing first next with
  | nil => rfl
  | cons m ms ih =>
    have hmoves : Moves σ first next (1 + ms.length) := by
      rwa [List.length_cons, Nat.add_comm] at h
    have hcell : Term.rename σ (.blank first) = .blank next :=
      congrArg Term.blank (hmoves.head (by omega))
    rw [chain, rename_describe, hcell, List.map_cons, chain, renameEdges, List.map_cons,
      List.map_singleton, ih hmoves.right]

/-- **A collection moves with its numbers.** -/
theorem rename_collection {items : List Term} {first next : Nat}
    (h : Moves σ first next items.length) :
    (collection items first).rename σ = collection (items.map (Term.rename σ)) next := by
  rw [← List.length_map (f := leaf)] at h
  rw [collection_eq_chain, collection_eq_chain, rename_chain h, List.map_map, List.map_map]
  rfl

/-- Terms without numbers stay. -/
theorem rename_terms {items : List Term} (h : ∀ t ∈ items, t.numbers = []) :
    items.map (Term.rename σ) = items := by
  have hsame : ∀ t ∈ items, Term.rename σ t = id t := fun t ht => Term.rename_of_ground (h t ht)
  rw [List.map_congr_left hsame, List.map_id]

/-! ## Triples renamed between two bounds -/

/-- **Triples that are renamed**, and put into another order, with only numbers from `first` up to
`stop` exchanged. -/
def Relabels (first stop : Nat) (ts us : List Triple) : Prop :=
  ∃ σ : Equiv.Perm Nat, (∀ k, k < first ∨ stop ≤ k → σ k = k) ∧
    us.Perm (ts.map (Triple.rename σ))

/-- Triples that hold numbers from `first` up to `stop` only. -/
def Within (first stop : Nat) (ts : List Triple) : Prop :=
  ∀ σ : Nat → Nat, (∀ k, first ≤ k → k < stop → σ k = k) → ts.map (Triple.rename σ) = ts

theorem Relabels.refl (first stop : Nat) (ts : List Triple) : Relabels first stop ts ts := by
  refine ⟨Equiv.refl Nat, fun k _ => rfl, ?_⟩
  have hsame : ∀ t ∈ ts, Triple.rename (Equiv.refl Nat) t = id t := fun t _ => Triple.rename_id t
  rw [List.map_congr_left hsame, List.map_id]

theorem map_rename_rename (σ τ : Nat → Nat) (ts : List Triple) :
    (ts.map (Triple.rename σ)).map (Triple.rename τ) = ts.map (Triple.rename (τ ∘ σ)) := by
  rw [List.map_map]
  exact List.map_congr_left fun t _ => Triple.rename_rename t

theorem Relabels.trans {first stop : Nat} {ts us vs : List Triple} (h : Relabels first stop ts us)
    (k : Relabels first stop us vs) : Relabels first stop ts vs := by
  obtain ⟨σ, hσ, hus⟩ := h
  obtain ⟨τ, hτ, hvs⟩ := k
  refine ⟨σ.trans τ, fun n hn => ?_, ?_⟩
  · rw [Equiv.trans_apply, hσ n hn, hτ n hn]
  · have hmore := hvs.trans (hus.map _)
    rwa [map_rename_rename] at hmore

/-- **Neighbours that are renamed each for itself** are renamed together. -/
theorem Relabels.append {a b c : Nat} {ts us ts' us' : List Triple} (hab : a ≤ b) (hbc : b ≤ c)
    (h : Relabels a b ts us) (k : Relabels b c ts' us') (hts : Within a b ts)
    (hus : Within b c us') : Relabels a c (ts ++ ts') (us ++ us') := by
  obtain ⟨σ, hσ, hperm⟩ := h
  obtain ⟨τ, hτ, hperm'⟩ := k
  refine ⟨τ.trans σ, fun n hn => ?_, ?_⟩
  · rw [Equiv.trans_apply, hτ n (by omega), hσ n (by omega)]
  · -- each renaming leaves the numbers of the other part alone
    have hfirst : ts.map (Triple.rename τ) = ts := hts τ fun n _ hn => hτ n (Or.inl hn)
    have hsecond : us'.map (Triple.rename σ) = us' := hus σ fun n hn _ => hσ n (Or.inr hn)
    have hmore := hperm'.map (Triple.rename σ)
    rw [hsecond, map_rename_rename] at hmore
    rw [List.map_append]
    refine List.Perm.append ?_ hmore
    have hboth := map_rename_rename τ σ ts
    rw [hfirst] at hboth
    rw [Equiv.coe_trans, ← hboth]
    exact hperm

/-! ## Neighbours that change places -/

/-- Where a number goes when the `a` numbers from `first` on change places with the `b` numbers
behind them. -/
def exchanged (first a b k : Nat) : Nat :=
  if k < first then k
  else if k < first + a then k + b
  else if k < first + a + b then k - a
  else k

theorem exchanged_exchanged (first a b k : Nat) :
    exchanged first b a (exchanged first a b k) = k := by
  unfold exchanged
  split_ifs <;> omega

/-- **The renaming of neighbours** that change places. -/
def exchange (first a b : Nat) : Equiv.Perm Nat where
  toFun := exchanged first a b
  invFun := exchanged first b a
  left_inv := exchanged_exchanged first a b
  right_inv := exchanged_exchanged first b a

theorem exchange_apply (first a b k : Nat) : exchange first a b k = exchanged first a b k := rfl

theorem moves_exchange_left (first a b : Nat) : Moves (exchange first a b) first (first + b) a := by
  intro k hk
  rw [exchange_apply, exchanged, if_neg (by omega), if_pos (by omega)]
  omega

theorem moves_exchange_right (first a b : Nat) :
    Moves (exchange first a b) (first + a) first b := by
  intro k hk
  rw [exchange_apply, exchanged, if_neg (by omega), if_neg (by omega), if_pos (by omega)]
  omega

/-- All other numbers stay. -/
theorem exchange_of_outside {first a b k : Nat} (h : k < first ∨ first + a + b ≤ k) :
    exchange first a b k = k := by
  rw [exchange_apply, exchanged]
  split_ifs <;> omega

end SchemaShapes
