import Mathlib.Logic.Relation
import SchemaShapes.Proofs.Rdf.Embedding

/-!
# Forests

A graph that is made of fragments rooted at IRIs, with each number owned once, is a **forest**:
every blank node hangs below one edge, and the way up from it ends at the IRI of a fragment.

* `Forest.existsUnique_owner`: one triple leads to a blank node.
* `Forest.acyclic`, `Forest.exists_ascent`: the way up visits no node twice and ends at a root.
* `Forest.existsUnique_top`: below one blank node that a root leads to.
* `Forest.reaches_subject`: every triple is reached from a root.
-/

namespace SchemaShapes

open Fragment Relation

namespace Graph

/-- The blank node `m` has an edge to the blank node `n`. -/
def Holds (g : Graph) (m n : Nat) : Prop := ∃ p, (⟨.blank m, p, .blank n⟩ : Triple) ∈ g

/-- A term has an edge to another. -/
def Links (g : Graph) (a b : Term) : Prop := ∃ p, (⟨a, p, b⟩ : Triple) ∈ g

/-- **The way up** from a blank node: over the nodes that have edges to it, none of them twice, to
an IRI. -/
structure Ascent (g : Graph) (n : Nat) (path : List Nat) (x : Iri) : Prop where
  starts : path.head? = some n
  climbs : path.IsChain fun child parent => g.Holds parent child
  simple : path.Nodup
  arrives : ∃ top, path.getLast? = some top ∧ g.Links (.iri x) (.blank top)

/-- **A forest**: a graph made of fragments that are rooted at IRIs and together own the numbers up
to `stop`, each once. -/
structure Forest (g : Graph) (fs : List Fragment) (stop : Nat) : Prop where
  made : g = ofList (fs.flatMap (·.triples))
  rooted : ∀ f ∈ fs, f.Rooted
  named : ∀ f ∈ fs, ∃ x, f.node = .iri x
  owned : (fs.flatMap Fragment.owned).Perm (List.Ico 0 stop)

namespace Forest

variable {g : Graph} {fs : List Fragment} {stop : Nat}

theorem mem_iff (h : g.Forest fs stop) {t : Triple} : t ∈ g ↔ ∃ f ∈ fs, t ∈ f.triples := by
  rw [h.made, mem_ofList, List.mem_flatMap]

theorem nodup (h : g.Forest fs stop) : (fs.flatMap Fragment.owned).Nodup :=
  h.owned.nodup_iff.2 (List.Ico.nodup 0 stop)

theorem exists_owned_iff (h : g.Forest fs stop) {n : Nat} : (∃ f ∈ fs, n ∈ f.owned) ↔ n < stop := by
  rw [← List.mem_flatMap, h.owned.mem_iff, List.Ico.mem]
  omega

theorem embeds (h : g.Forest fs stop) {f : Fragment} (hf : f ∈ fs) : g.Embeds f := by
  rw [h.made]
  exact embeds_ofList h.rooted h.nodup hf

theorem nodup_owned (h : g.Forest fs stop) {f : Fragment} (hf : f ∈ fs) : f.owned.Nodup :=
  nodup_of_mem_flatMap h.nodup hf

/-- What a root owns is what its triples point to. -/
theorem owned_eq_linked (h : g.Forest fs stop) {f : Fragment} (hf : f ∈ fs) :
    f.owned = linked f.triples := by
  obtain ⟨x, hx⟩ := h.named f hf
  rw [Fragment.owned, hx, Term.numbers_iri, List.nil_append]

/-- The numbers that occur are those up to `stop`. -/
theorem number_lt (h : g.Forest fs stop) {t : Triple} (ht : t ∈ g) {n : Nat}
    (hn : t.subject = .blank n ∨ t.object = .blank n) : n < stop := by
  obtain ⟨f, hf, htf⟩ := h.mem_iff.1 ht
  refine h.exists_owned_iff.1 ⟨f, hf, ?_⟩
  rcases hn with hs | ho
  · exact (h.rooted f hf).mem_owned_of_subject htf hs
  · exact mem_owned.2 (Or.inr (mem_linked.2 ⟨t, htf, ho⟩))

/-- **One triple leads to a blank node.** -/
theorem existsUnique_owner (h : g.Forest fs stop) {n : Nat} (hn : n < stop) :
    ∃! t, t ∈ g ∧ t.object = .blank n := by
  obtain ⟨f, hf, hown⟩ := h.exists_owned_iff.2 hn
  rw [h.owned_eq_linked hf] at hown
  obtain ⟨t, ht, ho⟩ := mem_linked.1 hown
  refine ⟨t, ⟨h.mem_iff.2 ⟨f, hf, ht⟩, ho⟩, ?_⟩
  rintro u ⟨hu, hou⟩
  -- another triple that leads to it is in the fragment that owns it, where it is the same
  obtain ⟨f', hf', hu⟩ := h.mem_iff.1 hu
  have hown' : n ∈ linked f'.triples := mem_linked.2 ⟨u, hu, hou⟩
  have hff : f' = f := by
    refine eq_of_mem_flatMap h.nodup hf' hf ?_ ?_ (x := n)
    · rw [h.owned_eq_linked hf']
      exact hown'
    · rw [h.owned_eq_linked hf]
      exact hown
  subst hff
  have hnd : (linked f'.triples).Nodup := h.owned_eq_linked hf ▸ h.nodup_owned hf
  exact eq_of_mem_flatMap hnd hu ht (Term.mem_numbers.2 hou) (Term.mem_numbers.2 ho)

/-- Two triples that lead to one blank node are the same. -/
theorem owner_eq (h : g.Forest fs stop) {a b : Term} {p q : Iri} {n : Nat}
    (ht : (⟨a, p, .blank n⟩ : Triple) ∈ g) (hu : (⟨b, q, .blank n⟩ : Triple) ∈ g) : a = b := by
  have hn := h.number_lt ht (Or.inr rfl)
  exact congrArg Triple.subject ((h.existsUnique_owner hn).unique ⟨ht, rfl⟩ ⟨hu, rfl⟩)

theorem described (h : g.Forest fs stop) {n : Nat} (hn : n < stop) :
    ∃ t ∈ g, t.subject = .blank n := by
  obtain ⟨f, hf, hown⟩ := h.exists_owned_iff.2 hn
  obtain ⟨t, ht, hs⟩ := (h.rooted f hf).described n hown
  exact ⟨t, h.mem_iff.2 ⟨f, hf, ht⟩, hs⟩

/-- A triple leaves the root of a fragment or a blank node. -/
theorem subject_cases (h : g.Forest fs stop) {t : Triple} (ht : t ∈ g) :
    (∃ f ∈ fs, t.subject = f.node) ∨ ∃ n, n < stop ∧ t.subject = .blank n := by
  obtain ⟨f, hf, htf⟩ := h.mem_iff.1 ht
  rcases (h.rooted f hf).subjects t htf with hs | ⟨n, -, hs⟩
  · exact Or.inl ⟨f, hf, hs⟩
  · exact Or.inr ⟨n, h.number_lt ht (Or.inl hs), hs⟩

theorem below (h : g.Forest fs stop) {n : Nat} (hn : n < stop) :
    ∃ f ∈ fs, ∃ x, f.node = .iri x ∧ Below g.toList (.iri x) n := by
  obtain ⟨f, hf, hown⟩ := h.exists_owned_iff.2 hn
  obtain ⟨x, hx⟩ := h.named f hf
  rw [h.owned_eq_linked hf] at hown
  have := (h.rooted f hf).below n hown
  rw [hx] at this
  exact ⟨f, hf, x, hx, this.mono fun t ht => h.mem_iff.2 ⟨f, hf, ht⟩⟩

/-! ## The way up -/

theorem not_transGen_of_below (h : g.Forest fs stop) {x : Iri} {n : Nat}
    (hb : Below g.toList (.iri x) n) : ¬ TransGen g.Holds n n := by
  induction hb with
  | edge ht =>
    intro hcyc
    obtain ⟨m, -, q, hm⟩ := TransGen.tail'_iff.1 hcyc
    cases h.owner_eq ht hm
  | step _ ht ih =>
    -- a cycle through a node passes through the node above it
    intro hcyc
    obtain ⟨m', hpath, q, hm⟩ := TransGen.tail'_iff.1 hcyc
    cases h.owner_eq ht hm
    exact ih (TransGen.head' ⟨_, ht⟩ hpath)

/-- **No cycle** of blank nodes. -/
theorem acyclic (h : g.Forest fs stop) (n : Nat) : ¬ TransGen g.Holds n n := by
  intro hcyc
  obtain ⟨m, -, q, hm⟩ := TransGen.tail'_iff.1 hcyc
  obtain ⟨f, -, x, -, hb⟩ := h.below (h.number_lt hm (Or.inr rfl))
  exact h.not_transGen_of_below hb hcyc

/-- A way up visits no node twice. -/
theorem nodup_of_climbs (h : g.Forest fs stop) {path : List Nat}
    (hc : path.IsChain fun child parent => g.Holds parent child) : path.Nodup := by
  -- a node that came twice would be above itself
  have htrans : path.IsChain (TransGen fun child parent => g.Holds parent child) :=
    hc.imp fun _ _ => TransGen.single
  refine (List.isChain_iff_pairwise.1 htrans).imp ?_
  rintro a b hab rfl
  exact h.acyclic a (transGen_swap.1 hab)

theorem ascent_of_below (h : g.Forest fs stop) {x : Iri} {n : Nat}
    (hb : Below g.toList (.iri x) n) : ∃ path, g.Ascent n path x := by
  suffices hpath : ∃ more, (n :: more).IsChain (fun child parent => g.Holds parent child) ∧
      ∃ top, (n :: more).getLast? = some top ∧ g.Links (.iri x) (.blank top) by
    obtain ⟨more, hc, ha⟩ := hpath
    exact ⟨n :: more, rfl, hc, h.nodup_of_climbs hc, ha⟩
  induction hb with
  | @edge p n ht => exact ⟨[], by simp, n, rfl, p, ht⟩
  | @step m p n _ ht ih =>
    obtain ⟨more, hc, top, hlast, htop⟩ := ih
    refine ⟨m :: more, List.isChain_cons_cons.2 ⟨⟨p, ht⟩, hc⟩, top, ?_, htop⟩
    rw [List.getLast?_cons_cons]
    exact hlast

/-- **The way up ends at a root.** -/
theorem exists_ascent (h : g.Forest fs stop) {n : Nat} (hn : n < stop) :
    ∃ f ∈ fs, ∃ x path, f.node = .iri x ∧ g.Ascent n path x := by
  obtain ⟨f, hf, x, hx, hb⟩ := h.below hn
  obtain ⟨path, hpath⟩ := h.ascent_of_below hb
  exact ⟨f, hf, x, path, hx, hpath⟩

/-! ## What hangs below a root -/

theorem exists_top_of_below {x : Iri} {n : Nat} (hb : Below g.toList (.iri x) n) :
    ∃ top, g.Links (.iri x) (.blank top) ∧ ReflTransGen g.Holds top n := by
  induction hb with
  | @edge p n ht => exact ⟨n, ⟨p, ht⟩, .refl⟩
  | step _ ht ih =>
    obtain ⟨top, htop, hpath⟩ := ih
    exact ⟨top, htop, hpath.tail ⟨_, ht⟩⟩

/-- Two nodes that IRIs lead to have nothing below them in common. -/
theorem top_unique (h : g.Forest fs stop) {a b n : Nat} {x y : Iri}
    (ha : g.Links (.iri x) (.blank a)) (hb : g.Links (.iri y) (.blank b))
    (han : ReflTransGen g.Holds a n) (hbn : ReflTransGen g.Holds b n) : a = b := by
  obtain ⟨p, ha⟩ := ha
  obtain ⟨q, hb⟩ := hb
  -- on the first way: both ways end with the one edge that leads to the node
  induction han with
  | refl =>
    rcases ReflTransGen.cases_tail hbn with rfl | ⟨c, -, r, hc⟩
    · rfl
    · cases h.owner_eq ha hc
  | tail _ hstep ih =>
    obtain ⟨r, hstep⟩ := hstep
    rcases ReflTransGen.cases_tail hbn with rfl | ⟨c, hbc, r', hc⟩
    · cases h.owner_eq hb hstep
    · cases h.owner_eq hstep hc
      exact ih hbc

/-- **A blank node hangs below one edge of a root.** -/
theorem existsUnique_top (h : g.Forest fs stop) {n : Nat} (hn : n < stop) :
    ∃! top, (∃ x, g.Links (.iri x) (.blank top)) ∧ ReflTransGen g.Holds top n := by
  obtain ⟨f, -, x, -, hb⟩ := h.below hn
  obtain ⟨top, htop, hpath⟩ := exists_top_of_below hb
  refine ⟨top, ⟨⟨x, htop⟩, hpath⟩, ?_⟩
  rintro top' ⟨⟨y, htop'⟩, hpath'⟩
  exact h.top_unique htop' htop hpath' hpath

theorem reaches_of_below {x : Iri} {n : Nat} (hb : Below g.toList (.iri x) n) :
    ReflTransGen g.Links (.iri x) (.blank n) := by
  induction hb with
  | edge ht => exact .single ⟨_, ht⟩
  | step _ ht ih => exact ih.tail ⟨_, ht⟩

/-- **Every triple is reached from a root.** -/
theorem reaches_subject (h : g.Forest fs stop) {t : Triple} (ht : t ∈ g) :
    ∃ f ∈ fs, ReflTransGen g.Links f.node t.subject := by
  rcases h.subject_cases ht with ⟨f, hf, hs⟩ | ⟨n, hn, hs⟩
  · exact ⟨f, hf, hs ▸ .refl⟩
  · obtain ⟨f, hf, x, hx, hb⟩ := h.below hn
    exact ⟨f, hf, hx ▸ hs ▸ reaches_of_below hb⟩

end Forest

end Graph

end SchemaShapes
