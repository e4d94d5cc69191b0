import Mathlib.Data.List.Flatten
import Mathlib.Data.List.Intervals
import Mathlib.Data.List.Nodup
import SchemaShapes.Rdf.Fragment

/-!
# Fragments as trees

The blank nodes of a fragment are numbers that are taken one after the other. A fragment **owns**
the number of its node and those its triples point to; it is **rooted** if all of them hang below
its node. What a builder hands on is rooted and owns each number that the builder takes, once.

* `Fragment.rooted_describe`: a node whose edges lead to rooted fragments is the root of them all.
* `Spans`: fragments that together own the numbers between two bounds, each once.
* `Spans.describe`, `Spans.collection`: how the builders of fragments take numbers.
-/

namespace SchemaShapes

/-- The number of a blank node, none of another term. -/
def Term.numbers : Term → List Nat
  | .blank n => [n]
  | _ => []

@[simp] theorem Term.numbers_iri (i : Iri) : (Term.iri i).numbers = [] := rfl
@[simp] theorem Term.numbers_blank (n : Nat) : (Term.blank n).numbers = [n] := rfl
@[simp] theorem Term.numbers_literal (l : Literal) : (Term.literal l).numbers = [] := rfl

theorem Term.mem_numbers {t : Term} {n : Nat} : n ∈ t.numbers ↔ t = .blank n := by
  cases t <;> simp [eq_comm]

/-- The numbers that triples point to, in order. -/
def linked (ts : List Triple) : List Nat := ts.flatMap fun t => t.object.numbers

@[simp] theorem linked_nil : linked [] = [] := rfl

theorem linked_cons (t : Triple) (ts : List Triple) :
    linked (t :: ts) = t.object.numbers ++ linked ts := rfl

@[simp] theorem linked_append (ts us : List Triple) : linked (ts ++ us) = linked ts ++ linked us :=
  List.flatMap_append

theorem mem_linked {ts : List Triple} {n : Nat} :
    n ∈ linked ts ↔ ∃ t ∈ ts, t.object = .blank n := by
  simp [linked, Term.mem_numbers]

/-- **A number below a root**: triples lead to it from the root, over blank nodes only. -/
inductive Below (ts : List Triple) (root : Term) : Nat → Prop
  | edge {p : Iri} {n : Nat} (h : ⟨root, p, .blank n⟩ ∈ ts) : Below ts root n
  | step {m : Nat} {p : Iri} {n : Nat} (h : Below ts root m) (k : ⟨.blank m, p, .blank n⟩ ∈ ts) :
    Below ts root n

theorem Below.mono {ts us : List Triple} {root : Term} {n : Nat} (h : Below ts root n)
    (sub : ∀ t ∈ ts, t ∈ us) : Below us root n := by
  induction h with
  | edge h => exact .edge (sub _ h)
  | step _ k ih => exact .step ih (sub _ k)

theorem Below.trans {ts : List Triple} {root : Term} {m n : Nat} (h : Below ts root m)
    (k : Below ts (.blank m) n) : Below ts root n := by
  induction k with
  | edge k => exact .step h k
  | step _ k ih => exact .step ih k

namespace Fragment

/-- The numbers of a fragment: that of its node, and those its triples point to. -/
def owned (f : Fragment) : List Nat := f.node.numbers ++ linked f.triples

theorem mem_owned {f : Fragment} {n : Nat} :
    n ∈ f.owned ↔ f.node = .blank n ∨ n ∈ linked f.triples := by
  rw [owned, List.mem_append, Term.mem_numbers]

/-- **A rooted fragment**: all that it owns hangs below its node and is described. -/
structure Rooted (f : Fragment) : Prop where
  subjects : ∀ t ∈ f.triples, t.subject = f.node ∨ ∃ n ∈ linked f.triples, t.subject = .blank n
  described : ∀ n ∈ f.owned, ∃ t ∈ f.triples, t.subject = .blank n
  below : ∀ n ∈ linked f.triples, Below f.triples f.node n

/-- **A branch**: a rooted fragment whose node is blank, or a node without any description. -/
structure Branch (f : Fragment) : Prop extends Rooted f where
  anonymous : (∃ n, f.node = .blank n) ∨ f.triples = []

/-- The subjects of a rooted fragment are its node and numbers it owns. -/
theorem Rooted.mem_owned_of_subject {f : Fragment} (h : f.Rooted) {t : Triple} (ht : t ∈ f.triples)
    {n : Nat} (hs : t.subject = .blank n) : n ∈ f.owned := by
  rw [mem_owned]
  rcases h.subjects t ht with e | ⟨m, hm, e⟩
  · exact Or.inl (e ▸ hs)
  · rw [hs] at e
    cases e
    exact Or.inr hm

/-- The triples of a branch leave blank nodes only. -/
theorem Branch.subject_blank {f : Fragment} (h : f.Branch) {t : Triple} (ht : t ∈ f.triples) :
    ∃ n ∈ f.owned, t.subject = .blank n := by
  have hsub : ∃ n, t.subject = .blank n := by
    rcases h.subjects t ht with e | ⟨n, -, e⟩
    · rcases h.anonymous with ⟨n, k⟩ | k
      · exact ⟨n, e.trans k⟩
      · rw [k] at ht
        cases ht
    · exact ⟨n, e⟩
  obtain ⟨n, e⟩ := hsub
  exact ⟨n, h.mem_owned_of_subject ht e, e⟩

theorem branch_leaf {node : Term} (h : node.numbers = []) : (leaf node).Branch where
  subjects := fun t ht => by cases ht
  described := fun n hn => by simp [owned, leaf, h] at hn
  below := fun n hn => by simp [leaf] at hn
  anonymous := Or.inr rfl

/-- What a fragment is does not depend on the order of its triples. -/
theorem Branch.perm {f g : Fragment} (h : f.Branch) (node : g.node = f.node)
    (triples : g.triples.Perm f.triples) : g.Branch := by
  have hl : ∀ {n}, n ∈ linked g.triples ↔ n ∈ linked f.triples :=
    (triples.flatMap_right _).mem_iff
  have ho : ∀ {n}, n ∈ g.owned ↔ n ∈ f.owned := by
    intro n
    rw [mem_owned, mem_owned, node, hl]
  refine ⟨⟨fun t ht => ?_, fun n hn => ?_, fun n hn => ?_⟩, ?_⟩
  · rw [node]
    obtain e | ⟨n, hn, e⟩ := h.subjects t (triples.mem_iff.1 ht)
    · exact Or.inl e
    · exact Or.inr ⟨n, hl.2 hn, e⟩
  · obtain ⟨t, ht, e⟩ := h.described n (ho.1 hn)
    exact ⟨t, triples.mem_iff.2 ht, e⟩
  · rw [node]
    exact (h.below n (hl.1 hn)).mono fun t ht => triples.mem_iff.2 ht
  · rw [node]
    exact h.anonymous.imp_right fun e => (e ▸ triples).eq_nil

/-! ## A node with edges -/

theorem mem_describe {node : Term} {edges : List (Iri × Fragment)} {t : Triple} :
    t ∈ (describe node edges).triples ↔
      ∃ e ∈ edges, t = ⟨node, e.1, e.2.node⟩ ∨ t ∈ e.2.triples := by
  simp [describe]

theorem triples_describe_cons (node : Term) (e : Iri × Fragment) (edges : List (Iri × Fragment)) :
    (describe node (e :: edges)).triples =
      ⟨node, e.1, e.2.node⟩ :: (e.2.triples ++ (describe node edges).triples) := rfl

theorem linked_describe (node : Term) (edges : List (Iri × Fragment)) :
    linked (describe node edges).triples = (edges.map (·.2)).flatMap owned := by
  induction edges with
  | nil => rfl
  | cons e es ih =>
    rw [triples_describe_cons, linked_cons, linked_append, ih, List.map_cons, List.flatMap_cons,
      owned, List.append_assoc]

theorem owned_describe (node : Term) (edges : List (Iri × Fragment)) :
    (describe node edges).owned = node.numbers ++ (edges.map (·.2)).flatMap owned := by
  rw [owned, linked_describe]
  rfl

theorem mem_linked_describe {node : Term} {edges : List (Iri × Fragment)} {n : Nat} :
    n ∈ linked (describe node edges).triples ↔ ∃ e ∈ edges, n ∈ e.2.owned := by
  rw [linked_describe, List.flatMap_map, List.mem_flatMap]

/-- **The root of what its edges lead to.** A blank node needs an edge to be described. -/
theorem rooted_describe {node : Term} {edges : List (Iri × Fragment)}
    (hne : edges ≠ [] ∨ node.numbers = []) (h : ∀ e ∈ edges, e.2.Branch) :
    (describe node edges).Rooted := by
  refine ⟨fun t ht => ?_, fun n hn => ?_, fun n hn => ?_⟩
  · obtain ⟨e, he, rfl | hte⟩ := mem_describe.1 ht
    · exact Or.inl rfl
    · obtain ⟨n, hn, hs⟩ := (h e he).subject_blank hte
      exact Or.inr ⟨n, mem_linked_describe.2 ⟨e, he, hn⟩, hs⟩
  · rw [owned_describe, List.mem_append] at hn
    rcases hn with hn | hn
    · rcases hne with hne | hnum
      · obtain ⟨e, he⟩ := List.exists_mem_of_ne_nil edges hne
        exact ⟨_, mem_describe.2 ⟨e, he, Or.inl rfl⟩, Term.mem_numbers.1 hn⟩
      · simp [hnum] at hn
    · rw [List.flatMap_map, List.mem_flatMap] at hn
      obtain ⟨e, he, hn⟩ := hn
      obtain ⟨t, ht, hs⟩ := (h e he).described n hn
      exact ⟨t, mem_describe.2 ⟨e, he, Or.inr ht⟩, hs⟩
  · obtain ⟨e, he, hn⟩ := mem_linked_describe.1 hn
    have hedge : (⟨node, e.1, e.2.node⟩ : Triple) ∈ (describe node edges).triples :=
      mem_describe.2 ⟨e, he, Or.inl rfl⟩
    rcases mem_owned.1 hn with hnode | hlink
    · exact .edge (hnode ▸ hedge)
    · -- the way down goes over the edge, which leads to a blank node
      have hbelow : Below (describe node edges).triples e.2.node n :=
        ((h e he).below n hlink).mono fun t ht => mem_describe.2 ⟨e, he, Or.inr ht⟩
      rcases (h e he).anonymous with ⟨m, hm⟩ | hnil
      · rw [hm] at hedge hbelow
        exact (Below.edge hedge).trans hbelow
      · simp [hnil] at hlink

theorem branch_describe {n : Nat} {edges : List (Iri × Fragment)} (hne : edges ≠ [])
    (h : ∀ e ∈ edges, e.2.Branch) : (describe (.blank n) edges).Branch :=
  ⟨rooted_describe (Or.inl hne) h, Or.inl ⟨n, rfl⟩⟩

/-! ## A list of fragments -/

/-- **A list as a tree**: each cell has an edge to its member and one to the rest of the list. -/
def chain : List Fragment → Nat → Fragment
  | [], _ => leaf (.iri Rdf.nil)
  | member :: more, cell =>
    describe (.blank cell) [(Rdf.first, member), (Rdf.rest, chain more (cell + 1))]

theorem chain_node (members : List Fragment) (cell : Nat) :
    (chain members cell).node = (collection (members.map (·.node)) cell).node := by
  cases members with
  | nil => simp [chain, leaf, collection, cellOrNil]
  | cons m ms => simp [chain, describe, collection, cellOrNil]

/-- A collection and what describes its items, in another order. -/
theorem chain_perm (members : List Fragment) (cell : Nat) :
    (cells (members.map (·.node)) cell ++ members.flatMap (·.triples)).Perm
      (chain members cell).triples := by
  induction members generalizing cell with
  | nil => exact List.Perm.refl _
  | cons m ms ih =>
    have h : (chain (m :: ms) cell).triples =
        ⟨.blank cell, Rdf.first, m.node⟩ :: (m.triples ++
          ⟨.blank cell, Rdf.rest, (chain ms (cell + 1)).node⟩ ::
            (chain ms (cell + 1)).triples) := by
      simp [chain, describe]
    rw [h, List.map_cons, cells_cons, List.flatMap_cons, chain_node]
    refine List.Perm.cons _ ?_
    -- the description of the member moves in front of the other cells
    refine List.Perm.trans ?_ (List.Perm.append_left m.triples (List.Perm.cons _ (ih (cell + 1))))
    exact List.perm_append_comm_assoc (⟨.blank cell, Rdf.rest, _⟩ :: cells _ (cell + 1)) _ _

theorem branch_chain {members : List Fragment} (h : ∀ m ∈ members, m.Branch) (cell : Nat) :
    (chain members cell).Branch := by
  induction members generalizing cell with
  | nil => exact branch_leaf rfl
  | cons m ms ih =>
    refine branch_describe (by simp) ?_
    intro e he
    simp only [List.mem_cons, List.not_mem_nil, or_false] at he
    rcases he with rfl | rfl
    · exact h m (by simp)
    · exact ih (fun m hm => h m (by simp [hm])) (cell + 1)

/-- A list owns what its members own and a number for each cell. -/
theorem owned_chain (members : List Fragment) (cell : Nat) :
    (chain members cell).owned.Perm
      (members.flatMap owned ++ List.range' cell members.length) := by
  induction members generalizing cell with
  | nil => exact List.Perm.refl _
  | cons m ms ih =>
    have h : (chain (m :: ms) cell).owned = cell :: (m.owned ++ (chain ms (cell + 1)).owned) := by
      simp [chain, owned_describe]
    -- the number of the cell moves behind those of the member
    rw [h, List.flatMap_cons, List.length_cons, List.range'_succ, List.append_assoc]
    refine List.Perm.trans (List.Perm.cons _ (List.Perm.append_left _ (ih (cell + 1)))) ?_
    rw [← List.append_assoc, ← List.append_assoc]
    exact List.perm_middle.symm

theorem collection_eq_chain (items : List Term) (next : Nat) :
    collection items next = chain (items.map leaf) next := by
  induction items generalizing next with
  | nil => simp [chain, leaf, collection, cellOrNil]
  | cons item items ih =>
    rw [List.map_cons, chain, ← ih (next + 1)]
    simp [collection, cells_cons, describe, leaf, cellOrNil]

end Fragment

open Fragment

/-! ## Consecutive numbers -/

/-- **Branches that own the numbers** from `first` up to `stop`, each once. -/
structure Spans (fs : List Fragment) (first stop : Nat) : Prop where
  le : first ≤ stop
  branches : ∀ f ∈ fs, f.Branch
  owned : (fs.flatMap Fragment.owned).Perm (List.Ico first stop)

namespace Spans

theorem nil (n : Nat) : Spans [] n n :=
  ⟨le_rfl, by simp, by simp⟩

theorem append {fs gs : List Fragment} {a b c : Nat} (h : Spans fs a b) (k : Spans gs b c) :
    Spans (fs ++ gs) a c where
  le := le_trans h.le k.le
  branches := fun f hf => (List.mem_append.1 hf).elim (h.branches f) (k.branches f)
  owned := by
    rw [List.flatMap_append, ← List.Ico.append_consecutive h.le k.le]
    exact h.owned.append k.owned

theorem cons {f : Fragment} {fs : List Fragment} {a b c : Nat} (h : Spans [f] a b)
    (k : Spans fs b c) : Spans (f :: fs) a c :=
  h.append k

theorem nodup {fs : List Fragment} {a b : Nat} (h : Spans fs a b) :
    (fs.flatMap Fragment.owned).Nodup :=
  h.owned.nodup_iff.2 (List.Ico.nodup a b)

theorem nodup_owned {f : Fragment} {a b : Nat} (h : Spans [f] a b) : f.owned.Nodup := by
  simpa using h.nodup

/-- Edges that take numbers lead to branches. -/
theorem branch_of_mem {edges : List (Iri × Fragment)} {a b : Nat} (h : Spans (edges.map (·.2)) a b)
    {e : Iri × Fragment} (he : e ∈ edges) : e.2.Branch :=
  h.branches e.2 (List.mem_map_of_mem he)

theorem mem_owned {f : Fragment} {a b n : Nat} (h : Spans [f] a b) :
    n ∈ f.owned ↔ a ≤ n ∧ n < b := by
  have := h.owned.mem_iff (a := n)
  simpa using this

/-- A term that is no blank node takes no number. -/
theorem leaf {node : Term} (h : node.numbers = []) (n : Nat) : Spans [leaf node] n n where
  le := le_rfl
  branches := by simpa using branch_leaf h
  owned := by simp [Fragment.owned, Fragment.leaf, h]

/-- Terms that are no blank nodes take no number. -/
theorem leaves {nodes : List Term} (h : ∀ t ∈ nodes, t.numbers = []) (n : Nat) :
    Spans (nodes.map Fragment.leaf) n n := by
  induction nodes with
  | nil => exact nil n
  | cons t ts ih =>
    exact (leaf (h t (by simp)) n).cons (ih fun u hu => h u (by simp [hu]))

/-- **A node takes the first number**, and what its edges lead to the others. -/
theorem describe {edges : List (Iri × Fragment)} {n stop : Nat} (hne : edges ≠ [])
    (h : Spans (edges.map (·.2)) (n + 1) stop) : Spans [describe (.blank n) edges] n stop where
  le := le_trans (Nat.le_succ n) h.le
  branches := by
    simpa using branch_describe hne fun e he => h.branches e.2 (List.mem_map_of_mem he)
  owned := by
    rw [List.flatMap_singleton, owned_describe, List.Ico.eq_cons (Nat.lt_of_succ_le h.le)]
    exact h.owned.cons n

/-- Fragments with the same node and the same triples in another order take the same numbers. -/
theorem perm {f g : Fragment} {a b : Nat} (h : Spans [f] a b) (node : g.node = f.node)
    (triples : g.triples.Perm f.triples) : Spans [g] a b where
  le := h.le
  branches := by simpa using (h.branches f (by simp)).perm node triples
  owned := by
    have hf : f.owned.Perm (List.Ico a b) := by simpa using h.owned
    rw [List.flatMap_singleton, Fragment.owned, node]
    exact ((triples.flatMap_right _).append_left _).trans hf

/-- **The cells of a list** take the numbers behind those of its members. -/
theorem chain {members : List Fragment} {a cell : Nat} (h : Spans members a cell) :
    Spans [chain members cell] a (cell + members.length) where
  le := le_trans h.le (Nat.le_add_right _ _)
  branches := by simpa using branch_chain h.branches cell
  owned := by
    have hcells : List.range' cell members.length = List.Ico cell (cell + members.length) := by
      simp [List.Ico]
    rw [List.flatMap_singleton,
      ← List.Ico.append_consecutive h.le (Nat.le_add_right cell members.length), ← hcells]
    exact (owned_chain members cell).trans (h.owned.append_right _)

/-- **A collection** of terms that are no blank nodes takes a number for each. -/
theorem collection {items : List Term} (h : ∀ t ∈ items, t.numbers = []) (next : Nat) :
    Spans [collection items next] next (next + items.length) := by
  rw [collection_eq_chain]
  simpa using (leaves h next).chain

end Spans

end SchemaShapes
