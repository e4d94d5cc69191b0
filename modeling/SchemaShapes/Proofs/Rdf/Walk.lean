import Mathlib.Data.Nat.Find
import SchemaShapes.Proofs.Rdf.Collection

/-!
# The walk along any graph

A graph may say anything of the cells of a collection: tails may lead into cycles, cells may have
several edges to a rest, literals may stand as cells. From a head, the least objects of `rdf:rest`
make one chain of cells, and the walk stops at the first position where it cannot go on.

* `Graph.CellAt`: the cells of the chain by position.
* `Graph.CellAt.not_repeated`: before `rdf:nil` no cell comes twice.
* `SubjectIndex.reached`: where a walk is after the positions at which it went on.
* `SubjectIndex.listItems_stops`: what it answers where it stops.
* `SubjectIndex.listItems_exact`: which graphs it accepts, with which items, and how it refuses the
  others.
-/

namespace SchemaShapes

namespace Graph

variable {g : Graph} {head c d : Term} {k : Nat}

/-! ## The chain of cells -/

/-- **The cell in a position** of the chain from a head: the next cell is the least object of
`rdf:rest`. -/
inductive CellAt (g : Graph) (head : Term) : Nat → Term → Prop
  | head : CellAt g head 0 head
  | next {k : Nat} {c d : Term} (cell : CellAt g head k c) (rest : g.Least c Rdf.rest d) :
    CellAt g head (k + 1) d

theorem CellAt.unique (h : g.CellAt head k c) (h' : g.CellAt head k d) : c = d := by
  induction h generalizing d with
  | head => cases h'; rfl
  | next _ hrest ih =>
    obtain _ | ⟨hcell', hrest'⟩ := h'
    obtain rfl := ih hcell'
    exact hrest.unique hrest'

/-- From a cell on, the chain is that of the cell. -/
theorem CellAt.add_iff (h : g.CellAt head k c) {m : Nat} :
    g.CellAt head (k + m) d ↔ g.CellAt c m d := by
  induction m generalizing d with
  | zero =>
    constructor
    · intro hd
      exact h.unique hd ▸ .head
    · rintro ⟨⟩
      exact h
  | succ m ih =>
    constructor
    · rintro (_ | ⟨hcell, hrest⟩)
      exact .next (ih.1 hcell) hrest
    · rintro (_ | ⟨hcell, hrest⟩)
      exact .next (ih.2 hcell) hrest

/-- **Before `rdf:nil` no cell comes twice.** The chain from the second place is that from the first
one, so it would have met `rdf:nil` before. -/
theorem CellAt.not_repeated {n i j : Nat} {nil : Term} (hn : g.CellAt head n nil)
    (hbefore : ∀ m < n, ¬ g.CellAt head m nil) (hij : i < j) (hjn : j ≤ n)
    (hi : g.CellAt head i c) : ¬ g.CellAt head j c := by
  intro hj
  obtain ⟨m, rfl⟩ := Nat.exists_eq_add_of_le hjn
  have hearlier : g.CellAt head (i + m) nil := hi.add_iff.2 (hj.add_iff.1 hn)
  exact hbefore (i + m) (by omega) hearlier

/-! ## Where a walk goes on, and why it stops -/

/-- **Going on** from the cell in a position. -/
structure Passes (g : Graph) (head : Term) (k : Nat) (c : Term) : Prop where
  cell : g.CellAt head k c
  ne_nil : c ≠ .iri Rdf.nil
  lt_max : k < 65536
  unvisited : ∀ j < k, ¬ g.CellAt head j c
  first : ∃ o, (⟨c, Rdf.first, o⟩ : Triple) ∈ g
  rest : ∃ o, (⟨c, Rdf.rest, o⟩ : Triple) ∈ g

/-- **Why a walk is refused** at the cell in a position. Of several reasons the first one here
counts. -/
inductive Refuses (g : Graph) (head : Term) (k : Nat) (c : Term) : ListFault → Prop
  | tooLong (full : k = 65536) : Refuses g head k c (.tooLong c)
  | cycle (free : k < 65536) (visited : ∃ j < k, g.CellAt head j c) : Refuses g head k c (.cycle c)
  | noFirst (free : k < 65536) (unvisited : ∀ j < k, ¬ g.CellAt head j c)
    (noFirst : ∀ o, (⟨c, Rdf.first, o⟩ : Triple) ∉ g) :
    Refuses g head k c (.missingEdge c Rdf.first)
  | noRest (free : k < 65536) (unvisited : ∀ j < k, ¬ g.CellAt head j c)
    (first : ∃ o, (⟨c, Rdf.first, o⟩ : Triple) ∈ g)
    (noRest : ∀ o, (⟨c, Rdf.rest, o⟩ : Triple) ∉ g) :
    Refuses g head k c (.missingEdge c Rdf.rest)

/-- **The first position where a walk cannot go on**, for what it is said to be there. -/
structure StopsAt (g : Graph) (head : Term) (k : Nat) (c : Term) : Prop where
  cell : g.CellAt head k c
  before : ∀ j < k, ∃ b, g.Passes head j b
  stop : ¬ g.Passes head k c

/-- **The items of the cells** before a position: the least objects of `rdf:first`, in order. -/
structure ItemsUpTo (g : Graph) (head : Term) (k : Nat) (items : List Term) : Prop where
  length : items.length = k
  item : ∀ (j : Nat) (o : Term), items[j]? = some o →
    ∃ c, g.CellAt head j c ∧ g.Least c Rdf.first o

/-- **A collection that a walk accepts**: no more cells than it visits, each with an item and a
rest, and `rdf:nil` behind them. -/
structure Collects (g : Graph) (head : Term) (items : List Term) : Prop where
  length_le : items.length ≤ 65536
  nil : g.CellAt head items.length (.iri Rdf.nil)
  upTo : g.ItemsUpTo head items.length items
  cells : ∀ k < items.length, ∃ c, g.CellAt head k c ∧ c ≠ .iri Rdf.nil ∧
    ∃ o, (⟨c, Rdf.rest, o⟩ : Triple) ∈ g

/-- A walk that cannot go on is at the end of the collection, or there is a reason. -/
theorem StopsAt.nil_or_refuses (h : g.StopsAt head k c) (hk : k ≤ 65536) :
    c = .iri Rdf.nil ∨ c ≠ .iri Rdf.nil ∧ ∃ fault, g.Refuses head k c fault := by
  by_cases hnil : c = .iri Rdf.nil
  · exact Or.inl hnil
  refine Or.inr ⟨hnil, ?_⟩
  obtain hfull | hfree := Nat.eq_or_lt_of_le hk
  · exact ⟨_, .tooLong hfull⟩
  by_cases hvisited : ∃ j < k, g.CellAt head j c
  · exact ⟨_, .cycle hfree hvisited⟩
  push Not at hvisited
  by_cases hfirst : ∃ o, (⟨c, Rdf.first, o⟩ : Triple) ∈ g
  · refine ⟨_, .noRest hfree hvisited hfirst fun o ho => ?_⟩
    exact h.stop ⟨h.cell, hnil, hfree, hvisited, hfirst, o, ho⟩
  · push Not at hfirst
    exact ⟨_, .noFirst hfree hvisited hfirst⟩

theorem ItemsUpTo.unique {items items' : List Term} (h : g.ItemsUpTo head k items)
    (h' : g.ItemsUpTo head k items') : items = items' := by
  refine List.ext_getElem (h.length.trans h'.length.symm) fun j hj hj' => ?_
  obtain ⟨c, hc, ho⟩ := h.item j _ (List.getElem?_eq_getElem hj)
  obtain ⟨c', hc', ho'⟩ := h'.item j _ (List.getElem?_eq_getElem hj')
  obtain rfl := hc.unique hc'
  exact ho.unique ho'

theorem ItemsUpTo.append {items : List Term} {o : Term} (h : g.ItemsUpTo head k items)
    (hc : g.CellAt head k c) (ho : g.Least c Rdf.first o) :
    g.ItemsUpTo head (k + 1) (items ++ [o]) := by
  refine ⟨by rw [List.length_append, h.length, List.length_singleton], fun j o' hj => ?_⟩
  by_cases hlt : j < items.length
  · rw [List.getElem?_append_left hlt] at hj
    exact h.item j o' hj
  · rw [List.getElem?_append_right (Nat.le_of_not_lt hlt), List.getElem?_singleton] at hj
    split at hj
    · cases hj
      have hjk : j = k := by rw [← h.length]; omega
      exact ⟨c, hjk ▸ hc, ho⟩
    · cases hj

/-- Where a collection ends, the chain meets `rdf:nil` for the first time. -/
theorem Collects.not_before {items : List Term} (h : g.Collects head items) :
    ∀ m < items.length, ¬ g.CellAt head m (.iri Rdf.nil) := by
  intro m hm hcell
  obtain ⟨c, hc, hne, -⟩ := h.cells m hm
  exact hne (hc.unique hcell)

/-- **A collection that a walk accepts** lets it go on at every cell. -/
theorem Collects.passes {items : List Term} (h : g.Collects head items) :
    ∀ j < items.length, ∃ c, g.Passes head j c := by
  intro j hj
  obtain ⟨c, hc, hnil, hrest⟩ := h.cells j hj
  refine ⟨c, hc, hnil, lt_of_lt_of_le hj h.length_le, fun i hij hi => ?_, ?_, hrest⟩
  · exact h.nil.not_repeated h.not_before hij hj.le hi hc
  · obtain ⟨c', hc', ho⟩ := h.upTo.item j _ (List.getElem?_eq_getElem hj)
    exact ⟨_, hc.unique hc' ▸ ho.mem⟩

/-- **A walk stops**, at the latest where it may visit no more cells. -/
theorem exists_stopsAt (g : Graph) (head : Term) : ∃ k ≤ 65536, ∃ c, g.StopsAt head k c := by
  classical
  have hmax : ¬ ∃ c, g.Passes head 65536 c := fun ⟨c, hc⟩ => absurd hc.lt_max (by omega)
  have hfull : ∃ k, ¬ ∃ c, g.Passes head k c := ⟨65536, hmax⟩
  have hbefore : ∀ j < Nat.find hfull, ∃ b, g.Passes head j b :=
    fun j hj => not_not.1 (Nat.find_min hfull hj)
  have hcell : ∃ c, g.CellAt head (Nat.find hfull) c := by
    cases hk : Nat.find hfull with
    | zero => exact ⟨head, .head⟩
    | succ j =>
      obtain ⟨b, hb⟩ := hbefore j (by omega)
      obtain ⟨o, ho⟩ := hb.rest
      obtain ⟨d, hd⟩ := exists_least ho
      exact ⟨d, .next hb.cell hd⟩
  obtain ⟨c, hc⟩ := hcell
  exact ⟨Nat.find hfull, Nat.find_min' hfull hmax, c, hc, hbefore,
    fun hp => Nat.find_spec hfull ⟨c, hp⟩⟩

end Graph

namespace SubjectIndex

variable {g : Graph} {head cell : Term} {k : Nat}

/-! ## The walk -/

/-- **Where a walk is** when it has gone on up to a position: at the cell there, having visited the
cells before and gathered their items. -/
structure Reached (g : Graph) (head : Term) (k : Nat) (cell : Term) (visited : Std.HashSet Term)
    (items : List Term) : Prop where
  cell : g.CellAt head k cell
  visited : ∀ c, c ∈ visited ↔ ∃ j < k, g.CellAt head j c
  items : g.ItemsUpTo head k items.reverse

theorem reached_head (g : Graph) (head : Term) : Reached g head 0 head {} [] :=
  ⟨.head, fun c => by simp, rfl, fun j o hj => by simp at hj⟩

theorem Reached.step {visited : Std.HashSet Term} {items : List Term} {item next : Term}
    (h : Reached g head k cell visited items) (hf : g.Least cell Rdf.first item)
    (hr : g.Least cell Rdf.rest next) :
    Reached g head (k + 1) next (visited.insert cell) (item :: items) where
  cell := .next h.cell hr
  visited c := by
    rw [Std.HashSet.mem_insert, beq_iff_eq, h.visited]
    constructor
    · rintro (rfl | ⟨j, hj, hc⟩)
      · exact ⟨k, Nat.lt_succ_self k, h.cell⟩
      · exact ⟨j, Nat.lt_succ_of_lt hj, hc⟩
    · rintro ⟨j, hj, hc⟩
      obtain hj | rfl := Nat.lt_succ_iff_lt_or_eq.1 hj
      · exact Or.inr ⟨j, hj, hc⟩
      · exact Or.inl (h.cell.unique hc)
  items := by
    rw [List.reverse_cons]
    exact h.items.append h.cell hf

/-- **The walk by positions**: after the positions at which it goes on, a walk has reached the
next. -/
theorem reached (hp : ∀ j < k, ∃ c, g.Passes head j c) : ∃ cell visited items,
    Reached g head k cell visited items ∧
      (ofGraph g).listItems head = (ofGraph g).walk (65536 - k) cell visited items := by
  induction k with
  | zero => exact ⟨head, {}, [], reached_head g head, rfl⟩
  | succ k ih =>
    obtain ⟨cell, visited, items, h, hwalk⟩ := ih fun j hj => hp j (Nat.lt_succ_of_lt hj)
    obtain ⟨c, hc⟩ := hp k (Nat.lt_succ_self k)
    obtain rfl := hc.cell.unique h.cell
    obtain ⟨_, hfirst⟩ := hc.first
    obtain ⟨_, hrest⟩ := hc.rest
    obtain ⟨item, hitem⟩ := Graph.exists_least hfirst
    obtain ⟨next, hnext⟩ := Graph.exists_least hrest
    refine ⟨next, _, _, h.step hitem hnext, hwalk.trans ?_⟩
    have hv : c ∉ visited := fun hin => by
      obtain ⟨j, hj, hcell⟩ := (h.visited c).1 hin
      exact hc.unvisited j hj hcell
    have hbudget : 65536 - k = 65536 - (k + 1) + 1 := by have := hc.lt_max; omega
    rw [hbudget, walk, if_neg hc.ne_nil]
    simp [hv, object?_eq_some_iff.2 hitem, object?_eq_some_iff.2 hnext]

/-- **At `rdf:nil`** a walk answers with the items. -/
theorem listItems_of_nil (hp : ∀ j < k, ∃ c, g.Passes head j c)
    (hnil : g.CellAt head k (.iri Rdf.nil)) :
    ∃ items, (ofGraph g).listItems head = .ok items ∧ g.ItemsUpTo head k items := by
  obtain ⟨cell, visited, items, h, hwalk⟩ := reached hp
  obtain rfl := h.cell.unique hnil
  exact ⟨items.reverse, hwalk.trans (walk_nil ..), h.items⟩

/-- **Where there is a reason**, a walk is refused for it. -/
theorem listItems_of_refuses (hp : ∀ j < k, ∃ c, g.Passes head j c) (hcell : g.CellAt head k cell)
    (hne : cell ≠ .iri Rdf.nil) {fault : ListFault} (hr : g.Refuses head k cell fault) :
    (ofGraph g).listItems head = .error fault := by
  obtain ⟨c, visited, items, h, hwalk⟩ := reached hp
  obtain rfl := (h.cell.unique hcell).symm
  refine hwalk.trans ?_
  have hbudget : k < 65536 → 65536 - k = 65536 - (k + 1) + 1 := by omega
  have hvisited : (∀ j < k, ¬ g.CellAt head j cell) → cell ∉ visited := by
    intro hun hin
    obtain ⟨j, hj, hc⟩ := (h.visited cell).1 hin
    exact hun j hj hc
  cases hr with
  | tooLong full => rw [full, Nat.sub_self, walk, if_neg hne]
  | cycle free seen =>
    rw [hbudget free, walk, if_neg hne]
    simp [(h.visited cell).2 seen]
  | noFirst free unvisited noFirst =>
    rw [hbudget free, walk, if_neg hne]
    simp [hvisited unvisited, object?_eq_none_iff.2 noFirst]
  | noRest free unvisited first noRest =>
    obtain ⟨_, ho⟩ := first
    obtain ⟨item, hitem⟩ := Graph.exists_least ho
    rw [hbudget free, walk, if_neg hne]
    simp [hvisited unvisited, object?_eq_some_iff.2 hitem, object?_eq_none_iff.2 noRest]

/-- **What a walk answers** at the first position where it cannot go on: the items at `rdf:nil`, a
fault elsewhere. -/
theorem listItems_stops (g : Graph) (head : Term) : ∃ k ≤ 65536, ∃ c, g.StopsAt head k c ∧
    (c = .iri Rdf.nil ∧ (∃ items, (ofGraph g).listItems head = .ok items ∧
        g.ItemsUpTo head k items) ∨
      c ≠ .iri Rdf.nil ∧ ∃ fault, (ofGraph g).listItems head = .error fault ∧
        g.Refuses head k c fault) := by
  obtain ⟨k, hk, c, hstop⟩ := Graph.exists_stopsAt g head
  refine ⟨k, hk, c, hstop, ?_⟩
  rcases hstop.nil_or_refuses hk with rfl | ⟨hne, fault, hr⟩
  · exact Or.inl ⟨rfl, listItems_of_nil hstop.before hstop.cell⟩
  · exact Or.inr ⟨hne, fault, listItems_of_refuses hstop.before hstop.cell hne hr, hr⟩

/-- **Which collections a walk accepts.** -/
theorem listItems_eq_ok_iff {items : List Term} :
    (ofGraph g).listItems head = .ok items ↔ g.Collects head items := by
  constructor
  · intro hok
    obtain ⟨k, hk, c, hstop, ⟨rfl, items', hitems, hupto⟩ | ⟨-, fault, herror, -⟩⟩ :=
      listItems_stops g head
    · rw [hok, Except.ok.injEq] at hitems
      subst hitems
      obtain rfl := hupto.length
      refine ⟨hk, hstop.cell, hupto, fun j hj => ?_⟩
      obtain ⟨b, hb⟩ := hstop.before j hj
      exact ⟨b, hb.cell, hb.ne_nil, hb.rest⟩
    · rw [hok] at herror
      cases herror
  · intro h
    obtain ⟨items', hitems, hupto⟩ := listItems_of_nil h.passes h.nil
    rw [hitems, hupto.unique h.upTo]

/-- **How a walk is refused.** -/
theorem listItems_eq_error_iff {fault : ListFault} :
    (ofGraph g).listItems head = .error fault ↔
      ∃ k c, g.StopsAt head k c ∧ c ≠ .iri Rdf.nil ∧ g.Refuses head k c fault := by
  constructor
  · intro herror
    obtain ⟨k, -, c, hstop, ⟨-, items, hok, -⟩ | ⟨hne, fault', herror', hr⟩⟩ :=
      listItems_stops g head
    · rw [herror] at hok
      cases hok
    · rw [herror, Except.error.injEq] at herror'
      exact ⟨k, c, hstop, hne, herror' ▸ hr⟩
  · rintro ⟨k, c, hstop, hne, hr⟩
    exact listItems_of_refuses hstop.before hstop.cell hne hr

/-- **The walk along any graph.** It accepts exactly the collections of at most 65536 cells, with
the least item of each cell in order. Any other walk is refused at the first position where it
cannot go on, and for the first reason there: a full walk before a cycle, a cycle before a missing
item, and that before a missing rest. There always is such a position, and a chain in which a cell
comes twice before `rdf:nil` is refused. -/
theorem listItems_exact (g : Graph) (head : Term) :
    (∀ items, (ofGraph g).listItems head = .ok items ↔ g.Collects head items) ∧
    (∀ fault, (ofGraph g).listItems head = .error fault ↔
      ∃ k c, g.StopsAt head k c ∧ c ≠ .iri Rdf.nil ∧ g.Refuses head k c fault) ∧
    (∃ k ≤ 65536, ∃ c, g.StopsAt head k c) ∧
    (∀ i j c, i < j → g.CellAt head i c → g.CellAt head j c →
      (∀ m ≤ j, ¬ g.CellAt head m (.iri Rdf.nil)) →
        ∃ fault, (ofGraph g).listItems head = .error fault) ∧
    ∀ c p, (ListFault.tooLong c).message =
        "malformed list at " ++ c.shown ++ ": longer than 65536 cells" ∧
      (ListFault.cycle c).message = "malformed list at " ++ c.shown ++ ": cycle" ∧
      (ListFault.missingEdge c p).message =
        "list node " ++ c.shown ++ " has no `" ++ p ++ "` edge" := by
  refine ⟨fun items => listItems_eq_ok_iff, fun fault => listItems_eq_error_iff,
    Graph.exists_stopsAt g head, fun i j c hij hi hj hnil => ?_, fun c p => ⟨?_, rfl, rfl⟩⟩
  · cases hanswer : (ofGraph g).listItems head with
    | error fault => exact ⟨fault, rfl⟩
    | ok items =>
      -- an accepted collection would have met `rdf:nil` behind the second place of the cell
      have h := listItems_eq_ok_iff.1 hanswer
      have hjn : j ≤ items.length := by
        by_contra hlt
        exact hnil items.length (by omega) h.nil
      exact absurd hj (h.nil.not_repeated h.not_before hij hjn hi)
  · show "malformed list at " ++ _ ++ ": longer than " ++ toString maxListLength ++ " cells" = _
    rw [String.append_assoc, String.append_assoc]
    rfl

end SubjectIndex

end SchemaShapes
