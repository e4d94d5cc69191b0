import Mathlib.Data.List.Dedup
import SchemaShapes.Proofs.Rdf.Collection
import SchemaShapes.Proofs.Rdf.Distinct

/-!
# Collections in any graph

A collection may be taken into a graph that knows nothing of its cells. Whatever else the graph
says, and whatever the items are, the cells then have the edges that the collection gives them and
no others, so that the items are read back.

* `Graph.agreesOn_extend`: what a graph says of numbers that are new to it.
* `Fragment.dedup_subjects_cells`: the cells of a collection, in order.
* `Graph.listItems_extend`: the items, the cells and the size of the graph.
-/

namespace SchemaShapes

open Fragment SubjectIndex

namespace Graph

/-- **Numbers that are new to a graph**: from `next` on, no blank node is described. -/
def FreshFrom (g : Graph) (next : Nat) : Prop :=
  ∀ t ∈ g, ∀ n, t.subject = .blank n → n < next

/-- Of new numbers, a graph says what it takes in. -/
theorem agreesOn_extend {g : Graph} {next : Nat} (h : g.FreshFrom next) (ts : List Triple)
    (stop : Nat) : (g.extend ts).AgreesOn ts next stop := by
  intro n hn _ p o
  rw [mem_extend, or_iff_right_iff_imp]
  intro ht
  have hlt : n < next := h _ ht n rfl
  omega

theorem extend_eq_ofList (g : Graph) (ts : List Triple) :
    g.extend ts = ofList (g.toList ++ ts) :=
  eq_of_mem_iff fun t => by rw [mem_extend, mem_ofList, List.mem_append, mem_toList]

/-- **A graph grows by what is new to it.** -/
theorem size_extend {g : Graph} {ts : List Triple} (hts : ts.Nodup) (hnew : ∀ t ∈ ts, t ∉ g) :
    (g.extend ts).size = g.size + ts.length := by
  have hnodup : (g.toList ++ ts).Nodup :=
    g.nodup_toList.append hts fun t htg ht => hnew t ht htg
  rw [extend_eq_ofList, size_ofList hnodup, List.length_append, size]

end Graph

namespace Fragment

/-- A cell describes nothing behind it. -/
theorem ne_of_mem_cells {items : List Term} {next n : Nat} (hn : n < next) {t : Triple}
    (ht : t ∈ cells items next) : t.subject ≠ .blank n := by
  obtain ⟨k, hk, -, hs⟩ := confined_cells items next t ht
  rw [hs, Ne, Term.blank.injEq]
  omega

theorem nodup_cells (items : List Term) (next : Nat) : (cells items next).Nodup := by
  induction items generalizing next with
  | nil => exact List.nodup_nil
  | cons item items ih =>
    have hne : Rdf.first ≠ Rdf.rest := by decide
    have hlater : ∀ t : Triple, t.subject = .blank next → t ∉ cells items (next + 1) :=
      fun t hs ht => ne_of_mem_cells (Nat.lt_succ_self next) ht hs
    rw [cells_cons, List.nodup_cons, List.nodup_cons, List.mem_cons, not_or]
    exact ⟨⟨by simp [hne], hlater _ rfl⟩, hlater _ rfl, ih (next + 1)⟩

/-- **The cells of a collection**: one for each item, numbered on from `next`. -/
theorem dedup_subjects_cells (items : List Term) (next : Nat) :
    ((cells items next).map (·.subject)).dedup =
      (List.range' next items.length).map Term.blank := by
  induction items generalizing next with
  | nil => rfl
  | cons item items ih =>
    have hlater : Term.blank next ∉ (cells items (next + 1)).map (·.subject) := by
      rintro h
      obtain ⟨t, ht, hs⟩ := List.mem_map.1 h
      exact ne_of_mem_cells (Nat.lt_succ_self next) ht hs
    rw [cells_cons, List.map_cons, List.map_cons, List.dedup_cons_of_mem (List.mem_cons_self ..),
      List.dedup_cons_of_notMem hlater, ih, List.length_cons, List.range'_succ, List.map_cons]

end Fragment

namespace Graph

variable {g : Graph} {next : Nat}

/-- The cells are new to a graph that their numbers are new to. -/
theorem FreshFrom.notMem_of_mem_cells (h : g.FreshFrom next) {items : List Term} {t : Triple}
    (ht : t ∈ cells items next) : t ∉ g := by
  intro htg
  obtain ⟨n, hn, -, hs⟩ := confined_cells items next t ht
  have hlt : n < next := h t htg n hs
  omega

/-- **A collection in any graph.** A graph takes in a collection on numbers that are new to it. Its
items are read back in order if a walk visits as many cells; otherwise the walk is refused at the
first cell that it may not visit. The collection takes one blank node for each item, and no triple
of the graph is lost. -/
theorem listItems_extend (h : g.FreshFrom next) (items : List Term) :
    let list := Fragment.collection items next
    let absorbed := g.extend list.triples
    (items.length ≤ 65536 → (ofGraph absorbed).listItems list.node = .ok items) ∧
    (65536 < items.length → ∃ fault,
      (ofGraph absorbed).listItems list.node = .error fault ∧
      fault = .tooLong (.blank (next + 65536)) ∧
      fault.message = "malformed list at " ++ Term.blankLabel (next + 65536) ++
        ": longer than 65536 cells") ∧
    (list.triples.map (·.subject)).dedup = (List.range' next items.length).map Term.blank ∧
    (∀ t ∈ g, t ∈ absorbed) ∧
    absorbed.size = g.size + 2 * items.length := by
  intro list absorbed
  -- the graph says of the new numbers what the cells say, and nothing else
  have hlinks : (ofGraph absorbed).Lists items next :=
    lists_of_agreesOn (agreesOn_extend h _ _)
  have hread := listItems_collection hlinks
  refine ⟨fun hfit => ?_, fun hlong => ?_, dedup_subjects_cells items next, fun t ht => ?_, ?_⟩
  · exact hread.trans (if_pos hfit)
  · refine ⟨_, hread.trans (if_neg (Nat.not_le.2 hlong)), rfl, ?_⟩
    show "malformed list at " ++ _ ++ ": longer than " ++ toString maxListLength ++ " cells" = _
    rw [String.append_assoc, String.append_assoc]
    rfl
  · exact mem_extend.2 (Or.inl ht)
  · have hsize := size_extend (nodup_cells items next) fun t => h.notMem_of_mem_cells
    rwa [length_cells] at hsize

/-- A graph with a blank node of its own takes in a collection of `rdf:nil`, a literal, one of the
cells twice, and a blank node that may be taken later. -/
theorem listItems_extend_mixed :
    (ofList [⟨.blank 1, Rdf.rest, .blank 2⟩, ⟨.iri "urn:s", Rdf.first, .blank 7⟩]).FreshFrom 2 ∧
    let items : List Term :=
      [.iri Rdf.nil, .literal (.untyped "x"), .blank 3, .blank 3, .blank 40]
    let absorbed := (ofList [⟨.blank 1, Rdf.rest, .blank 2⟩,
      ⟨.iri "urn:s", Rdf.first, .blank 7⟩]).extend (Fragment.collection items 2).triples
    (ofGraph absorbed).listItems (.blank 2) = .ok items := by
  have h : (ofList [⟨.blank 1, Rdf.rest, .blank 2⟩,
      ⟨.iri "urn:s", Rdf.first, .blank 7⟩]).FreshFrom 2 := by
    intro t ht n hn
    rw [mem_ofList] at ht
    simp only [List.mem_cons, List.not_mem_nil, or_false] at ht
    rcases ht with rfl | rfl
    · cases hn; decide
    · cases hn
  exact ⟨h, (listItems_extend h _).1 (by decide)⟩

end Graph

end SchemaShapes
