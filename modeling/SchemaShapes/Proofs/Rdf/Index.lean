import Mathlib.Data.List.Nodup
import Mathlib.Data.List.Perm.Basic
import SchemaShapes.Rdf.SubjectIndex

/-!
# What an index holds

A graph is in order, so the triples of one subject are neighbours and each subject has one block.

* `blocksOf_sorted`: the blocks of a graph have different subjects, in order.
* `triples_blocksOf`: the blocks together are the graph.
* `edges_ofGraph`: the edges of a subject are those of its triples, in the order of the graph.
* `object?_ofGraph`: the object that is looked up is the first one.
* `object?_eq_some_iff`: it is the least one.
-/

namespace SchemaShapes

/-- The subject of the first triple is not behind that of the second. -/
def Triple.SubjectLE (a b : Triple) : Prop := (Ord.compare a.subject b.subject).isLE = true

theorem Triple.Before.subjectLE {a b : Triple} (h : a.Before b) : a.SubjectLE b := by
  have h' : (Ord.compare a.subject b.subject).then
      (compareLex (compareOn Triple.predicate) (compareOn Triple.object) a b) = .lt := h
  rcases Ordering.then_eq_lt.1 h' with k | ⟨k, -⟩ <;> simp [SubjectLE, k]

theorem Graph.subjects_sorted (g : Graph) : g.toList.Pairwise Triple.SubjectLE :=
  g.ordered.imp Triple.Before.subjectLE

theorem Graph.nodup_toList (g : Graph) : g.toList.Nodup := by
  refine List.Pairwise.imp (fun {a b} h => ?_) g.ordered
  rintro rfl
  exact Triple.not_before_self a h

attribute [ext] Triple

/-- What some triples of a graph are turned into has no repetition if no two become the same. -/
theorem Graph.nodup_map_filter {β : Type} (g : Graph) {keep : Triple → Bool} {f : Triple → β}
    (h : ∀ t u, keep t = true → keep u = true → f t = f u → t = u) :
    ((g.toList.filter keep).map f).Nodup :=
  (g.nodup_toList.filter _).map_on fun t ht u hu =>
    h t u (List.mem_filter.1 ht).2 (List.mem_filter.1 hu).2

/-- What some triples are turned into, where only one triple becomes it. -/
theorem mem_map_filter {β : Type} {ts : List Triple} {keep : Triple → Bool} {f : Triple → β}
    {t : Triple} {b : β} (h : ∀ u, keep u = true ∧ f u = b ↔ u = t) :
    b ∈ (ts.filter keep).map f ↔ t ∈ ts := by
  simp only [List.mem_map, List.mem_filter, and_assoc, h, exists_eq_right]

theorem Term.ne_of_lt {a b : Term} (h : Ord.compare a b = .lt) : a ≠ b := by
  rintro rfl
  rw [show Ord.compare a a = .eq from Term.compare_self a] at h
  cases h

/-- The edges of a subject in a list of triples. -/
def edgesFrom (ts : List Triple) (s : Term) : List Edge :=
  (ts.filter fun t => t.subject == s).map fun t => (t.predicate, t.object)

theorem mem_edgesFrom {ts : List Triple} {s : Term} {p : Iri} {o : Term} :
    (p, o) ∈ edgesFrom ts s ↔ (⟨s, p, o⟩ : Triple) ∈ ts :=
  mem_map_filter fun u => by simp [Triple.ext_iff]

theorem edgesFrom_eq_nil {ts : List Triple} {s : Term} (h : ∀ t ∈ ts, t.subject ≠ s) :
    edgesFrom ts s = [] := by
  rw [edgesFrom, List.filter_eq_nil_iff.2 fun t ht => by simpa using h t ht, List.map_nil]

theorem edgesFrom_append (ts us : List Triple) (s : Term) :
    edgesFrom (ts ++ us) s = edgesFrom ts s ++ edgesFrom us s := by
  rw [edgesFrom, List.filter_append, List.map_append, ← edgesFrom, ← edgesFrom]

theorem edgesFrom_nodup (g : Graph) (s : Term) : (edgesFrom g.toList s).Nodup := by
  refine g.nodup_map_filter fun t u ht hu hedge => ?_
  rw [beq_iff_eq] at ht hu
  rw [Prod.mk.injEq] at hedge
  exact Triple.ext (ht.trans hu.symm) hedge.1 hedge.2

/-! ## Objects -/

theorem Graph.contains_iff {g : Graph} {t : Triple} : g.contains t = true ↔ t ∈ g :=
  List.contains_iff_mem.trans mem_toList

theorem Graph.mem_objects {g : Graph} {s : Term} {p : Iri} {o : Term} :
    o ∈ g.objects s p ↔ (⟨s, p, o⟩ : Triple) ∈ g :=
  (mem_map_filter fun u => by simp [Triple.ext_iff, and_assoc]).trans mem_toList

theorem Graph.nodup_objects (g : Graph) (s : Term) (p : Iri) : (g.objects s p).Nodup := by
  refine g.nodup_map_filter fun t u ht hu hobject => ?_
  rw [Bool.and_eq_true, beq_iff_eq, beq_iff_eq] at ht hu
  exact Triple.ext (ht.1.trans hu.1.symm) (ht.2.trans hu.2.symm) hobject

/-- The one object of a subject and a predicate that have only one. -/
theorem Graph.objects_eq_singleton {g : Graph} {s : Term} {p : Iri} {o : Term}
    (h : ∀ o', (⟨s, p, o'⟩ : Triple) ∈ g ↔ o' = o) : g.objects s p = [o] := by
  refine List.perm_singleton.1 ((List.perm_ext_iff_of_nodup (g.nodup_objects s p)
    (List.nodup_singleton o)).2 fun o' => ?_)
  rw [mem_objects, h, List.mem_singleton]

/-! ## Subjects -/

theorem Graph.mem_subjectsWith {g : Graph} {p : Iri} {o s : Term} :
    s ∈ g.subjects p o ↔ (⟨s, p, o⟩ : Triple) ∈ g :=
  (mem_map_filter fun u => by simp [Triple.ext_iff, and_comm]).trans mem_toList

theorem Graph.nodup_subjectsWith (g : Graph) (p : Iri) (o : Term) : (g.subjects p o).Nodup := by
  refine g.nodup_map_filter fun t u ht hu hsubject => ?_
  rw [Bool.and_eq_true, beq_iff_eq, beq_iff_eq] at ht hu
  exact Triple.ext hsubject (ht.1.trans hu.1.symm) (ht.2.trans hu.2.symm)

/-! ## Blocks -/

theorem blocksOf_cons (t : Triple) (ts : List Triple) :
    blocksOf (t :: ts) =
      match blocksOf ts with
      | [] => [⟨t.subject, [(t.predicate, t.object)]⟩]
      | b :: bs =>
        if t.subject = b.subject then ⟨b.subject, (t.predicate, t.object) :: b.edges⟩ :: bs
        else ⟨t.subject, [(t.predicate, t.object)]⟩ :: b :: bs := by
  show (match blocksOf ts with
    | [] => _
    | b :: bs => if t.subject = b.subject then _ else _ :: blocksOf ts) = _
  cases blocksOf ts <;> rfl

theorem subject_mem_blocksOf {ts : List Triple} {s : Term} :
    (∃ b ∈ blocksOf ts, b.subject = s) ↔ ∃ t ∈ ts, t.subject = s := by
  induction ts with
  | nil => simp [blocksOf]
  | cons t ts ih =>
    rw [blocksOf_cons]
    cases h : blocksOf ts with
    | nil =>
      rw [h] at ih
      simp only [List.mem_cons, exists_eq_or_imp] at ih ⊢
      rw [← ih]
    | cons b bs =>
      rw [h] at ih
      by_cases e : t.subject = b.subject
      · simp only [e, if_true, List.mem_cons, exists_eq_or_imp] at ih ⊢
        rw [← ih, or_self_left]
      · simp only [e, if_false, List.mem_cons, exists_eq_or_imp] at ih ⊢
        rw [← ih]

/-- No block is empty. -/
theorem edges_ne_nil_blocksOf {ts : List Triple} : ∀ b ∈ blocksOf ts, b.edges ≠ [] := by
  induction ts with
  | nil => simp [blocksOf]
  | cons t ts ih =>
    rw [blocksOf_cons]
    cases h : blocksOf ts with
    | nil => simp
    | cons b bs =>
      rw [h, List.forall_mem_cons] at ih
      obtain ⟨hb, hbs⟩ := ih
      by_cases e : t.subject = b.subject
      · simpa [e] using hbs
      · simpa [e, hb] using hbs

/-- **One block for each subject**, in the order of the subjects. -/
theorem blocksOf_sorted {ts : List Triple} (h : ts.Pairwise Triple.SubjectLE) :
    (blocksOf ts).Pairwise fun a b => Ord.compare a.subject b.subject = .lt := by
  induction ts with
  | nil => exact List.Pairwise.nil
  | cons t ts ih =>
    obtain ⟨ht, hts⟩ := List.pairwise_cons.1 h
    have hle : ∀ b ∈ blocksOf ts, (Ord.compare t.subject b.subject).isLE = true := by
      intro b hb
      obtain ⟨u, hu, hub⟩ := subject_mem_blocksOf.1 ⟨b, hb, rfl⟩
      exact hub ▸ ht u hu
    rw [blocksOf_cons]
    cases hb : blocksOf ts with
    | nil => simp
    | cons b bs =>
      have tail := ih hts
      rw [hb] at tail hle
      by_cases e : t.subject = b.subject
      · simp only [e, if_true]
        exact List.pairwise_cons.2 (List.pairwise_cons.1 tail)
      · simp only [e, if_false]
        -- a subject that is not that of the next block comes before it
        have hlt : Ord.compare t.subject b.subject = .lt := by
          have := hle b (by simp)
          cases hc : Ord.compare t.subject b.subject with
          | lt => rfl
          | eq => exact absurd (Std.LawfulEqCmp.eq_of_compare hc) e
          | gt => rw [hc] at this; cases this
        refine List.pairwise_cons.2 ⟨fun c hc => ?_, tail⟩
        rcases List.mem_cons.1 hc with rfl | hc
        · exact hlt
        · exact Std.TransCmp.lt_trans (b := b.subject) hlt ((List.pairwise_cons.1 tail).1 c hc)

/-- The triples of a block. -/
def Block.triples (b : Block) : List Triple := b.edges.map fun e => ⟨b.subject, e.1, e.2⟩

/-- **Blocks lose nothing**: their triples are those they are made of, in order. -/
theorem triples_blocksOf (ts : List Triple) : (blocksOf ts).flatMap Block.triples = ts := by
  induction ts with
  | nil => rfl
  | cons t ts ih =>
    rw [blocksOf_cons]
    cases h : blocksOf ts with
    | nil =>
      rw [h] at ih
      rw [← ih]
      rfl
    | cons b bs =>
      rw [h, List.flatMap_cons] at ih
      by_cases e : t.subject = b.subject
      · have hgrown : Block.triples ⟨b.subject, (t.predicate, t.object) :: b.edges⟩ =
            ⟨b.subject, t.predicate, t.object⟩ :: b.triples := rfl
        simp only [e, if_true, List.flatMap_cons]
        rw [hgrown, ← e, List.cons_append, ih]
      · simp only [e, if_false, List.flatMap_cons]
        rw [ih]
        rfl

/-- The triples of a block are those of its graph. -/
theorem Graph.mem_of_mem_triples {g : Graph} {b : Block} (hb : b ∈ g.blocks) {t : Triple}
    (ht : t ∈ b.triples) : t ∈ g := by
  rw [← Graph.mem_toList, ← triples_blocksOf g.toList]
  exact List.mem_flatMap.2 ⟨b, hb, ht⟩

/-- No two blocks of a graph have one subject. -/
theorem Graph.nodup_subjects (g : Graph) : (g.blocks.map Block.subject).Nodup :=
  List.pairwise_map.2 ((blocksOf_sorted g.subjects_sorted).imp Term.ne_of_lt)

theorem Graph.mem_subjects {g : Graph} {s : Term} :
    s ∈ g.blocks.map Block.subject ↔ ∃ t ∈ g, t.subject = s := by
  simp only [List.mem_map, ← Graph.mem_toList]
  exact subject_mem_blocksOf

theorem edgesFrom_triples (b : Block) : edgesFrom b.triples b.subject = b.edges := by
  rw [edgesFrom, List.filter_eq_self.2 ?_, Block.triples, List.map_map]
  · exact List.map_id _
  · intro t ht
    obtain ⟨e, -, rfl⟩ := List.mem_map.1 ht
    exact beq_self_eq_true _

/-- Among blocks of different subjects, a block holds the edges of its subject. -/
theorem edgesFrom_blocks {bs : List Block} (h : bs.Pairwise fun a b => a.subject ≠ b.subject)
    {b : Block} (hb : b ∈ bs) : edgesFrom (bs.flatMap Block.triples) b.subject = b.edges := by
  have hother : ∀ {c : Block}, c.subject ≠ b.subject → ∀ t ∈ c.triples, t.subject ≠ b.subject := by
    intro c hc t ht
    obtain ⟨e, -, rfl⟩ := List.mem_map.1 ht
    exact hc
  induction h with
  | nil => cases hb
  | @cons a as ha _ ih =>
    rw [List.flatMap_cons, edgesFrom_append]
    -- the other blocks have no edges of the subject
    rcases List.mem_cons.1 hb with rfl | hb
    · have hnil : edgesFrom (as.flatMap Block.triples) b.subject = [] := by
        refine edgesFrom_eq_nil fun t ht => ?_
        obtain ⟨c, hc, ht⟩ := List.mem_flatMap.1 ht
        exact hother (ha c hc).symm t ht
      rw [edgesFrom_triples, hnil, List.append_nil]
    · rw [edgesFrom_eq_nil (hother (ha b hb)), List.nil_append, ih hb]

/-- A block of a list in order holds the edges of its subject. -/
theorem edges_of_mem_blocksOf {ts : List Triple} (h : ts.Pairwise Triple.SubjectLE) {b : Block}
    (hb : b ∈ blocksOf ts) : b.edges = edgesFrom ts b.subject := by
  have hblocks := edgesFrom_blocks ((blocksOf_sorted h).imp Term.ne_of_lt) hb
  rw [triples_blocksOf] at hblocks
  exact hblocks.symm

/-! ## The index -/

namespace SubjectIndex

/-- **The edges of a subject** are those of its triples, in the order of the graph. -/
theorem edges_ofGraph (g : Graph) (s : Term) : (ofGraph g).edges s = edgesFrom g.toList s := by
  have hsort := blocksOf_sorted g.subjects_sorted
  have hkeys : (g.blocks.map fun b => (b.subject, b.edges)).Pairwise
      fun a b => (a.1 == b.1) = false := by
    refine List.pairwise_map.2 (hsort.imp fun {a b} hab => ?_)
    exact beq_eq_false_iff_ne.2 (Term.ne_of_lt hab)
  -- the table is made from a list whose keys differ, so each key finds its own block
  by_cases hs : ∃ b ∈ g.blocks, b.subject = s
  · obtain ⟨b, hb, rfl⟩ := hs
    have hmem : (b.subject, b.edges) ∈ g.blocks.map fun b => (b.subject, b.edges) :=
      List.mem_map_of_mem hb
    rw [← edges_of_mem_blocksOf g.subjects_sorted hb]
    exact Std.HashMap.getD_ofList_of_mem (by simp) hkeys hmem
  · have hno : ∀ t ∈ g.toList, t.subject ≠ s := fun t ht e =>
      hs (subject_mem_blocksOf.2 ⟨t, ht, e⟩)
    rw [edgesFrom_eq_nil hno]
    refine Std.HashMap.getD_ofList_of_contains_eq_false ?_
    rw [List.contains_eq_mem, decide_eq_false_iff_not]
    intro hk
    simp only [List.map_map, List.mem_map, Function.comp] at hk
    exact hs hk

theorem mem_edges_ofGraph {g : Graph} {s : Term} {p : Iri} {o : Term} :
    (p, o) ∈ (ofGraph g).edges s ↔ (⟨s, p, o⟩ : Triple) ∈ g := by
  rw [edges_ofGraph, mem_edgesFrom, Graph.mem_toList]

/-- The one edge of a subject that has only one. -/
theorem edges_eq_singleton {g : Graph} {s : Term} {e : Edge}
    (h : ∀ p o, (⟨s, p, o⟩ : Triple) ∈ g ↔ (p, o) = e) : (ofGraph g).edges s = [e] := by
  have hnodup : ((ofGraph g).edges s).Nodup := edges_ofGraph g s ▸ edgesFrom_nodup g s
  refine List.perm_singleton.1
    ((List.perm_ext_iff_of_nodup hnodup (List.nodup_singleton e)).2 ?_)
  rintro ⟨p, o⟩
  rw [mem_edges_ofGraph, h, List.mem_singleton]

/-- **The object that is looked up** is the first of the graph. -/
theorem object?_ofGraph (g : Graph) (s : Term) (p : Iri) :
    (ofGraph g).object? s p = (g.objects s p).head? := by
  rw [object?, edges_ofGraph, edgesFrom, Graph.objects]
  generalize g.toList = ts
  induction ts with
  | nil => rfl
  | cons t ts ih =>
    by_cases hs : t.subject == s <;> by_cases hp : t.predicate == p <;> simp_all

/-- The object that is looked up where there is only one. -/
theorem object?_eq_some {g : Graph} {s : Term} {p : Iri} {o : Term}
    (h : ∀ o', (⟨s, p, o'⟩ : Triple) ∈ g ↔ o' = o) : (ofGraph g).object? s p = some o := by
  rw [object?_ofGraph, Graph.objects_eq_singleton h, List.head?_cons]

end SubjectIndex

/-! ## Least objects -/

/-- Of two triples with one subject and one predicate, the first has the lesser object. -/
theorem Triple.Before.object_lt {a b : Triple} (h : a.Before b) (hs : a.subject = b.subject)
    (hp : a.predicate = b.predicate) : Ord.compare a.object b.object = .lt := by
  have h' : (Ord.compare a.subject b.subject).then
      ((Ord.compare a.predicate b.predicate).then (Ord.compare a.object b.object)) = .lt := h
  have hsubject : Ord.compare b.subject b.subject = .eq := Term.compare_self _
  have hpredicate : Ord.compare b.predicate b.predicate = .eq := Std.ReflCmp.compare_self
  rw [hs, hp, hsubject, hpredicate] at h'
  exact h'

namespace Graph

variable {g : Graph} {s : Term} {p : Iri} {o : Term}

/-- The objects of a subject and a predicate are in order. -/
theorem objects_sorted (g : Graph) (s : Term) (p : Iri) :
    (g.objects s p).Pairwise fun a b => Ord.compare a b = .lt := by
  refine List.pairwise_map.2 ((g.ordered.filter _).imp_of_mem fun {a b} ha hb hab => ?_)
  have ha := (List.mem_filter.1 ha).2
  have hb := (List.mem_filter.1 hb).2
  simp only [Bool.and_eq_true, beq_iff_eq] at ha hb
  exact hab.object_lt (ha.1.trans hb.1.symm) (ha.2.trans hb.2.symm)

/-- **The least object** of a subject and a predicate. -/
structure Least (g : Graph) (s : Term) (p : Iri) (o : Term) : Prop where
  mem : (⟨s, p, o⟩ : Triple) ∈ g
  le : ∀ o', (⟨s, p, o'⟩ : Triple) ∈ g → (Ord.compare o o').isLE = true

theorem Least.unique {o' : Term} (h : g.Least s p o) (h' : g.Least s p o') : o = o' :=
  Std.LawfulEqCmp.eq_of_compare (Std.OrientedCmp.isLE_antisymm (h.le o' h'.mem) (h'.le o h.mem))

theorem least_of_head? (h : (g.objects s p).head? = some o) : g.Least s p o := by
  obtain ⟨more, hmore⟩ := List.head?_eq_some_iff.1 h
  have hsorted := g.objects_sorted s p
  rw [hmore] at hsorted
  refine ⟨mem_objects.1 (List.mem_of_mem_head? h), fun o' ho' => ?_⟩
  have hmem := mem_objects.2 ho'
  rw [hmore, List.mem_cons] at hmem
  rcases hmem with heq | hmem
  · rw [heq, show Ord.compare o o = .eq from Term.compare_self o]
    rfl
  · rw [(List.pairwise_cons.1 hsorted).1 o' hmem]
    rfl

/-- An object makes a least one. -/
theorem exists_least (h : (⟨s, p, o⟩ : Triple) ∈ g) : ∃ o', g.Least s p o' := by
  have hne : g.objects s p ≠ [] := List.ne_nil_of_mem (mem_objects.2 h)
  exact ⟨_, least_of_head? (List.head?_eq_some_head hne)⟩

end Graph

namespace SubjectIndex

variable {g : Graph} {s : Term} {p : Iri}

/-- **The object that is looked up** is the least one. -/
theorem object?_eq_some_iff {o : Term} : (ofGraph g).object? s p = some o ↔ g.Least s p o := by
  rw [object?_ofGraph]
  constructor
  · exact Graph.least_of_head?
  · intro h
    have hne : g.objects s p ≠ [] := List.ne_nil_of_mem (Graph.mem_objects.2 h.mem)
    have hhead := List.head?_eq_some_head hne
    rw [hhead, h.unique (Graph.least_of_head? hhead)]

theorem object?_eq_none_iff : (ofGraph g).object? s p = none ↔ ∀ o, (⟨s, p, o⟩ : Triple) ∉ g := by
  rw [object?_ofGraph, List.head?_eq_none_iff, List.eq_nil_iff_forall_not_mem]
  exact forall_congr' fun o => not_congr Graph.mem_objects

end SubjectIndex

end SchemaShapes
