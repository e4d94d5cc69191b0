import SchemaShapes.Rdf.Term

/-!
# Graphs

A graph is a set of triples, held as the list of them in their order. Two graphs with the same
triples are the same graph.

* `dropRepeats_ordered`: a list in order, less its repeats, is strictly in order.
* `mem_extend`: what a graph holds after it has taken in a list of triples.
* `Graph.eq_of_mem_iff`: a graph is determined by its triples.
-/

namespace SchemaShapes

/-- Strictly before, in the order of triples. -/
abbrev Triple.Before (a b : Triple) : Prop := Triple.compare a b = .lt

/-- Before or equal, in the order of triples. -/
def Triple.le (a b : Triple) : Bool := (Triple.compare a b).isLE

theorem Triple.le_trans (a b c : Triple) (h : a.le b = true) (k : b.le c = true) :
    a.le c = true :=
  show (Ord.compare a c).isLE = true from Std.TransCmp.isLE_trans (b := b) h k

theorem Triple.le_total (a b : Triple) : (a.le b || b.le a) = true := by
  have h : Triple.compare a b = (Triple.compare b a).swap :=
    show Ord.compare a b = (Ord.compare b a).swap from Std.OrientedCmp.eq_swap
  unfold Triple.le
  rw [h]
  cases Triple.compare b a <;> rfl

theorem Triple.before_of_le_of_ne {a b : Triple} (h : a.le b = true) (k : a ≠ b) : a.Before b := by
  have eq : Triple.compare a b = .eq → a = b :=
    fun h => Std.LawfulEqCmp.eq_of_compare (show Ord.compare a b = .eq from h)
  unfold Triple.le at h
  cases hc : Triple.compare a b with
  | lt => exact hc
  | eq => exact absurd (eq hc) k
  | gt => rw [hc] at h; cases h

theorem Triple.before_of_le_of_before {a b c : Triple} (h : a.le b = true) (k : b.Before c) :
    a.Before c :=
  show Ord.compare a c = .lt from Std.TransCmp.lt_of_isLE_of_lt (b := b) h k

theorem Triple.not_before_self (a : Triple) : ¬ a.Before a := by
  have h : Triple.compare a a = .eq := show Ord.compare a a = .eq from Std.ReflCmp.compare_self
  intro k
  exact absurd (h.symm.trans k) (by decide)

/-- A list without the elements that repeat the one before them. -/
def dropRepeats (ts : List Triple) : List Triple :=
  ts.foldr
    (fun t rest =>
      match rest with
      | [] => [t]
      | u :: _ => if t = u then rest else t :: rest) []

theorem dropRepeats_cons (t : Triple) (ts : List Triple) :
    dropRepeats (t :: ts) =
      match dropRepeats ts with
      | [] => [t]
      | u :: us => if t = u then u :: us else t :: u :: us := by
  show (match dropRepeats ts with
    | [] => [t]
    | u :: _ => if t = u then dropRepeats ts else t :: dropRepeats ts) = _
  cases dropRepeats ts <;> rfl

theorem eq_nil_of_dropRepeats_eq_nil {ts : List Triple} (h : dropRepeats ts = []) : ts = [] := by
  cases ts with
  | nil => rfl
  | cons t ts =>
    rw [dropRepeats_cons] at h
    cases hd : dropRepeats ts with
    | nil => rw [hd] at h; cases h
    | cons u us =>
      rw [hd] at h
      by_cases e : t = u <;> simp [e] at h

@[simp] theorem mem_dropRepeats {t : Triple} {ts : List Triple} : t ∈ dropRepeats ts ↔ t ∈ ts := by
  induction ts with
  | nil => rfl
  | cons a ts ih =>
    rw [dropRepeats_cons]
    cases h : dropRepeats ts with
    | nil => simp [eq_nil_of_dropRepeats_eq_nil h]
    | cons u us =>
      rw [h] at ih
      by_cases e : a = u
      · simp only [e, if_true, List.mem_cons] at ih ⊢
        constructor
        · intro k; exact Or.inr (ih.1 k)
        · rintro (k | k)
          · exact Or.inl k
          · exact ih.2 k
      · simp only [e, if_false, List.mem_cons] at ih ⊢
        rw [ih]

/-- **Strictly in order.** A list in order is strictly in order once its repeats are gone. -/
theorem dropRepeats_ordered {ts : List Triple} (h : ts.Pairwise fun a b => a.le b = true) :
    (dropRepeats ts).Pairwise Triple.Before := by
  induction ts with
  | nil => exact List.Pairwise.nil
  | cons a ts ih =>
    rw [List.pairwise_cons] at h
    have tail := ih h.2
    rw [dropRepeats_cons]
    cases hd : dropRepeats ts with
    | nil => simp
    | cons u us =>
      rw [hd] at tail
      by_cases e : a = u
      · simp only [e, if_true]; exact tail
      · simp only [e, if_false]
        have hu : a.Before u :=
          Triple.before_of_le_of_ne (h.1 u (mem_dropRepeats.1 (by rw [hd]; simp))) e
        refine List.pairwise_cons.2 ⟨fun c hc => ?_, tail⟩
        rcases List.mem_cons.1 hc with rfl | hc
        · exact hu
        · have := (List.pairwise_cons.1 tail).1 c hc
          exact Triple.before_of_le_of_before
            (h.1 u (mem_dropRepeats.1 (by rw [hd]; simp))) this

/-- **A graph**: a set of triples. -/
structure Graph where
  /-- The triples in their order. -/
  toList : List Triple
  ordered : toList.Pairwise Triple.Before

namespace Graph

/-- The graph without triples. -/
def empty : Graph := ⟨[], List.Pairwise.nil⟩

instance : Inhabited Graph := ⟨empty⟩

instance : DecidableEq Graph := fun g h =>
  if e : g.toList = h.toList then isTrue (by cases g; cases h; cases e; rfl)
  else isFalse fun k => e (by rw [k])

instance : Membership Triple Graph := ⟨fun g t => t ∈ g.toList⟩

theorem mem_toList {g : Graph} {t : Triple} : t ∈ g.toList ↔ t ∈ g := Iff.rfl

theorem le_of_ordered (g : Graph) : g.toList.Pairwise fun a b => a.le b = true :=
  g.ordered.imp fun h => by unfold Triple.le; rw [h]; rfl

/-- **Taking in** a list of triples. -/
def extend (g : Graph) (ts : List Triple) : Graph :=
  ⟨dropRepeats (g.toList.merge (ts.mergeSort Triple.le) Triple.le),
    dropRepeats_ordered (List.pairwise_merge Triple.le_trans Triple.le_total _ _ g.le_of_ordered
      (List.pairwise_mergeSort Triple.le_trans Triple.le_total ts))⟩

@[simp] theorem mem_extend {g : Graph} {ts : List Triple} {t : Triple} :
    t ∈ g.extend ts ↔ t ∈ g ∨ t ∈ ts := by
  show t ∈ dropRepeats _ ↔ _
  simp [List.mem_merge, List.mem_mergeSort, mem_toList]

/-- The graph of a list of triples. -/
def ofList (ts : List Triple) : Graph := empty.extend ts

@[simp] theorem mem_ofList {ts : List Triple} {t : Triple} : t ∈ ofList ts ↔ t ∈ ts := by
  unfold ofList
  rw [mem_extend]
  exact or_iff_right fun h => by cases h

/-- **A graph is determined by its triples.** -/
theorem eq_of_mem_iff {g h : Graph} (e : ∀ t, t ∈ g ↔ t ∈ h) : g = h := by
  obtain ⟨gs, go⟩ := g
  obtain ⟨hs, ho⟩ := h
  have key : gs = hs := by
    replace e : ∀ t, t ∈ gs ↔ t ∈ hs := e
    induction gs generalizing hs with
    | nil => exact (List.eq_nil_iff_forall_not_mem.2 fun t h => by simpa using (e t).2 h).symm
    | cons a gs ih =>
      cases hs with
      | nil => exact absurd ((e a).1 (by simp)) (by simp)
      | cons b hs =>
        have ga := List.pairwise_cons.1 go
        have hb := List.pairwise_cons.1 ho
        have asymm : ∀ {x y : Triple}, x.Before y → ¬ y.Before x := fun {x y} h k =>
          Triple.not_before_self x
            (show Ord.compare x x = .lt from Std.TransCmp.lt_trans (b := y) h k)
        have ab : a = b := by
          rcases List.mem_cons.1 ((e a).1 (by simp)) with h | h
          · exact h
          · rcases List.mem_cons.1 ((e b).2 (by simp)) with k | k
            · exact k.symm
            · exact absurd (hb.1 a h) (asymm (ga.1 b k))
        subst ab
        have := ih ga.2 hs hb.2 fun t => by
          constructor
          · intro h
            rcases List.mem_cons.1 ((e t).1 (List.mem_cons_of_mem _ h)) with k | k
            · exact absurd (k ▸ ga.1 t h) (Triple.not_before_self _)
            · exact k
          · intro h
            rcases List.mem_cons.1 ((e t).2 (List.mem_cons_of_mem _ h)) with k | k
            · exact absurd (k ▸ hb.1 t h) (Triple.not_before_self _)
            · exact k
        rw [this]
  subst key
  rfl

/-- How many triples there are. -/
def size (g : Graph) : Nat := g.toList.length

/-- Whether there are no triples. -/
def isEmpty (g : Graph) : Bool := g.toList.isEmpty

/-- Whether a triple is there. -/
def contains (g : Graph) (t : Triple) : Bool := g.toList.contains t

/-- Adds a triple, and says whether it is new. -/
def insert (g : Graph) (t : Triple) : Bool × Graph :=
  if g.contains t then (false, g) else (true, g.extend [t])

/-- The objects of a subject and a predicate, in order. -/
def objects (g : Graph) (subject : Term) (predicate : Iri) : List Term :=
  (g.toList.filter fun t => t.subject == subject && t.predicate == predicate).map (·.object)

/-- The subjects of a predicate and an object, in order. -/
def subjects (g : Graph) (predicate : Iri) (object : Term) : List Term :=
  (g.toList.filter fun t => t.predicate == predicate && t.object == object).map (·.subject)

end Graph

end SchemaShapes
