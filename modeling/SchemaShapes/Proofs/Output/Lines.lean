import SchemaShapes.Proofs.Output.Grammar

/-!
# Lines that are triples

A line that is written is a triple of the grammar only if its IRIs may stand between brackets: of
what stands behind a bracket that closes too early, too much is left for the rest of a triple. So a
document has a line for each triple, and each of them a triple, or else an IRI of the graph is none
between brackets.

* `Behind`: a bracket that is still to be read.
* `enclosable_subject`, `enclosable_object`: the IRIs of a line that is a triple.
* `lines_iff`: the graphs whose documents have a triple in each line.
-/

namespace SchemaShapes.Output.NTriples

/-! ## Triples that are read -/

/-- A part without brackets ends before the bracket. -/
theorem exists_eq_append {cs rest before tail : List Char} (hcs : '>' ∉ cs)
    (heq : cs ++ rest = before ++ '>' :: tail) :
    ∃ more, before = cs ++ more ∧ rest = more ++ '>' :: tail := by
  rcases List.append_eq_append_iff.1 heq with ⟨more, rfl, hrest⟩ | ⟨more, rfl, hrest⟩
  · exact ⟨more, rfl, hrest⟩
  · cases more with
    | nil => exact ⟨[], by simp, hrest.symm⟩
    | cons c more =>
      obtain ⟨rfl, -⟩ := List.cons.inj hrest
      simp at hcs

/-- A text without brackets ends at the first bracket: this one, or one before it. -/
theorem bracket_cases {cs rest text tail : List Char} (htext : '>' ∉ text)
    (heq : text ++ '>' :: rest = cs ++ '>' :: tail) :
    (cs = text ∧ rest = tail) ∨ ∃ more, cs = text ++ '>' :: more ∧ rest = more ++ '>' :: tail := by
  obtain ⟨more, rfl, hrest⟩ := exists_eq_append htext heq
  cases more with
  | nil => exact Or.inl ⟨List.append_nil _, (List.cons.inj hrest).2⟩
  | cons c more =>
    obtain ⟨rfl, hmore⟩ := List.cons.inj hrest
    exact Or.inr ⟨more, rfl, hmore⟩

/-- The brackets of an IRI are its first and its last character. -/
theorem IsIri.exists_text {cs : List Char} (h : IsIri cs) :
    ∃ text, IriSpelled text ∧ '>' ∉ '<' :: text ∧
      ∀ rest, cs ++ rest = ('<' :: text) ++ '>' :: rest := by
  obtain ⟨text, htext, rfl⟩ := h
  refine ⟨text, htext, ?_, by simp⟩
  rw [List.mem_cons, not_or]
  exact ⟨by decide, (unbroken_of_iriSpelled htext).1⟩

/-- **A bracket that is still to be read**, with `tail` behind it. -/
def Behind (tail cs : List Char) : Prop := ∃ before, cs = before ++ '>' :: tail

namespace Behind

variable {tail cs rest : List Char}

theorem mem (h : Behind tail cs) : '>' ∈ cs := by
  obtain ⟨before, rfl⟩ := h
  simp

theorem of_append (h : Behind tail (cs ++ rest)) (hcs : '>' ∉ cs) : Behind tail rest := by
  obtain ⟨before, heq⟩ := h
  obtain ⟨more, -, hrest⟩ := exists_eq_append hcs heq
  exact ⟨more, hrest⟩

/-- An IRI reads one bracket. -/
theorem of_iri (h : Behind tail (cs ++ rest)) (hcs : IsIri cs) :
    rest = tail ∨ Behind tail rest := by
  obtain ⟨text, -, hbracket, hread⟩ := hcs.exists_text
  obtain ⟨before, heq⟩ := h
  rw [hread] at heq
  rcases bracket_cases hbracket heq with ⟨-, rfl⟩ | ⟨more, -, hmore⟩
  · exact Or.inl rfl
  · exact Or.inr ⟨more, hmore⟩

theorem of_node (h : Behind tail (cs ++ rest)) (hcs : IsNode cs) : rest = tail ∨ Behind tail rest :=
  hcs.elim h.of_iri fun hlabel => Or.inr (h.of_append hlabel.unbroken.1)

/-- The quote that closes a text is not behind the bracket, if there is none there. -/
theorem of_text (h : Behind tail (cs ++ rest)) (hcs : IsText cs) (hquote : '"' ∉ tail) :
    Behind tail rest := by
  obtain ⟨text, -, rfl⟩ := hcs
  obtain ⟨before, heq⟩ := h
  rw [← List.cons_append, List.append_assoc, List.singleton_append] at heq
  rcases List.append_eq_append_iff.1 heq with ⟨more, -, hrest⟩ | ⟨more, -, hrest⟩
  · cases more with
    | nil => exact absurd (List.cons.inj hrest).1 (by decide)
    | cons c more => exact ⟨more, (List.cons.inj hrest).2⟩
  · cases more with
    | nil => exact absurd (List.cons.inj hrest).1 (by decide)
    | cons c more =>
      obtain ⟨-, rfl⟩ := List.cons.inj hrest
      simp at hquote

theorem of_literal (h : Behind tail (cs ++ rest)) (hcs : IsLiteral cs) (hquote : '"' ∉ tail) :
    rest = tail ∨ Behind tail rest := by
  cases hcs with
  | plain ht => exact Or.inr (h.of_text ht hquote)
  | @typed text before after datatype ht hb ha hd =>
    simp only [List.append_assoc, List.cons_append] at h
    have hcarets : Behind tail (['^', '^'] ++ (after ++ (datatype ++ rest))) :=
      (h.of_text ht hquote).of_append hb.unbroken.1
    exact ((hcarets.of_append (by decide)).of_append ha.unbroken.1).of_iri hd
  | tagged ht hb hg =>
    simp only [List.append_assoc] at h
    exact Or.inr (((h.of_text ht hquote).of_append hb.unbroken.1).of_append hg.unbroken.1)

theorem of_object (h : Behind tail (cs ++ rest)) (hcs : IsObject cs) (hquote : '"' ∉ tail) :
    rest = tail ∨ Behind tail rest :=
  hcs.elim h.of_node fun hliteral => h.of_literal hliteral hquote

end Behind

/-- **An object reads the last bracket** of its line. -/
theorem IsObjectEnd.tail_isEnd {tail cs : List Char} (h : IsObjectEnd cs) (hb : Behind tail cs)
    (hquote : '"' ∉ tail) : IsEnd tail := by
  obtain ⟨blanks, object, stop, hblanks, hobject, hend, rfl⟩ := h
  rcases (hb.of_append hblanks.unbroken.1).of_object hobject hquote with rfl | hmore
  · exact hend
  · exact absurd hmore.mem hend.unbroken.1

/-! ## The IRIs of a triple -/

/-- What does not start with a blank starts where it is written. -/
theorem eq_nil_of_blanks {blanks cs rest : List Char} {c : Char} (hb : Blanks blanks)
    (hc : ¬ (c = ' ' ∨ c = '\t')) (heq : c :: rest = blanks ++ cs) : blanks = [] := by
  cases blanks with
  | nil => rfl
  | cons d blanks =>
    obtain ⟨rfl, -⟩ := List.cons.inj heq
    exact absurd (hb c List.mem_cons_self) hc

/-- An object does not start with a blank. -/
theorem IsObject.exists_cons {cs : List Char} (h : IsObject cs) :
    ∃ c more, cs = c :: more ∧ c ∈ ['<', '_', '"'] := by
  have htext : ∀ text others, IsText text → ∃ more, text ++ others = '"' :: more := by
    rintro text others ⟨inside, -, rfl⟩
    exact ⟨_, rfl⟩
  rcases h with (⟨text, -, rfl⟩ | ⟨c, more, -, -, -, rfl⟩) | hliteral
  · exact ⟨_, _, rfl, by simp⟩
  · exact ⟨_, _, rfl, by simp⟩
  · have hquote : ∃ more, cs = '"' :: more := by
      cases hliteral with
      | plain ht => simpa using htext _ [] ht
      | typed ht => exact htext _ _ ht
      | tagged ht => exact htext _ _ ht
    obtain ⟨more, rfl⟩ := hquote
    exact ⟨_, _, rfl, by simp⟩

/-- An object that starts with a bracket is an IRI. -/
theorem IsObject.isIri {cs rest more : List Char} (h : IsObject cs)
    (heq : cs ++ rest = '<' :: more) : IsIri cs := by
  rcases h with (hiri | ⟨c, more', -, -, -, rfl⟩) | hliteral
  · exact hiri
  · exact absurd (List.cons.inj heq).1 (by decide)
  · have hquote : ∀ text others, IsText text → text ++ others ≠ '<' :: more := by
      rintro text others ⟨inside, -, rfl⟩ k
      exact absurd (List.cons.inj k).1 (by decide)
    cases hliteral with
    | plain ht => exact absurd heq (hquote _ _ ht)
    | typed ht => exact absurd ((List.append_assoc ..).symm.trans heq) (hquote _ _ ht)
    | tagged ht => exact absurd ((List.append_assoc ..).symm.trans heq) (hquote _ _ ht)

/-- **A bracket is closed** by the text behind it, or by a bracket in this text. -/
theorem IsObject.iri_cases {cs rest text tail : List Char} (h : IsObject cs)
    (heq : cs ++ rest = ('<' :: text) ++ '>' :: tail) :
    (IriSpelled text ∧ rest = tail) ∨ ('>' ∈ text ∧ Behind tail rest) := by
  obtain ⟨inside, hinside, hbracket, hread⟩ := (h.isIri heq).exists_text
  rw [hread] at heq
  rcases bracket_cases hbracket heq with ⟨hsame, rfl⟩ | ⟨more, hsame, hmore⟩
  · obtain ⟨-, rfl⟩ := List.cons.inj hsame
    exact Or.inl ⟨hinside, rfl⟩
  · rw [List.cons_append, List.cons.injEq] at hsame
    exact Or.inr ⟨by simp [hsame.2], more, hmore⟩

variable {p i j : Iri}

/-- **The subject of a triple is proper**, if the line has no quotes behind it. -/
theorem enclosable_subject (hp : '"' ∉ p.toList) (hj : '"' ∉ j.toList)
    (h : IsTriple (body ⟨.iri i, p, .iri j⟩)) : Enclosable i := by
  obtain ⟨before, subject, between, predicate, rest, hbefore, hsubject, hbetween, hpredicate,
    hrest, heq⟩ := h
  -- what is behind the brackets of the predicate and of the subject
  obtain ⟨second, hsecond⟩ : ∃ second, second = ' ' :: '<' :: (j.toList ++ '>' :: [' ', '.']) :=
    ⟨_, rfl⟩
  obtain ⟨first, hfirst⟩ : ∃ first, first = ' ' :: '<' :: (p.toList ++ '>' :: second) := ⟨_, rfl⟩
  have hquote : '"' ∉ second := by simp [hsecond, hj]
  have hquote' : '"' ∉ first := by simp [hfirst, hp, hquote]
  have hbody : body ⟨.iri i, p, .iri j⟩ = ('<' :: i.toList) ++ '>' :: first := by
    simp [body, term, hfirst, hsecond]
  rw [hbody] at heq
  obtain rfl := eq_nil_of_blanks hbefore (by decide) heq
  rcases IsObject.iri_cases (Or.inl hsubject) heq.symm with ⟨hi, -⟩ | ⟨-, hbehind⟩
  · exact hi
  · exfalso
    -- the predicate closes at the subject's bracket or before it, and too much is left
    rcases (hbehind.of_append hbetween.unbroken.1).of_iri hpredicate with rfl | hmore
    · have hobject : Behind second rest := ⟨' ' :: '<' :: p.toList, hfirst⟩
      have hend := (hrest.tail_isEnd hobject hquote).unbroken.1
      simp [hsecond] at hend
    · have hend := (hrest.tail_isEnd hmore hquote').unbroken.1
      simp [hfirst] at hend

/-- The object of a triple is proper, if it is what is left of the line. -/
theorem enclosable_of_isObjectEnd
    (h : IsObjectEnd (' ' :: '<' :: (i.toList ++ '>' :: [' ', '.']))) : Enclosable i := by
  obtain ⟨blanks, object, stop, hblanks, hobject, hend, heq⟩ := h
  have hstart : object ++ stop = ('<' :: i.toList) ++ '>' :: [' ', '.'] := by
    cases blanks with
    | nil =>
      obtain ⟨c, more, rfl, hc⟩ := hobject.exists_cons
      obtain ⟨rfl, -⟩ := List.cons.inj heq
      simp at hc
    | cons c blanks =>
      obtain ⟨-, hrest⟩ := List.cons.inj heq
      have hnil := eq_nil_of_blanks (fun d hd => hblanks d (List.mem_cons_of_mem _ hd))
        (by decide) hrest
      rw [hnil] at hrest
      exact hrest.symm
  rcases hobject.iri_cases hstart with ⟨hi, -⟩ | ⟨-, hbehind⟩
  · exact hi
  · exact absurd hbehind.mem hend.unbroken.1

/-- Behind a proper subject, the first bracket is that of the predicate. -/
theorem exists_of_subject {s : Term} (hl : ∀ l, s ≠ .literal l) (hs : ∀ i ∈ s.iris, Enclosable i)
    (hp : '>' ∉ p.toList) {before subject rest tail : List Char} (hbefore : Blanks before)
    (hsubject : IsNode subject)
    (heq : (term s).toList ++ ' ' :: '<' :: (p.toList ++ '>' :: tail) =
      before ++ (subject ++ rest)) : ∃ more, '>' ∉ more ∧ rest = more ++ '>' :: tail := by
  have hgap : '>' ∉ ' ' :: '<' :: p.toList := by simp [hp]
  cases s with
  | iri i =>
    have hstart : (term (.iri i)).toList ++ ' ' :: '<' :: (p.toList ++ '>' :: tail) =
        ('<' :: i.toList) ++ '>' :: (' ' :: '<' :: (p.toList ++ '>' :: tail)) := by simp [term]
    rw [hstart] at heq
    obtain rfl := eq_nil_of_blanks hbefore (by decide) heq
    have hi := (unbroken_of_iriSpelled (hs i (by simp [Term.iris]))).1
    rcases IsObject.iri_cases (Or.inl hsubject) heq.symm with ⟨-, rfl⟩ | ⟨hmem, -⟩
    · exact ⟨_, hgap, rfl⟩
    · exact absurd hmem hi
  | blank n =>
    rw [term, toList_blankLabel] at heq
    obtain rfl := eq_nil_of_blanks hbefore (by decide) heq
    rcases hsubject with ⟨text, -, rfl⟩ | hlabel
    · exact absurd (List.cons.inj heq).1 (by decide)
    · -- neither label has a bracket, so the first one is in what is left
      have hlabel' := (isLabel_blankLabel n).unbroken.1
      rw [toList_blankLabel] at hlabel'
      have hread : subject ++ rest = (('_' :: ':' :: 'b' :: (toString n).toList) ++
          ' ' :: '<' :: p.toList) ++ '>' :: tail := by
        simpa using heq.symm
      obtain ⟨more, hmore, hrest⟩ := exists_eq_append hlabel.unbroken.1 hread
      refine ⟨more, fun hmem => ?_, hrest⟩
      have hin := hmore ▸ List.mem_append_right subject hmem
      rcases List.mem_append.1 hin with hin | hin
      · exact hlabel' hin
      · exact hgap hin
  | literal l => exact absurd rfl (hl l)

/-- **The object of a triple is proper**, if the subject is. -/
theorem enclosable_object {s : Term} (hl : ∀ l, s ≠ .literal l)
    (hs : ∀ i ∈ s.iris, Enclosable i) (hp : '>' ∉ p.toList)
    (h : IsTriple (body ⟨s, p, .iri j⟩)) : Enclosable j := by
  obtain ⟨before, subject, between, predicate, rest, hbefore, hsubject, hbetween, hpredicate,
    hrest, heq⟩ := h
  have hbody : body ⟨s, p, .iri j⟩ = (term s).toList ++ ' ' :: '<' :: (p.toList ++
      '>' :: (' ' :: '<' :: (j.toList ++ '>' :: [' ', '.']))) := by
    simp [body, term]
  rw [hbody] at heq
  obtain ⟨more, hmore, hread⟩ := exists_of_subject hl hs hp hbefore hsubject heq
  -- the predicate closes at this bracket, and leaves the object
  obtain ⟨more', rfl, hread'⟩ := exists_eq_append hbetween.unbroken.1 hread
  obtain ⟨text, -, hbracket, hiri⟩ := hpredicate.exists_text
  rw [hiri] at hread'
  rcases bracket_cases hbracket hread' with ⟨-, rfl⟩ | ⟨after, rfl, -⟩
  · exact enclosable_of_isObjectEnd hrest
  · simp at hmore

/-! ## Documents -/

theorem toList_render (g : Graph) :
    (render g).toList = g.toList.flatMap fun t => body t ++ ['\n'] := by
  rw [render, String.toList_join, List.flatMap_map]
  simp only [toList_line]

/-- A text has as many lines as ends of lines. -/
theorem length_of_lines? {cs : List Char} {ls : List (List Char)} (h : lines? cs = some ls) :
    ls.length = cs.count '\n' := by
  induction cs generalizing ls with
  | nil => cases h; rfl
  | cons c cs ih =>
    rw [lines?] at h
    by_cases hc : c = '\n'
    · rw [if_pos hc] at h
      obtain ⟨more, hmore, rfl⟩ := Option.map_eq_some_iff.1 h
      rw [List.length_cons, ih hmore, hc, List.count_cons_self]
    · rw [if_neg hc] at h
      rw [List.count_cons_of_ne hc]
      split at h
      · rename_i l more hmore
        cases h
        have hcount := ih hmore
        rwa [List.length_cons] at hcount ⊢
      · cases h

/-- If there are no more ends of lines than pieces, then no piece has one inside. -/
theorem newline_not_mem_of_count {as : List (List Char)}
    (h : (as.flatMap fun a => a ++ ['\n']).count '\n' ≤ as.length) : ∀ a ∈ as, '\n' ∉ a := by
  -- each piece brings the end of its own line, so there is no room for another
  have hmany : ∀ bs : List (List Char),
      bs.length ≤ (bs.flatMap fun a => a ++ ['\n']).count '\n' := by
    intro bs
    induction bs with
    | nil => simp
    | cons b bs ih =>
      simp only [List.flatMap_cons, List.count_append, List.count_singleton_self, List.length_cons]
      omega
  induction as with
  | nil => simp
  | cons a as ih =>
    have hrest := hmany as
    simp only [List.flatMap_cons, List.count_append, List.count_singleton_self,
      List.length_cons] at h
    have ha : a.count '\n' = 0 := by omega
    exact List.forall_mem_cons.2 ⟨List.count_eq_zero.1 ha, ih (by omega)⟩

/-- **A document with a line for each triple** has the line of each triple. -/
theorem lines_eq_map_body {g : Graph} {ls : List (List Char)}
    (h : lines? (render g).toList = some ls) (hlength : ls.length = g.size) :
    ls = g.toList.map body := by
  have hchars : (render g).toList = (g.toList.map body).flatMap fun a => a ++ ['\n'] := by
    rw [toList_render, List.flatMap_map]
  have hcount := length_of_lines? h
  rw [hchars] at hcount
  have hnone : ∀ a ∈ g.toList.map body, '\n' ∉ a := by
    refine newline_not_mem_of_count ?_
    rw [← hcount, hlength, List.length_map]
    exact Nat.le_refl _
  rw [toList_render] at h
  have hread : lines? (g.toList.flatMap fun t => body t ++ ['\n']) = some (g.toList.map body) :=
    lines?_flatMap fun t ht => hnone _ (List.mem_map_of_mem ht)
  exact Option.some.inj (h.symm.trans hread)

/-- **A graph whose vocabulary is proper**: predicates and datatypes need no escape, and an IRI that
is a subject has an edge to one that needs none. -/
structure Proper (g : Graph) : Prop where
  subject : ∀ t ∈ g, ∀ l, t.subject ≠ .literal l
  predicate : ∀ t ∈ g, PlainIri t.predicate
  datatype : ∀ t ∈ g, ∀ l, t.object = .literal l → ∀ d ∈ l.datatype, PlainIri d
  anchor : ∀ t ∈ g, ∀ i, t.subject = .iri i →
    ∃ p j, PlainIri j ∧ (⟨.iri i, p, .iri j⟩ : Triple) ∈ g

/-- If each line of a graph is a triple, then its IRIs may stand between brackets. -/
theorem Proper.enclosable {g : Graph} (h : Proper g) (hlines : ∀ t ∈ g, IsTriple (body t)) :
    ∀ t ∈ g, ∀ i ∈ t.iris, Enclosable i := by
  -- the subjects first, from their anchors: an object needs that its subject is proper
  have hsubject : ∀ t ∈ g, ∀ i ∈ t.subject.iris, Enclosable i := by
    rintro ⟨s, q, o⟩ ht i hi
    cases s with
    | iri x =>
      obtain ⟨p, j, hj, hanchor⟩ := h.anchor _ ht x rfl
      rw [List.mem_singleton.1 hi]
      have hp : '"' ∉ p.toList := PlainIri.notMem (h.predicate _ hanchor) (by decide)
      have hquote : '"' ∉ j.toList := PlainIri.notMem hj (by decide)
      exact enclosable_subject hp hquote (hlines _ hanchor)
    | blank n => cases hi
    | literal l => exact absurd rfl (h.subject _ ht l)
  rintro ⟨s, p, o⟩ ht i hi
  rcases List.mem_append.1 hi with hi | hi
  · exact hsubject _ ht i hi
  · rcases List.mem_cons.1 hi with rfl | hi
    · exact PlainIri.enclosable (h.predicate _ ht)
    · cases o with
      | iri j =>
        rw [List.mem_singleton.1 hi]
        have hp : '>' ∉ p.toList := PlainIri.notMem (h.predicate _ ht) (by decide)
        exact enclosable_object (h.subject _ ht) (hsubject _ ht) hp (hlines _ ht)
      | blank n => cases hi
      | literal l =>
        have hd : i ∈ l.datatype := by simpa [Term.iris] using hi
        exact PlainIri.enclosable (h.datatype _ ht l rfl i hd)

/-- **Documents with a triple in each line.** These are the documents of the graphs whose IRIs may
stand between brackets; then each triple has its line. -/
theorem lines_iff {g : Graph} (h : Proper g) :
    (∃ ls, lines? (render g).toList = some ls ∧ ls.length = g.size ∧ ∀ l ∈ ls, IsTriple l) ↔
      ∀ t ∈ g, ∀ i ∈ t.iris, Enclosable i := by
  constructor
  · rintro ⟨ls, hread, hlength, hall⟩
    obtain rfl := lines_eq_map_body hread hlength
    exact h.enclosable fun t ht => hall _ (List.mem_map_of_mem ht)
  · intro hiris
    have hline : ∀ t ∈ g.toList, IsTriple (body t) :=
      fun t ht => isTriple_body (h.subject t ht) (hiris t ht)
    refine ⟨g.toList.map body, ?_, List.length_map .., ?_⟩
    · rw [toList_render]
      exact lines?_flatMap fun t ht => (hline t ht).newline_not_mem
    · intro l hl
      obtain ⟨t, ht, rfl⟩ := List.mem_map.1 hl
      exact hline t ht

end SchemaShapes.Output.NTriples
