import SchemaShapes.Proofs.Output.NTriples

/-!
# The grammar of N-Triples

The productions of N-Triples, as sets of texts. A triple of the grammar stands on one line. What is
written of a triple is one, whatever its texts are, if its IRIs may stand between brackets.

* `IsTriple`: a triple of the grammar, with blanks between its parts.
* `Enclosable`: the IRIs that may stand between brackets.
* `IsTriple.newline_not_mem`: a triple of the grammar stands on one line.
* `isTriple_body`: a line whose IRIs may stand between brackets is a triple.
-/

namespace SchemaShapes.Output.NTriples

open Json.Token (hexDigit?)
open Number (isDigit)

/-! ## Productions -/

/-- **How characters are spelled**: as themselves if they are `plain`, by an escape of one letter,
or by the digits of their code points. -/
inductive Spelled (plain letter : Char → Bool) : List Char → Prop
  | nil : Spelled plain letter []
  | plain {x : Char} {text : List Char} (hx : plain x = true) (h : Spelled plain letter text) :
    Spelled plain letter (x :: text)
  | letter {x : Char} {text : List Char} (hx : letter x = true) (h : Spelled plain letter text) :
    Spelled plain letter ('\\' :: x :: text)
  | code {x : Char} {digits text : List Char} (hx : (x, digits.length) ∈ [('u', 4), ('U', 8)])
    (hd : ∀ d ∈ digits, hexDigit? d ≠ none) (h : Spelled plain letter text) :
    Spelled plain letter ('\\' :: x :: (digits ++ text))

/-- The text of an IRI between its brackets. -/
abbrev IriSpelled : List Char → Prop := Spelled isIriChar fun _ => false

/-- **An IRI that may stand between brackets.** -/
def Enclosable (i : Iri) : Prop := IriSpelled i.toList

/-- `IRIREF` -/
def IsIri (cs : List Char) : Prop := ∃ text, IriSpelled text ∧ cs = '<' :: (text ++ ['>'])

/-- `BLANK_NODE_LABEL` -/
def IsLabel (cs : List Char) : Prop :=
  ∃ c more, (isLetter c = true ∨ isDigit c = true ∨ c ∈ ['_', ':']) ∧
    (∀ d ∈ more, isNameChar d = true ∨ d = '.') ∧ more.getLast? ≠ some '.' ∧
    cs = '_' :: ':' :: c :: more

/-- `STRING_LITERAL_QUOTE` -/
def IsText (cs : List Char) : Prop :=
  ∃ text, Spelled isTextChar (fun c => (letterEscape? c).isSome) text ∧
    cs = '"' :: (text ++ ['"'])

/-- The letters of tags. -/
def isTagLetter (c : Char) : Bool := ('a' ≤ c && c ≤ 'z') || ('A' ≤ c && c ≤ 'Z')

/-- `LANGTAG` -/
def IsTag (cs : List Char) : Prop :=
  ∃ (first : List Char) (parts : List (List Char)), first ≠ [] ∧
    (∀ c ∈ first, isTagLetter c = true) ∧
    (∀ part ∈ parts, part ≠ [] ∧ ∀ c ∈ part, isTagLetter c = true ∨ isDigit c = true) ∧
    cs = '@' :: (first ++ parts.flatMap fun part => '-' :: part)

/-- Blanks and tabs, or nothing. -/
def Blanks (cs : List Char) : Prop := ∀ c ∈ cs, c = ' ' ∨ c = '\t'

/-- `literal` -/
inductive IsLiteral : List Char → Prop
  | plain {text : List Char} (ht : IsText text) : IsLiteral text
  | typed {text before after datatype : List Char} (ht : IsText text) (hb : Blanks before)
    (ha : Blanks after) (hd : IsIri datatype) :
    IsLiteral (text ++ (before ++ ('^' :: '^' :: (after ++ datatype))))
  | tagged {text before tag : List Char} (ht : IsText text) (hb : Blanks before) (hg : IsTag tag) :
    IsLiteral (text ++ (before ++ tag))

/-- `subject` -/
def IsNode (cs : List Char) : Prop := IsIri cs ∨ IsLabel cs

/-- `object` -/
def IsObject (cs : List Char) : Prop := IsNode cs ∨ IsLiteral cs

/-- The dot that ends a triple. -/
def IsEnd (cs : List Char) : Prop :=
  ∃ before after, Blanks before ∧ Blanks after ∧ cs = before ++ '.' :: after

/-- An object, and the end of its triple. -/
def IsObjectEnd (cs : List Char) : Prop :=
  ∃ blanks object stop, Blanks blanks ∧ IsObject object ∧ IsEnd stop ∧
    cs = blanks ++ (object ++ stop)

/-- `triple`, with blanks between its parts. -/
def IsTriple (cs : List Char) : Prop :=
  ∃ before subject between predicate rest, Blanks before ∧ IsNode subject ∧ Blanks between ∧
    IsIri predicate ∧ IsObjectEnd rest ∧
    cs = before ++ (subject ++ (between ++ (predicate ++ rest)))

/-! ## What is spelled -/

/-- A character that is not plain, and plays no part in an escape, is not spelled. -/
theorem Spelled.notMem {plain letter : Char → Bool} {c : Char} (hplain : plain c = false)
    (hletter : letter c = false) (hescape : c ∉ ['\\', 'u', 'U']) (hdigit : hexDigit? c = none)
    {text : List Char} (h : Spelled plain letter text) : c ∉ text := by
  have hne : ∀ d, d ∈ ['\\', 'u', 'U'] → c ≠ d := fun d hd heq => hescape (heq ▸ hd)
  induction h with
  | nil => simp
  | plain hx _ ih =>
    rw [List.mem_cons, not_or]
    exact ⟨by rintro rfl; simp [hplain] at hx, ih⟩
  | letter hx _ ih =>
    rw [List.mem_cons, List.mem_cons, not_or, not_or]
    exact ⟨hne _ (by simp), by rintro rfl; simp [hletter] at hx, ih⟩
  | @code x digits text hx hd _ ih =>
    rw [List.mem_cons, List.mem_cons, List.mem_append, not_or, not_or, not_or]
    have hxmem : x ∈ ['\\', 'u', 'U'] := by
      simp only [List.mem_cons, Prod.mk.injEq, List.not_mem_nil, or_false] at hx
      rcases hx with ⟨rfl, -⟩ | ⟨rfl, -⟩ <;> simp
    exact ⟨hne _ (by simp), hne _ hxmem, fun hc => hd c hc hdigit, ih⟩

/-- A part without brackets, on one line. -/
def Unbroken (cs : List Char) : Prop := '>' ∉ cs ∧ '\n' ∉ cs

theorem unbroken_of_forall {cs : List Char} (h : ∀ c ∈ cs, c ≠ '>' ∧ c ≠ '\n') : Unbroken cs :=
  ⟨fun hmem => (h _ hmem).1 rfl, fun hmem => (h _ hmem).2 rfl⟩

/-- Characters of a class that has no bracket and no end of line. -/
theorem ne_of_class {p : Char → Bool} (hbracket : p '>' = false) (hline : p '\n' = false)
    {c : Char} (hc : p c = true) : c ≠ '>' ∧ c ≠ '\n' := by
  constructor
  · rintro rfl
    rw [hbracket] at hc
    cases hc
  · rintro rfl
    rw [hline] at hc
    cases hc

theorem Unbroken.cons {c : Char} {cs : List Char} (hc : c ≠ '>' ∧ c ≠ '\n') (h : Unbroken cs) :
    Unbroken (c :: cs) := by
  simp only [Unbroken, List.mem_cons, not_or]
  exact ⟨⟨hc.1.symm, h.1⟩, hc.2.symm, h.2⟩

theorem Unbroken.append {cs ds : List Char} (h : Unbroken cs) (k : Unbroken ds) :
    Unbroken (cs ++ ds) := by
  simp only [Unbroken, List.mem_append, not_or]
  exact ⟨⟨h.1, k.1⟩, h.2, k.2⟩

theorem unbroken_of_iriSpelled {text : List Char} (h : IriSpelled text) : Unbroken text :=
  ⟨h.notMem (by decide) rfl (by decide) (by decide),
    h.notMem (by decide) rfl (by decide) (by decide)⟩

theorem Blanks.unbroken {cs : List Char} (h : Blanks cs) : Unbroken cs :=
  unbroken_of_forall fun c hc => by rcases h c hc with rfl | rfl <;> decide

theorem IsLabel.unbroken {cs : List Char} (h : IsLabel cs) : Unbroken cs := by
  obtain ⟨c, more, hc, hmore, -, rfl⟩ := h
  refine Unbroken.cons (by decide) (Unbroken.cons (by decide) (unbroken_of_forall ?_))
  refine List.forall_mem_cons.2 ⟨?_, fun d hd => ?_⟩
  · rcases hc with hc | hc | hc
    · exact ne_of_class (by decide) (by decide) hc
    · exact ne_of_class (by decide) (by decide) hc
    · simp only [List.mem_cons, List.not_mem_nil, or_false] at hc
      rcases hc with rfl | rfl <;> decide
  · rcases hmore d hd with hd | rfl
    · exact ne_of_class (by decide) (by decide) hd
    · decide

theorem IsTag.unbroken {cs : List Char} (h : IsTag cs) : Unbroken cs := by
  obtain ⟨first, parts, -, hfirst, hparts, rfl⟩ := h
  have hletter : ∀ c, isTagLetter c = true → c ≠ '>' ∧ c ≠ '\n' :=
    fun c => ne_of_class (by decide) (by decide)
  have hdigit : ∀ c, isDigit c = true → c ≠ '>' ∧ c ≠ '\n' :=
    fun c => ne_of_class (by decide) (by decide)
  refine Unbroken.cons (by decide) (Unbroken.append ?_ ?_)
  · exact unbroken_of_forall fun c hc => hletter c (hfirst c hc)
  · refine unbroken_of_forall fun c hc => ?_
    obtain ⟨part, hpart, hc⟩ := List.mem_flatMap.1 hc
    rcases List.mem_cons.1 hc with rfl | hc
    · decide
    · exact ((hparts part hpart).2 c hc).elim (hletter c) (hdigit c)

theorem IsEnd.unbroken {cs : List Char} (h : IsEnd cs) : Unbroken cs := by
  obtain ⟨before, after, hb, ha, rfl⟩ := h
  exact hb.unbroken.append (Unbroken.cons (by decide) ha.unbroken)

/-! ## One line -/

theorem IsIri.newline_not_mem {cs : List Char} (h : IsIri cs) : '\n' ∉ cs := by
  obtain ⟨text, htext, rfl⟩ := h
  simp [(unbroken_of_iriSpelled htext).2]

theorem IsText.newline_not_mem {cs : List Char} (h : IsText cs) : '\n' ∉ cs := by
  obtain ⟨text, htext, rfl⟩ := h
  have hinside : '\n' ∉ text := htext.notMem (by decide) (by decide) (by decide) (by decide)
  simp [hinside]

theorem IsNode.newline_not_mem {cs : List Char} (h : IsNode cs) : '\n' ∉ cs :=
  h.elim IsIri.newline_not_mem fun hlabel => hlabel.unbroken.2

theorem IsLiteral.newline_not_mem {cs : List Char} (h : IsLiteral cs) : '\n' ∉ cs := by
  cases h with
  | plain ht => exact ht.newline_not_mem
  | typed ht hb ha hd =>
    simp [ht.newline_not_mem, hb.unbroken.2, ha.unbroken.2, hd.newline_not_mem]
  | tagged ht hb hg => simp [ht.newline_not_mem, hb.unbroken.2, hg.unbroken.2]

/-- **A triple stands on one line**, whatever its texts are. -/
theorem IsTriple.newline_not_mem {cs : List Char} (h : IsTriple cs) : '\n' ∉ cs := by
  obtain ⟨before, subject, between, predicate, rest, hbefore, hsubject, hbetween, hpredicate,
    ⟨blanks, object, stop, hblanks, hobject, hstop, rfl⟩, rfl⟩ := h
  have hobject' : '\n' ∉ object := hobject.elim IsNode.newline_not_mem IsLiteral.newline_not_mem
  simp [hbefore.unbroken.2, hsubject.newline_not_mem, hbetween.unbroken.2,
    hpredicate.newline_not_mem, hblanks.unbroken.2, hobject', hstop.unbroken.2]

/-! ## Lines that are written -/

/-- Characters that all are plain spell themselves. -/
theorem spelled_of_plain {plain letter : Char → Bool} {text : List Char}
    (h : ∀ c ∈ text, plain c = true) : Spelled plain letter text := by
  induction text with
  | nil => exact .nil
  | cons c text ih =>
    rw [List.forall_mem_cons] at h
    exact .plain h.1 (ih h.2)

theorem PlainIri.notMem {i : Iri} (h : PlainIri i) {c : Char} (hc : isIriChar c = false) :
    c ∉ i.toList := by
  intro hmem
  rw [h c hmem] at hc
  cases hc

/-- IRIs that need no escape may stand between brackets. -/
theorem PlainIri.enclosable {i : Iri} (h : PlainIri i) : Enclosable i := spelled_of_plain h

/-- An escaped text is spelled. -/
theorem spelled_escape (s : List Char) :
    Spelled isTextChar (fun c => (letterEscape? c).isSome) (s.flatMap escapeChar) := by
  induction s with
  | nil => exact .nil
  | cons c s ih =>
    rw [List.flatMap_cons]
    rcases escapeChar_cases c with ⟨x, hx, -, -, he⟩ | ⟨hc, he⟩
    · rw [he]
      exact .letter (by rw [hx]; rfl) ih
    · rw [he]
      exact .plain hc ih

theorem isIri_toList {i : Iri} (h : Enclosable i) : IsIri ('<' :: (i.toList ++ ['>'])) :=
  ⟨i.toList, h, rfl⟩

theorem isLabel_blankLabel (n : Nat) : IsLabel (Term.blankLabel n).toList := by
  have hdigits : ∀ d ∈ (toString n).toList, d.isDigit = true := by
    intro d hd
    rw [Nat.toString_eq_repr, Nat.toList_repr] at hd
    exact Nat.isDigit_of_mem_toDigits (by decide) (by decide) hd
  refine ⟨'b', _, Or.inl (by decide), fun d hd => Or.inl ?_, fun hlast => ?_, toList_blankLabel n⟩
  · exact isNameChar_of_isDigit (hdigits d hd)
  · have hdot := hdigits '.' (List.mem_of_getLast? hlast)
    exact absurd hdot (by decide)

theorem isText_quoted (s : String) : IsText (quoted s).toList :=
  ⟨_, spelled_escape s.toList, toList_quoted s⟩

theorem isNode_term {t : Term} (hl : ∀ l, t ≠ .literal l) (h : ∀ i ∈ t.iris, Enclosable i) :
    IsNode (term t).toList := by
  cases t with
  | iri i =>
    have hchars : (term (.iri i)).toList = '<' :: (i.toList ++ ['>']) := by simp [term]
    rw [hchars]
    exact Or.inl (isIri_toList (h i (by simp [Term.iris])))
  | blank n => exact Or.inr (isLabel_blankLabel n)
  | literal l => exact absurd rfl (hl l)

theorem isObject_term {t : Term} (h : ∀ i ∈ t.iris, Enclosable i) : IsObject (term t).toList := by
  cases t with
  | iri i => exact Or.inl (isNode_term (by simp) h)
  | blank n => exact Or.inl (isNode_term (by simp) h)
  | literal l =>
    obtain ⟨s, d⟩ := l
    cases d with
    | none => exact Or.inr (.plain (isText_quoted s))
    | some d =>
      have hchars : (term (.literal ⟨s, some d⟩)).toList =
          (quoted s).toList ++ ([] ++ ('^' :: '^' :: ([] ++ ('<' :: (d.toList ++ ['>']))))) := by
        simp [term]
      rw [hchars]
      exact Or.inr (.typed (isText_quoted s) (by simp [Blanks]) (by simp [Blanks])
        (isIri_toList (h d (by simp [Term.iris]))))

theorem isEnd_dot : IsEnd [' ', '.'] := ⟨[' '], [], by simp [Blanks], by simp [Blanks], rfl⟩

/-- **A line is a triple** if its subject is no literal and its IRIs may stand between brackets. -/
theorem isTriple_body {t : Triple} (hl : ∀ l, t.subject ≠ .literal l)
    (h : ∀ i ∈ t.iris, Enclosable i) : IsTriple (body t) := by
  have hsubject := isNode_term hl fun i hi => h i (List.mem_append_left _ hi)
  have hpredicate := isIri_toList (h t.predicate (List.mem_append_right _ List.mem_cons_self))
  have hobject := isObject_term fun i hi =>
    h i (List.mem_append_right _ (List.mem_cons_of_mem _ hi))
  have hblank : Blanks [' '] := by simp [Blanks]
  refine ⟨[], _, [' '], _, _, by simp [Blanks], hsubject, hblank, hpredicate,
    ⟨[' '], _, _, hblank, hobject, isEnd_dot, rfl⟩, ?_⟩
  simp [body]

end SchemaShapes.Output.NTriples
