import SchemaShapes.Output.NTriples
import SchemaShapes.Proofs.Outcome
import SchemaShapes.Proofs.Output.Words
import SchemaShapes.Proofs.Rdf.Index

/-!
# N-Triples read back

A document is a sequence of lines, and a line is a subject, a predicate and an object with blanks
between them and a dot at the end. The readers refuse what the grammar has besides: tags of languages,
comments and empty lines. A line that is written holds no other end of line, whatever the texts
are, and reads as the triple it was written for.

* `lines?`, `triple?`: the readers of documents and of lines.
* `triple?_body`: a line is read back.
* `read_lines_render`: a graph has a line for each triple, and these give its triples in order.
-/

namespace SchemaShapes.Output.NTriples

/-! ## Readers -/

/-- The lines of a text in which each line is ended. -/
def lines? : List Char → Option (List (List Char))
  | [] => some []
  | c :: cs =>
    if c = '\n' then (lines? cs).map ([] :: ·)
    else
      match lines? cs with
      | some (l :: ls) => some ((c :: l) :: ls)
      | _ => none

/-- A text without the blanks it starts with. -/
def skipBlanks (cs : List Char) : List Char := cs.dropWhile fun c => c == ' ' || c == '\t'

/-- An IRI or a blank node. -/
def node? (cs : List Char) : Option (Term × List Char) :=
  ((iriRef? cs).map fun r => (.iri r.1, r.2)) <|> (label? cs).map fun r => (.blank r.1, r.2)

/-- A literal. Without a datatype it ends at its quote. -/
def literal? (cs : List Char) : Option (Term × List Char) := do
  let text ← quotedText? cs
  match text.2 with
  | '^' :: '^' :: more => (iriRef? more).map fun r => (.literal ⟨text.1, some r.1⟩, r.2)
  | rest => some (.literal ⟨text.1, none⟩, rest)

/-- **A line**, without its end. -/
def triple? (cs : List Char) : Option Triple := do
  let subject ← node? (skipBlanks cs)
  let predicate ← iriRef? (skipBlanks subject.2)
  let object ← node? (skipBlanks predicate.2) <|> literal? (skipBlanks predicate.2)
  match skipBlanks object.2 with
  | '.' :: rest =>
    if skipBlanks rest = [] then some ⟨subject.1, predicate.1, object.1⟩ else none
  | _ => none

/-! ## Terms -/

variable {rest : List Char}

theorem node?_iri {i : Iri} (h : PlainIri i) (rest : List Char) :
    node? ((term (.iri i)).toList ++ rest) = some (.iri i, rest) := by
  have hchars : (term (.iri i)).toList ++ rest = '<' :: (i.toList ++ '>' :: rest) := by
    simp [term]
  rw [hchars, node?, iriRef?_append h]
  rfl

theorem node?_blank (n : Nat) (h : Parted rest) :
    node? ((term (.blank n)).toList ++ rest) = some (.blank n, rest) := by
  have hno : iriRef? ((Term.blankLabel n).toList ++ rest) = none := by
    rw [toList_blankLabel]
    rfl
  rw [term, node?, hno, label?_append n h]
  rfl

/-- A literal is no node. -/
theorem node?_literal (l : Literal) (rest : List Char) :
    node? ((term (.literal l)).toList ++ rest) = none := by
  have hquote : ∃ more, (term (.literal l)).toList = '"' :: more := by
    obtain ⟨s, d⟩ := l
    cases d <;> simp [term, toList_quoted]
  obtain ⟨more, hmore⟩ := hquote
  rw [hmore]
  rfl

theorem literal?_append {l : Literal} (h : ∀ d, l.datatype = some d → PlainIri d)
    (hrest : Parted rest) :
    literal? ((term (.literal l)).toList ++ rest) = some (.literal l, rest) := by
  obtain ⟨s, d⟩ := l
  cases d with
  | none =>
    -- what parts the literal from the rest is no datatype
    have hcaret : ∀ more, rest ≠ '^' :: '^' :: more := by
      rintro more rfl
      rcases hrest with h | h <;> simp at h
    rw [term, literal?, quotedText?_append]
    cases rest with
    | nil => rfl
    | cons c cs => simp_all [Parted]
  | some d =>
    have hchars : (term (.literal ⟨s, some d⟩)).toList ++ rest =
        (quoted s).toList ++ '^' :: '^' :: '<' :: (d.toList ++ '>' :: rest) := by
      simp [term]
    rw [hchars, literal?, quotedText?_append]
    simp [iriRef?_append (h d rfl)]

/-! ## Lines -/

/-- A line without its end. -/
def body (t : Triple) : List Char :=
  (term t.subject).toList ++ ' ' :: '<' :: (t.predicate.toList ++ '>' :: ' ' ::
    ((term t.object).toList ++ [' ', '.']))

theorem toList_line (t : Triple) : (line t).toList = body t ++ ['\n'] := by
  simp [line, body]

theorem node?_append {t : Term} (hl : ∀ l, t ≠ .literal l)
    (hi : ∀ i ∈ t.iris, PlainIri i) (h : Parted rest) :
    node? ((term t).toList ++ rest) = some (t, rest) := by
  cases t with
  | iri i => exact node?_iri (hi i (by simp [Term.iris])) rest
  | blank n => exact node?_blank n h
  | literal l => exact absurd rfl (hl l)

/-- **A term is read back** as an object, before a blank. -/
theorem object_append {t : Term} (hi : ∀ i ∈ t.iris, PlainIri i)
    (h : Parted rest) :
    (node? ((term t).toList ++ rest) <|> literal? ((term t).toList ++ rest)) =
      some (t, rest) := by
  cases t with
  | iri i => rw [node?_append (by simp) hi h]; rfl
  | blank n => rw [node?_append (by simp) hi h]; rfl
  | literal l =>
    have hread := literal?_append (l := l) (fun d hd => hi d (by simp [Term.iris, hd])) h
    rw [node?_literal, hread]
    rfl

/-- A term does not start with a blank. -/
theorem skipBlanks_term (t : Term) (rest : List Char) :
    skipBlanks ((term t).toList ++ rest) = (term t).toList ++ rest := by
  have hhead : ∃ c more, (term t).toList = c :: more ∧ c ≠ ' ' ∧ c ≠ '\t' := by
    cases t with
    | iri i => exact ⟨'<', i.toList ++ ['>'], by simp [term]⟩
    | blank n => exact ⟨'_', _, toList_blankLabel n, by decide⟩
    | literal l =>
      obtain ⟨s, d⟩ := l
      cases d <;> simp [term, toList_quoted]
  obtain ⟨c, more, hmore, hspace, htab⟩ := hhead
  simp [hmore, skipBlanks, hspace, htab]

/-- **A line is read back**, less its end. -/
theorem triple?_body {t : Triple} (h : t.Writable) : triple? (body t) = some t := by
  have hsub : node? (body t) = some (t.subject, _) :=
    node?_append h.subject h.subject_iris (Or.inl rfl)
  have hpred : iriRef? ('<' :: (t.predicate.toList ++ '>' :: ' ' ::
      ((term t.object).toList ++ [' ', '.']))) = some (t.predicate, _) :=
    iriRef?_append h.predicate _
  have hobj : (node? ((term t.object).toList ++ [' ', '.']) <|>
      literal? ((term t.object).toList ++ [' ', '.'])) = some (t.object, [' ', '.']) :=
    object_append h.object_iris (Or.inl rfl)
  have hskip : ∀ cs, skipBlanks (' ' :: '<' :: cs) = '<' :: cs := fun cs => rfl
  have hskip' : skipBlanks (' ' :: ((term t.object).toList ++ [' ', '.'])) =
      (term t.object).toList ++ [' ', '.'] := skipBlanks_term t.object _
  have hstart : skipBlanks (body t) = body t := skipBlanks_term t.subject _
  rw [triple?, hstart, hsub]
  simp only [Option.bind_eq_bind, Option.bind_some, hskip, hpred, hskip', hobj]
  rfl

/-! ## Documents -/

theorem lines?_append {l cs : List Char} (h : '\n' ∉ l) :
    lines? (l ++ '\n' :: cs) = (lines? cs).map (l :: ·) := by
  induction l with
  | nil => simp [lines?]
  | cons c l ih =>
    have hc : c ≠ '\n' := fun e => h (by simp [e])
    rw [List.cons_append, lines?, if_neg hc, ih fun k => h (List.mem_cons_of_mem _ k)]
    cases lines? cs <;> rfl

/-- Lines that are ended one by one are the lines of their text. -/
theorem lines?_flatMap {α : Type} {as : List α} {f : α → List Char} (h : ∀ a ∈ as, '\n' ∉ f a) :
    lines? (as.flatMap fun a => f a ++ ['\n']) = some (as.map f) := by
  induction as with
  | nil => rfl
  | cons a as ih =>
    rw [List.flatMap_cons, List.append_assoc, List.singleton_append, lines?_append (h a (by simp)),
      ih fun b hb => h b (by simp [hb])]
    rfl

theorem newline_not_mem_iri {i : Iri} (h : PlainIri i) :
    '\n' ∉ i.toList :=
  fun k => absurd (h _ k) (by decide)

theorem newline_not_mem_term {t : Term} (h : ∀ i ∈ t.iris, PlainIri i) :
    '\n' ∉ (term t).toList := by
  cases t with
  | iri i =>
    have hi := newline_not_mem_iri (h i (by simp [Term.iris]))
    simp [term, hi]
  | blank n =>
    intro k
    rw [term, toList_blankLabel] at k
    simp only [List.mem_cons, Nat.toString_eq_repr, Nat.toList_repr] at k
    rcases k with k | k | k | k
    · exact absurd k (by decide)
    · exact absurd k (by decide)
    · exact absurd k (by decide)
    · exact absurd (Nat.isDigit_of_mem_toDigits (by decide) (by decide) k) (by decide)
  | literal l =>
    obtain ⟨s, d⟩ := l
    have hs : '\n' ∉ s.toList.flatMap escapeChar := notMem_escape (by decide) s.toList
    cases d with
    | none => simp [term, toList_quoted, hs]
    | some d =>
      have hd := newline_not_mem_iri (h d (by simp [Term.iris]))
      simp [term, toList_quoted, hs, hd]

theorem newline_not_mem_body {t : Triple} (h : t.Writable) : '\n' ∉ body t := by
  have hs := newline_not_mem_term h.subject_iris
  have hp := newline_not_mem_iri h.predicate
  have ho := newline_not_mem_term h.object_iris
  simp [body, hs, hp, ho]

/-- **N-Triples lose and add nothing.** The document of a graph has a line for each triple, and the
lines read as the triples of the graph in order, none of them twice. -/
theorem read_lines_render {g : Graph} (h : g.Writable) :
    ∃ ls, lines? (render g).toList = some ls ∧ ls.length = g.size ∧
      ls.mapM triple? = some g.toList ∧ g.toList.Nodup := by
  have hchars : (render g).toList = g.toList.flatMap fun t => body t ++ ['\n'] := by
    rw [render, String.toList_join, List.flatMap_map]
    simp only [toList_line]
  refine ⟨g.toList.map body, ?_, List.length_map .., ?_, g.nodup_toList⟩
  · rw [hchars]
    exact lines?_flatMap fun t ht => newline_not_mem_body (h t ht)
  · have hread : ∀ t ∈ g.toList, (triple? ∘ body) t = some (id t) :=
      fun t ht => triple?_body (h t ht)
    rw [List.mapM_map, mapM_eq_some hread, List.map_id]

theorem read_lines_render_sample : sample.Writable ∧
    ∃ ls ts, lines? (render sample).toList = some ls ∧ ls.mapM triple? = some ts ∧
      ⟨.blank 0, Sh.defaultValue, .literal ⟨"a \"b\" > .\n\\", none⟩⟩ ∈ ts := by
  obtain ⟨ls, hlines, -, hread, -⟩ := read_lines_render writable_sample
  exact ⟨writable_sample, ls, sample.toList, hlines, hread, Graph.mem_ofList.2 (by decide)⟩

end SchemaShapes.Output.NTriples
