import Std.Data.String.ToNat
import SchemaShapes.Json.Token
import SchemaShapes.Proofs.Output.Escapes
import SchemaShapes.Rdf.Graph

/-!
# The words of N-Triples and Turtle

Both formats write an IRI between angle brackets, a text between quotes, and a blank node as a
label. The readers here follow the productions that the formats share, and what is written is read
back whatever stands behind it.

* `enclosed?`: characters up to a closing one, with their escapes undone.
* `name`: the longest name at the start of a text.
* `iriRef?_append`, `quotedText?_append`, `label?_append`: an IRI, a text and a label are read back.
* `Graph.Writable`: the graphs whose IRIs need no escape.
-/

namespace SchemaShapes

namespace Output

open Json.Token (hexDigit?)
open Number (isDigit)

/-! ## Readers -/

/-- The character whose code point has these digits in base sixteen. -/
def codePoint? (digits : List Char) : Option Char := do
  let values ← digits.mapM hexDigit?
  let n := values.foldl (fun n d => 16 * n + d) 0
  if (Char.ofNat n).toNat = n then some (Char.ofNat n) else none

/-- **What is enclosed**: the characters up to `close`, with their escapes undone, and what follows.
The characters that stand for themselves are `plain`, and `letter` tells the escapes of one
letter. -/
def enclosed? (close : Char) (plain : Char → Bool) (letter : Char → Option Char) :
    List Char → Option (List Char × List Char)
  | [] => none
  | '\\' :: 'u' :: a :: b :: c :: d :: rest => do
    let x ← codePoint? [a, b, c, d]
    let found ← enclosed? close plain letter rest
    pure (x :: found.1, found.2)
  | '\\' :: 'U' :: a :: b :: c :: d :: e :: f :: g :: h :: rest => do
    let x ← codePoint? [a, b, c, d, e, f, g, h]
    let found ← enclosed? close plain letter rest
    pure (x :: found.1, found.2)
  | '\\' :: x :: rest => do
    let y ← letter x
    let found ← enclosed? close plain letter rest
    pure (y :: found.1, found.2)
  | x :: rest =>
    if x = close then some ([], rest)
    else if plain x then do
      let found ← enclosed? close plain letter rest
      pure (x :: found.1, found.2)
    else none

/-- The characters of an IRI between angle brackets: no control character or space, and none of
nine others. -/
def isIriChar (c : Char) : Bool :=
  0x20 < c.toNat && c ∉ ['<', '>', '"', '\x7b', '\x7d', '|', '^', '\x60', '\\']

/-- An IRI that needs no escape between angle brackets. -/
def PlainIri (i : Iri) : Prop := ∀ c ∈ i.toList, isIriChar c = true

instance : DecidablePred PlainIri := fun _ => decidable_of_iff _ List.all_eq_true

theorem PlainIri.append {i j : Iri} (hi : PlainIri i) (hj : PlainIri j) : PlainIri (i ++ j) := by
  intro c hc
  rw [String.toList_append, List.mem_append] at hc
  exact hc.elim (hi c) (hj c)

theorem plainIri_ofList {cs : List Char} (h : cs.all isIriChar = true) :
    PlainIri (String.ofList cs) := by
  rwa [PlainIri, String.toList_ofList, ← List.all_eq_true]

/-- The namespaces need no escape. -/
theorem plainIri_namespaces : ∀ n ∈ namespaces, PlainIri n.2 := by
  have hsh : PlainIri Sh.space := plainIri_ofList (by decide)
  have hrdf : PlainIri Rdf.space := plainIri_ofList (by decide)
  have hxsd : PlainIri Xsd.space := plainIri_ofList (by decide)
  simp [namespaces, hsh, hrdf, hxsd]

/-- The characters that stand for themselves between quotes. -/
def isTextChar (c : Char) : Bool := c ∉ ['"', '\\', '\n', '\r']

/-- The escapes of one letter between quotes. -/
def letterEscape? (c : Char) : Option Char :=
  match c with
  | 't' => some '\t'
  | 'b' => some '\x08'
  | 'n' => some '\n'
  | 'r' => some '\r'
  | 'f' => some '\x0c'
  | '"' => some '"'
  | '\x27' => some '\x27'
  | '\\' => some '\\'
  | _ => none

/-- **An IRI** between angle brackets. -/
def iriRef? : List Char → Option (Iri × List Char)
  | '<' :: cs => (enclosed? '>' isIriChar (fun _ => none) cs).map fun r => (String.ofList r.1, r.2)
  | _ => none

/-- **A text** between quotes. -/
def quotedText? : List Char → Option (String × List Char)
  | '"' :: cs =>
    (enclosed? '"' isTextChar letterEscape? cs).map fun r => (String.ofList r.1, r.2)
  | _ => none

/-- The letters with which names start. -/
def isLetter (c : Char) : Bool :=
  [(0x41, 0x5A), (0x61, 0x7A), (0xC0, 0xD6), (0xD8, 0xF6), (0xF8, 0x2FF), (0x370, 0x37D),
    (0x37F, 0x1FFF), (0x200C, 0x200D), (0x2070, 0x218F), (0x2C00, 0x2FEF), (0x3001, 0xD7FF),
    (0xF900, 0xFDCF), (0xFDF0, 0xFFFD), (0x10000, 0xEFFFF)].any
    fun range => range.1 ≤ c.toNat && c.toNat ≤ range.2

/-- The characters of names, with the colon between their parts. -/
def isNameChar (c : Char) : Bool :=
  isLetter c || isDigit c || c ∈ ['_', ':', '-', '\xb7'] ||
    [(0x300, 0x36F), (0x203F, 0x2040)].any fun range => range.1 ≤ c.toNat && c.toNat ≤ range.2

/-- **The longest name** at the start of a text, and what follows. A dot is part of a name only if
the name goes on behind it. -/
def name : List Char → List Char × List Char
  | [] => ([], [])
  | c :: cs =>
    if isNameChar c then (c :: (name cs).1, (name cs).2)
    else if c = '.' ∧ (name cs).1 ≠ [] then (c :: (name cs).1, (name cs).2)
    else ([], c :: cs)

/-- The number of the blank node with this label. -/
def numberOf? : List Char → Option Nat
  | 'b' :: digits => do
    let n ← (String.ofList digits).toNat?
    if (toString n).toList = digits then some n else none
  | _ => none

/-- **A label** of a blank node. -/
def label? : List Char → Option (Nat × List Char)
  | '_' :: ':' :: cs => (numberOf? (name cs).1).map fun n => (n, (name cs).2)
  | _ => none

/-! ## What is enclosed -/

section Enclosed

variable {close : Char} {plain : Char → Bool} {letter : Char → Option Char} {x y : Char}
  {rest inside behind : List Char}

theorem enclosed?_close (h : close ≠ '\\') :
    enclosed? close plain letter (close :: rest) = some ([], rest) := by
  simp [enclosed?, h]

theorem enclosed?_plain (hx : x ≠ '\\') (hclose : x ≠ close) (hplain : plain x = true)
    (h : enclosed? close plain letter rest = some (inside, behind)) :
    enclosed? close plain letter (x :: rest) = some (x :: inside, behind) := by
  simp [enclosed?, hx, hclose, hplain, h]

theorem enclosed?_letter (hletter : letter x = some y) (hu : x ≠ 'u') (hU : x ≠ 'U')
    (h : enclosed? close plain letter rest = some (inside, behind)) :
    enclosed? close plain letter ('\\' :: x :: rest) = some (y :: inside, behind) := by
  simp [enclosed?, hletter, hu, hU, h]

end Enclosed

/-- The escapes that are written are escapes of the formats. -/
theorem letterEscape?_of_unescapeChar? {x c : Char} (h : unescapeChar? x = some c) :
    letterEscape? x = some c ∧ x ≠ 'u' ∧ x ≠ 'U' := by
  unfold unescapeChar? at h
  split at h <;> cases h <;> decide

theorem isTextChar_of_isBare {c : Char} (h : isBare c = true) : isTextChar c = true := by
  simp only [isBare, decide_eq_true_eq, List.mem_cons, List.not_mem_nil, or_false, not_or] at h
  simp [isTextChar, h]

/-- A character between quotes stands for itself, or has an escape of one letter. -/
theorem escapeChar_cases (c : Char) :
    (∃ x, letterEscape? x = some c ∧ x ≠ 'u' ∧ x ≠ 'U' ∧ escapeChar c = ['\\', x]) ∨
      (isTextChar c = true ∧ escapeChar c = [c]) := by
  rcases escapeChar_eq c with ⟨hbare, he⟩ | ⟨x, hx, he⟩
  · exact Or.inr ⟨isTextChar_of_isBare hbare, he⟩
  · obtain ⟨hletter, hu, hU⟩ := letterEscape?_of_unescapeChar? hx
    exact Or.inl ⟨x, hletter, hu, hU, he⟩

/-- **The formats read alike** what is spelled with the escapes that are written. -/
theorem enclosed?_of_unescape? {cs : List Char} {r : List Char × List Char}
    (h : unescape? cs = some r) : enclosed? '"' isTextChar letterEscape? cs = some r := by
  induction cs using unescape?.induct generalizing r with
  | case1 => cases h
  | case2 more =>
    cases h
    exact enclosed?_close (by decide)
  | case3 x more ih =>
    simp only [unescape?, Option.bind_eq_some_iff, Option.map_eq_some_iff] at h
    obtain ⟨c, hc, found, hfound, rfl⟩ := h
    obtain ⟨hletter, hu, hU⟩ := letterEscape?_of_unescapeChar? hc
    exact enclosed?_letter hletter hu hU (ih hfound)
  | case4 c more hquote hback hbare ih =>
    simp only [unescape?, hbare, if_true, Option.map_eq_some_iff] at h
    obtain ⟨found, hfound, rfl⟩ := h
    have hne : c ≠ '\\' ∧ c ≠ '"' := by
      constructor <;> (rintro rfl; exact absurd hbare (by decide))
    exact enclosed?_plain hne.1 hne.2 (isTextChar_of_isBare hbare) (ih hfound)
  | case5 c more hquote hback hbare => simp [unescape?, hbare] at h

/-- **Escapes are undone**, and the quote that closes a text is the first that is not escaped. -/
theorem enclosed?_escape (s rest : List Char) :
    enclosed? '"' isTextChar letterEscape? (s.flatMap escapeChar ++ '"' :: rest) =
      some (s, rest) := by
  refine enclosed?_of_unescape? ?_
  rw [unescape?_escape]
  simp [unescape?]

/-- An IRI that needs no escape is read up to the first closing bracket. -/
theorem enclosed?_iri {s : List Char} (h : ∀ c ∈ s, isIriChar c = true) (rest : List Char) :
    enclosed? '>' isIriChar (fun _ => none) (s ++ '>' :: rest) = some (s, rest) := by
  induction s with
  | nil => exact enclosed?_close (by decide)
  | cons c s ih =>
    have hc := h c (by simp)
    have hne : c ≠ '\\' ∧ c ≠ '>' := by
      constructor <;> (rintro rfl; exact absurd hc (by decide))
    exact enclosed?_plain hne.1 hne.2 hc (ih fun d hd => h d (by simp [hd]))

/-! ## Names -/

/-- A text that starts with a blank, or with a new line. -/
def Parted (rest : List Char) : Prop := rest.head? = some ' ' ∨ rest.head? = some '\n'

/-- Nothing of what parts a piece from the rest goes on with the piece. -/
theorem Parted.takeWhile_eq_nil {rest : List Char} (h : Parted rest) {p : Char → Bool}
    (hspace : p ' ' = false) (hline : p '\n' = false) :
    rest.takeWhile p = [] ∧ rest.dropWhile p = rest := by
  cases rest with
  | nil => exact ⟨rfl, rfl⟩
  | cons c cs =>
    have hc : p c = false := by
      rcases h with h | h <;> (cases h; assumption)
    simp [hc]

theorem name_of_parted {rest : List Char} (h : Parted rest) : name rest = ([], rest) := by
  cases rest with
  | nil => rfl
  | cons c cs =>
    have hc : isNameChar c = false ∧ c ≠ '.' := by
      rcases h with h | h <;> (cases h; decide)
    simp [name, hc]

/-- A name ends where it is parted from the rest. -/
theorem name_append {w rest : List Char} (hw : ∀ c ∈ w, isNameChar c = true) (h : Parted rest) :
    name (w ++ rest) = (w, rest) := by
  induction w with
  | nil => exact name_of_parted h
  | cons c w ih =>
    rw [List.cons_append, name, if_pos (hw c (by simp)), ih fun d hd => hw d (by simp [hd])]

theorem isNameChar_of_isDigit {c : Char} (h : c.isDigit = true) : isNameChar c = true := by
  have hd : isDigit c = true := by
    simpa [Char.isDigit, isDigit, Char.le_def] using h
  simp [isNameChar, hd]

theorem toList_blankLabel (n : Nat) :
    (Term.blankLabel n).toList = '_' :: ':' :: 'b' :: (toString n).toList := by
  simp [Term.blankLabel]

theorem numberOf?_toString (n : Nat) : numberOf? ('b' :: (toString n).toList) = some n := by
  have hread : (String.ofList (toString n).toList).toNat? = some n := by
    rw [String.ofList_toList, Nat.toString_eq_repr, Nat.toNat?_repr]
  rw [numberOf?, hread]
  exact if_pos rfl

/-! ## What is written is read back -/

variable {rest : List Char}

/-- **An IRI is read back.** -/
theorem iriRef?_append {i : Iri} (h : PlainIri i) (rest : List Char) :
    iriRef? ('<' :: (i.toList ++ '>' :: rest)) = some (i, rest) := by
  rw [iriRef?, enclosed?_iri h, Option.map_some, String.ofList_toList]

theorem toList_quoted (s : String) :
    (quoted s).toList = '"' :: (s.toList.flatMap escapeChar ++ ['"']) := by
  simp [quoted, escape]

/-- **A text is read back**, with any character in it and anything behind it. -/
theorem quotedText?_append (s : String) (rest : List Char) :
    quotedText? ((quoted s).toList ++ rest) = some (s, rest) := by
  have h : (quoted s).toList ++ rest = '"' :: (s.toList.flatMap escapeChar ++ '"' :: rest) := by
    rw [toList_quoted, List.cons_append, List.append_assoc, List.singleton_append]
  rw [h, quotedText?, enclosed?_escape, Option.map_some, String.ofList_toList]

/-- **A label is read back.** -/
theorem label?_append (n : Nat) (h : Parted rest) :
    label? ((Term.blankLabel n).toList ++ rest) = some (n, rest) := by
  have hchars : ∀ c ∈ 'b' :: (toString n).toList, isNameChar c = true := by
    intro c hc
    rcases List.mem_cons.1 hc with rfl | hc
    · decide
    · rw [Nat.toString_eq_repr, Nat.toList_repr] at hc
      exact isNameChar_of_isDigit (Nat.isDigit_of_mem_toDigits (by decide) (by decide) hc)
  have hname := name_append hchars h
  rw [toList_blankLabel, List.cons_append, List.cons_append, label?, hname]
  dsimp only
  rw [numberOf?_toString, Option.map_some]

end Output

/-! ## Graphs that need no escapes in IRIs -/

/-- The IRIs of a term, with the datatype of a literal. -/
def Term.iris : Term → List Iri
  | .iri i => [i]
  | .blank _ => []
  | .literal l => l.datatype.toList

/-- The IRIs of a triple. -/
def Triple.iris (t : Triple) : List Iri := t.subject.iris ++ t.predicate :: t.object.iris

/-- **A triple that can be written** in N-Triples and Turtle: its subject is no literal, and its
IRIs need no escape. -/
structure Triple.Writable (t : Triple) : Prop where
  subject : ∀ l, t.subject ≠ .literal l
  iris : ∀ i ∈ t.iris, Output.PlainIri i

/-- **A graph that can be written** in N-Triples and Turtle. -/
def Graph.Writable (g : Graph) : Prop := ∀ t ∈ g, t.Writable

namespace Triple.Writable

variable {t : Triple}

theorem subject_iris (h : t.Writable) : ∀ i ∈ t.subject.iris, Output.PlainIri i :=
  fun i hi => h.iris i (List.mem_append_left _ hi)

theorem predicate (h : t.Writable) : Output.PlainIri t.predicate :=
  h.iris _ (List.mem_append_right _ List.mem_cons_self)

theorem object_iris (h : t.Writable) : ∀ i ∈ t.object.iris, Output.PlainIri i :=
  fun i hi => h.iris i (List.mem_append_right _ (List.mem_cons_of_mem _ hi))

end Triple.Writable

/-- A graph with each kind of term, and with texts that look like more than they are. -/
def Output.sample : Graph :=
  .ofList
    [⟨.iri "urn:Note", Rdf.type, .iri Sh.nodeShape⟩,
      ⟨.iri "urn:Note", Sh.property, .blank 0⟩,
      ⟨.iri "urn:Note", Sh.property, .blank 1⟩,
      ⟨.blank 0, Sh.path, .iri Rdf.type⟩,
      ⟨.blank 0, Sh.defaultValue, .literal ⟨"a \"b\" > .\n\\", none⟩⟩,
      ⟨.blank 1, Sh.minInclusive, .literal ⟨"-007", some Xsd.integer⟩⟩,
      ⟨.blank 1, Sh.defaultValue, .literal ⟨"true", some Xsd.integer⟩⟩]

theorem Output.writable_sample : Output.sample.Writable := by
  have hnote : PlainIri "urn:Note" := plainIri_ofList (by decide)
  have hrdf := plainIri_namespaces ("rdf", Rdf.space) (by simp [namespaces])
  have hsh := plainIri_namespaces ("sh", Sh.space) (by simp [namespaces])
  have hxsd := plainIri_namespaces ("xsd", Xsd.space) (by simp [namespaces])
  have htype : PlainIri Rdf.type := hrdf.append (plainIri_ofList (by decide))
  have hshape : PlainIri Sh.nodeShape := hsh.append (plainIri_ofList (by decide))
  have hproperty : PlainIri Sh.property := hsh.append (plainIri_ofList (by decide))
  have hpath : PlainIri Sh.path := hsh.append (plainIri_ofList (by decide))
  have hdefault : PlainIri Sh.defaultValue := hsh.append (plainIri_ofList (by decide))
  have hmin : PlainIri Sh.minInclusive := hsh.append (plainIri_ofList (by decide))
  have hinteger : PlainIri Xsd.integer := hxsd.append (plainIri_ofList (by decide))
  intro t ht
  rw [Output.sample, Graph.mem_ofList] at ht
  simp only [List.mem_cons, List.not_mem_nil, or_false] at ht
  rcases ht with rfl | rfl | rfl | rfl | rfl | rfl | rfl <;> constructor <;>
    simp [Triple.iris, Term.iris, *]

end SchemaShapes
