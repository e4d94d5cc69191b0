import Mathlib.Algebra.Ring.Parity
import Mathlib.Data.List.DropRight
import SchemaShapes.Output.Escape

/-!
# Escapes undone

A text ends at the first quote that is not escaped, and a quote is escaped if an odd number of
backslashes stands before it. The reader here undoes the five escapes that are written, and refuses
the characters that have one where they stand bare. So it reads what is written, whatever follows,
and nothing else.

* `unescape?`, `unquote?`: the reader, which starts behind an opening quote.
* `Escaped`: the place behind an odd number of backslashes.
* `unescape?_escapeChar`: what is written for a character reads as the character.
* `not_escaped_append_escapeChar`: what is written for a character is complete.
* `unquote?_escape`: an escaped text ends at the quote behind it, and is read back.
-/

namespace SchemaShapes.Output

/-! ## Reader -/

/-- The character whose escape has this letter. -/
def unescapeChar? (x : Char) : Option Char :=
  match x with
  | '\\' => some '\\'
  | '"' => some '"'
  | 'n' => some '\n'
  | 'r' => some '\r'
  | 't' => some '\t'
  | _ => none

/-- The characters without an escape. -/
def isBare (c : Char) : Bool := c ∉ ['\\', '"', '\n', '\r', '\t']

/-- **The characters up to the closing quote**, with their escapes undone, and what follows it. -/
def unescape? : List Char → Option (List Char × List Char)
  | [] => none
  | '"' :: rest => some ([], rest)
  | '\\' :: x :: rest =>
    (unescapeChar? x).bind fun c => (unescape? rest).map fun r => (c :: r.1, r.2)
  | c :: rest => if isBare c then (unescape? rest).map fun r => (c :: r.1, r.2) else none

/-- **The text behind an opening quote**, and what follows the quote that closes it. -/
def unquote? (t : String) : Option (String × String) :=
  (unescape? t.toList).map fun r => (String.ofList r.1, String.ofList r.2)

/-! ## Characters -/

theorem escapeChar_of_isBare {c : Char} (h : isBare c = true) : escapeChar c = [c] := by
  simp only [isBare, decide_eq_true_eq, List.mem_cons, List.not_mem_nil, or_false, not_or] at h
  simp [escapeChar, h]

/-- An escape that is undone is the one that is written. -/
theorem escapeChar_of_unescapeChar? {x c : Char} (h : unescapeChar? x = some c) :
    escapeChar c = ['\\', x] := by
  unfold unescapeChar? at h
  split at h <;> cases h <;> decide

/-- A character is written as itself, or by an escape that is undone. -/
theorem escapeChar_eq (c : Char) :
    (isBare c = true ∧ escapeChar c = [c]) ∨
      ∃ x, unescapeChar? x = some c ∧ escapeChar c = ['\\', x] := by
  by_cases hbare : isBare c = true
  · exact Or.inl ⟨hbare, escapeChar_of_isBare hbare⟩
  have hmem : c ∈ ['\\', '"', '\n', '\r', '\t'] := by
    rwa [isBare, decide_eq_true_eq, not_not] at hbare
  have hletter : ∃ x, unescapeChar? x = some c := by
    simp only [List.mem_cons, List.not_mem_nil, or_false] at hmem
    rcases hmem with rfl | rfl | rfl | rfl | rfl
    · exact ⟨'\\', rfl⟩
    · exact ⟨'"', rfl⟩
    · exact ⟨'n', rfl⟩
    · exact ⟨'r', rfl⟩
    · exact ⟨'t', rfl⟩
  obtain ⟨x, hx⟩ := hletter
  exact Or.inr ⟨x, hx, escapeChar_of_unescapeChar? hx⟩

/-- No end of line and no tab is written. -/
theorem notMem_escapeChar {d : Char} (hd : d ∈ ['\n', '\r', '\t']) (c : Char) :
    d ∉ escapeChar c := by
  intro hmem
  rcases escapeChar_eq c with ⟨hbare, he⟩ | ⟨x, hx, he⟩
  · rw [he, List.mem_singleton] at hmem
    subst hmem
    simp only [List.mem_cons, List.not_mem_nil, or_false] at hd
    rcases hd with rfl | rfl | rfl <;> exact absurd hbare (by decide)
  · rw [he] at hmem
    simp only [List.mem_cons, List.not_mem_nil, or_false] at hd hmem
    rcases hmem with rfl | rfl
    · exact absurd hd (by decide)
    · rcases hd with rfl | rfl | rfl <;> cases hx

theorem notMem_escape {d : Char} (hd : d ∈ ['\n', '\r', '\t']) (s : List Char) :
    d ∉ s.flatMap escapeChar := by
  intro hmem
  obtain ⟨c, -, hc⟩ := List.mem_flatMap.1 hmem
  exact notMem_escapeChar hd c hc

/-! ## Reading -/

/-- **A character is read back**, and the reader goes on behind what is written for it. -/
theorem unescape?_escapeChar (c : Char) (rest : List Char) :
    unescape? (escapeChar c ++ rest) = (unescape? rest).map fun r => (c :: r.1, r.2) := by
  rcases escapeChar_eq c with ⟨hbare, he⟩ | ⟨x, hx, he⟩
  · have hne : c ≠ '"' ∧ c ≠ '\\' := by
      constructor <;> (rintro rfl; exact absurd hbare (by decide))
    rw [he, List.singleton_append]
    simp [unescape?, hne.1, hne.2, hbare]
  · rw [he]
    simp [unescape?, hx]

theorem unescape?_escape (s rest : List Char) :
    unescape? (s.flatMap escapeChar ++ rest) =
      (unescape? rest).map fun r => (s ++ r.1, r.2) := by
  induction s with
  | nil => simp
  | cons c s ih =>
    rw [List.flatMap_cons, List.append_assoc, unescape?_escapeChar, ih, Option.map_map]
    rfl

/-- **What is read was written**: there is one spelling of a text. -/
theorem eq_of_unescape? {cs s rest : List Char} (h : unescape? cs = some (s, rest)) :
    cs = s.flatMap escapeChar ++ '"' :: rest := by
  induction cs using unescape?.induct generalizing s with
  | case1 => cases h
  | case2 more =>
    cases h
    rfl
  | case3 x more ih =>
    simp only [unescape?, Option.bind_eq_some_iff, Option.map_eq_some_iff] at h
    obtain ⟨c, hc, r, hr, heq⟩ := h
    cases heq
    rw [List.flatMap_cons, escapeChar_of_unescapeChar? hc, ih hr]
    rfl
  | case4 c more hquote hback hbare ih =>
    simp only [unescape?, hbare, if_true, Option.map_eq_some_iff] at h
    obtain ⟨r, hr, heq⟩ := h
    cases heq
    rw [List.flatMap_cons, escapeChar_of_isBare hbare, ih hr]
    rfl
  | case5 c more hquote hback hbare => simp [unescape?, hbare] at h

/-! ## Escaped places -/

/-- **The place behind** a text is escaped if the text ends with an odd number of backslashes. -/
def Escaped (cs : List Char) : Prop := Odd (cs.rtakeWhile (· = '\\')).length

theorem not_escaped_nil : ¬ Escaped [] := by simp [Escaped]

/-- A backslash escapes what follows it, unless it is escaped itself. -/
theorem escaped_concat_backslash {cs : List Char} : Escaped (cs ++ ['\\']) ↔ ¬ Escaped cs := by
  rw [Escaped, List.rtakeWhile_concat_pos _ _ _ (by decide), List.length_append,
    List.length_singleton, Nat.odd_add_one, Escaped]

theorem not_escaped_concat {cs : List Char} {c : Char} (h : c ≠ '\\') : ¬ Escaped (cs ++ [c]) := by
  rw [Escaped, List.rtakeWhile_concat_neg _ _ _ (by simpa using h)]
  decide

variable {before : List Char}

/-- What is written for a character is complete: it leaves nothing escaped. -/
theorem not_escaped_append_escapeChar (h : ¬ Escaped before) (c : Char) :
    ¬ Escaped (before ++ escapeChar c) := by
  rcases escapeChar_eq c with ⟨hbare, he⟩ | ⟨x, hx, he⟩
  · rw [he]
    exact not_escaped_concat (by rintro rfl; exact absurd hbare (by decide))
  · have hpair : before ++ ['\\', x] = before ++ ['\\'] ++ [x] := by simp
    rw [he, hpair]
    by_cases hxb : x = '\\'
    · rw [hxb, escaped_concat_backslash, escaped_concat_backslash]
      exact not_not_intro h
    · exact not_escaped_concat hxb

theorem not_escaped_append_escape (h : ¬ Escaped before) (s : List Char) :
    ¬ Escaped (before ++ s.flatMap escapeChar) := by
  induction s generalizing before with
  | nil => simpa using h
  | cons c s ih =>
    rw [List.flatMap_cons, ← List.append_assoc]
    exact ih (not_escaped_append_escapeChar h c)

/-- The one quote that is written for a character stands behind a backslash. -/
theorem eq_backslash_of_escapeChar_eq {c : Char} {inside behind : List Char}
    (h : escapeChar c = inside ++ '"' :: behind) : inside = ['\\'] := by
  rcases escapeChar_eq c with ⟨hbare, he⟩ | ⟨x, hx, he⟩
  · rw [he] at h
    cases inside with
    | nil =>
      obtain ⟨rfl, -⟩ := List.cons.inj h
      exact absurd hbare (by decide)
    | cons d inside => simp at h
  · rw [he] at h
    cases inside with
    | nil => simp at h
    | cons d inside =>
      obtain ⟨rfl, htail⟩ := List.cons.inj h
      cases inside with
      | nil => rfl
      | cons e inside => simp at htail

/-- **A quote that is written is escaped**, behind whatever leaves nothing escaped. -/
theorem escaped_of_escape_eq (h : ¬ Escaped before) {s inside behind : List Char}
    (heq : s.flatMap escapeChar = inside ++ '"' :: behind) : Escaped (before ++ inside) := by
  induction s generalizing before inside with
  | nil => simp at heq
  | cons c s ih =>
    have hnext := not_escaped_append_escapeChar h c
    rw [List.flatMap_cons, List.append_eq_append_iff] at heq
    rcases heq with ⟨more, rfl, hmore⟩ | ⟨quote, hquote, hbehind⟩
    · rw [← List.append_assoc]
      exact ih hnext hmore
    · cases quote with
      | nil =>
        rw [List.append_nil] at hquote
        have hmore : Escaped (before ++ escapeChar c ++ []) := ih hnext hbehind.symm
        rwa [List.append_nil, hquote] at hmore
      | cons d quote =>
        obtain ⟨rfl, -⟩ := List.cons.inj hbehind
        rw [eq_backslash_of_escapeChar_eq hquote, escaped_concat_backslash]
        exact h

/-! ## Texts -/

theorem toList_escape (s : String) : (escape s).toList = s.toList.flatMap escapeChar := by
  rw [escape, String.toList_ofList]

/-- **An escaped text ends at the quote behind it.** It is read back up to that quote, whatever
follows, and no other text is read so. Until then there is no line feed, no carriage return and no
quote that is not escaped. -/
theorem unquote?_escape (s rest : String) :
    unquote? (escape s ++ "\"" ++ rest) = some (s, rest) ∧
      (∀ t, unquote? t = some (s, rest) → t = escape s ++ "\"" ++ rest) ∧
      '\n' ∉ (escape s).toList ∧ '\r' ∉ (escape s).toList ∧
      (∀ inside behind, (escape s).toList = inside ++ '"' :: behind → Escaped inside) ∧
      ¬ Escaped (escape s).toList := by
  have hchars : (escape s ++ "\"" ++ rest).toList =
      s.toList.flatMap escapeChar ++ '"' :: rest.toList := by
    simp [toList_escape]
  refine ⟨?_, fun t ht => ?_, ?_, ?_, fun inside behind heq => ?_, ?_⟩
  · rw [unquote?, hchars, unescape?_escape]
    simp [unescape?]
  · obtain ⟨r, hr, heq⟩ := Option.map_eq_some_iff.1 ht
    have ht' := eq_of_unescape? hr
    cases heq
    rwa [String.toList_ofList, String.toList_ofList, ← ht', String.toList_inj, eq_comm] at hchars
  · rw [toList_escape]
    exact notMem_escape (by decide) s.toList
  · rw [toList_escape]
    exact notMem_escape (by decide) s.toList
  · rw [toList_escape] at heq
    exact escaped_of_escape_eq not_escaped_nil heq
  · rw [toList_escape]
    exact not_escaped_append_escape not_escaped_nil s.toList

theorem unquote?_escape_sample :
    unquote? "a\\\"\\\\\"\"b" = some ("a\"\\", "\"b") ∧ Escaped ['a', '\\'] := by
  have hescape : escape "a\"\\" = "a\\\"\\\\" := by decide
  obtain ⟨hread, -, -, -, hquotes, -⟩ := unquote?_escape "a\"\\" "\"b"
  rw [hescape] at hread hquotes
  exact ⟨hread, hquotes ['a', '\\'] ['\\', '\\'] (by decide)⟩

end SchemaShapes.Output
