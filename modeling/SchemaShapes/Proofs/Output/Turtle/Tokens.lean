import SchemaShapes.Output.Turtle
import SchemaShapes.Proofs.Output.ShortNames

/-!
# Tokens of Turtle

A Turtle text cut into tokens, with blanks and comments between them. The cut takes the longest
token at each place. It knows the part of the grammar without anonymous nodes, collections, long
strings, language tags and numbers that are not whole, and refuses what it does not know.

* `token?`, `tokens?`: the first token of a text, and all of them.
* `Lexes`: a piece that is read as some tokens, whatever parts it from the rest.
* `lexes_iri`, `lexes_blank`, `lexes_integer`, `lexes_boolean`: what is written is read back.
-/

namespace SchemaShapes.Output.Turtle

open Json.Token (isSpace)
open Number (isDigit)

/-- **A token.** A short name stands in two parts. -/
inductive Token where
  | iri (value : Iri)
  | short (space localName : String)
  | blank (number : Nat)
  | text (value : String)
  | integer (lexical : String)
  | word (value : String)
  | prefixWord
  | typed
  | comma
  | semicolon
  | dot
deriving DecidableEq

/-! ## Readers -/

/-- A text without the blanks and comments it starts with. -/
def skip (comment : Bool) : List Char → List Char
  | [] => []
  | c :: cs =>
    if comment then skip (c != '\n' && c != '\r') cs
    else if isSpace c then skip false cs
    else if c = '#' then skip true cs
    else c :: cs

/-- Whether a number ends before this text. -/
def endsNumber : List Char → Bool
  | '.' :: c :: _ => !isNameChar c
  | c :: _ => !isNameChar c
  | [] => true

/-- The sign of a number. -/
def isSign (c : Char) : Bool := c == '+' || c == '-'

/-- **A whole number**: digits behind an optional sign. -/
def integer? (cs : List Char) : Option (Token × List Char) :=
  let sign := cs.takeWhile isSign
  let digits := (cs.dropWhile isSign).takeWhile isDigit
  let rest := (cs.dropWhile isSign).dropWhile isDigit
  if sign.length ≤ 1 ∧ digits ≠ [] ∧ endsNumber rest = true then
    some (.integer (String.ofList (sign ++ digits)), rest)
  else none

/-- The parts of a name that has a colon: the name of a namespace, which may be empty, and a local
name, which may be empty too. -/
def parts? (name : List Char) : Option (String × String) :=
  let space := name.takeWhile (· ≠ ':')
  let loc := (name.dropWhile (· ≠ ':')).drop 1
  if (space.head?.all isLetter) = true ∧ space.getLast? ≠ some '.' ∧
      (loc.head?.all fun c => isLetter c || isDigit c || c == '_' || c == ':') = true then
    some (String.ofList space, String.ofList loc)
  else none

/-- **A name**: a short name if it has a colon, else a word. -/
def nameToken? (name : List Char) : Option Token :=
  if ':' ∈ name then (parts? name).map fun p => .short p.1 p.2
  else if name = [] then none
  else some (.word (String.ofList name))

/-- **The first token** of a text that starts with one, and what follows it. -/
def token? (cs : List Char) : Option (Token × List Char) :=
  match cs with
  | [] => none
  | '<' :: _ => (iriRef? cs).map fun r => (.iri r.1, r.2)
  | '"' :: _ => (quotedText? cs).map fun r => (.text r.1, r.2)
  | '_' :: _ => (label? cs).map fun r => (.blank r.1, r.2)
  | '@' :: more =>
    if String.ofList (name more).1 = "prefix" then some (.prefixWord, (name more).2) else none
  | '^' :: '^' :: more => some (.typed, more)
  | ',' :: more => some (.comma, more)
  | ';' :: more => some (.semicolon, more)
  | '.' :: more => if more.head?.any isDigit then none else some (.dot, more)
  | c :: _ => if isDigit c || isSign c then integer? cs
    else (nameToken? (name cs).1).map fun t => (t, (name cs).2)

theorem length_skip_le (comment : Bool) (cs : List Char) :
    (skip comment cs).length ≤ cs.length := by
  induction cs generalizing comment with
  | nil => exact Nat.le_refl _
  | cons c cs ih =>
    have hle : ∀ b, (skip b cs).length ≤ (c :: cs).length := fun b =>
      Nat.le_trans (ih b) (Nat.le_succ _)
    rw [skip]
    split_ifs
    · exact hle _
    · exact hle _
    · exact hle _
    · exact Nat.le_refl _

/-- **All tokens** of a text. -/
def tokens? (cs : List Char) : Option (List Token) :=
  if skip false cs = [] then some []
  else
    match token? (skip false cs) with
    | none => none
    | some (t, rest) =>
      if rest.length < (skip false cs).length then (tokens? rest).map (t :: ·) else none
termination_by cs.length
decreasing_by exact Nat.lt_of_lt_of_le ‹_› (length_skip_le false cs)

/-! ## Pieces -/

theorem tokens?_skip {cs ds : List Char} (h : skip false cs = skip false ds) :
    tokens? cs = tokens? ds := by
  rw [tokens?, tokens?, h]

theorem tokens?_nil : tokens? [] = some [] := by
  rw [tokens?, if_pos (show skip false [] = [] from rfl)]

/-- Blanks between tokens say nothing. -/
theorem tokens?_space {c : Char} (h : isSpace c = true) (cs : List Char) :
    tokens? (c :: cs) = tokens? cs :=
  tokens?_skip (by simp [skip, h])

/-- The tokens of a text are its first token and those of the rest. -/
theorem tokens?_cons {c : Char} {cs rest : List Char} {t : Token} {more : List Token}
    (hc : isSpace c = false ∧ c ≠ '#') (ht : token? (c :: cs) = some (t, rest))
    (hlt : rest.length ≤ cs.length) (h : tokens? rest = some more) :
    tokens? (c :: cs) = some (t :: more) := by
  have hskip : skip false (c :: cs) = c :: cs := by simp [skip, hc]
  have hlt' : rest.length < (c :: cs).length := Nat.lt_succ_of_le hlt
  rw [tokens?, hskip, if_neg (List.cons_ne_nil c cs), ht]
  simp only [hlt', if_true, h, Option.map_some]

/-- **A piece that is read** as some tokens, whatever parts it from the rest. -/
def Lexes (piece : List Char) (ts : List Token) : Prop :=
  ∀ rest more, Parted rest → tokens? rest = some more → tokens? (piece ++ rest) = some (ts ++ more)

theorem Lexes.append {p q : List Char} {ts us : List Token} (hp : Lexes p ts) (hq : Lexes q us)
    (h : Parted q) : Lexes (p ++ q) (ts ++ us) := by
  intro rest more hrest hmore
  have hparted : Parted (q ++ rest) := by
    cases q with
    | nil => rcases h with h | h <;> cases h
    | cons c q => exact h
  rw [List.append_assoc, List.append_assoc]
  exact hp _ _ hparted (hq rest more hrest hmore)

theorem Lexes.space {c : Char} {p : List Char} {ts : List Token} (h : Lexes p ts)
    (hc : isSpace c = true) : Lexes (c :: p) ts := by
  intro rest more hrest hmore
  rw [List.cons_append, tokens?_space hc]
  exact h rest more hrest hmore

/-- A piece that is one token. -/
theorem lexes_of_token? {c : Char} {cs : List Char} {t : Token} (hc : isSpace c = false ∧ c ≠ '#')
    (h : ∀ rest, Parted rest → token? (c :: (cs ++ rest)) = some (t, rest)) :
    Lexes (c :: cs) [t] := by
  intro rest more hrest hmore
  have hlt : rest.length ≤ (cs ++ rest).length := by
    rw [List.length_append]
    omega
  exact tokens?_cons hc (h rest hrest) hlt hmore

/-! ## Names -/

theorem isDigit_eq_false {c : Char} (h : isLetter c = true) : isDigit c = false := by
  rw [Bool.eq_false_iff]
  intro hd
  simp only [isDigit, Bool.and_eq_true, decide_eq_true_eq, Char.le_def,
    UInt32.le_iff_toNat_le] at hd
  have hc : 48 ≤ c.toNat ∧ c.toNat ≤ 57 := hd
  simp only [isLetter, List.any_cons, List.any_nil, Bool.or_eq_true, Bool.and_eq_true,
    decide_eq_true_eq, Bool.false_eq_true, or_false] at h
  omega

/-- A character of a class is none of those outside of it. -/
theorem ne_of_any_eq_false {p : Char → Bool} {ds : List Char} (hno : ds.any p = false) {c : Char}
    (h : p c = true) : ∀ d ∈ ds, c ≠ d := by
  rintro d hd rfl
  exact List.any_eq_false.1 hno c hd h

/-- A token that starts with none of these characters is a number or a name. -/
theorem token?_other {c : Char} (h : c ∉ ['<', '"', '_', '@', '^', ',', ';', '.'])
    (cs : List Char) :
    token? (c :: cs) =
      if isDigit c || isSign c then integer? (c :: cs)
      else (nameToken? (name (c :: cs)).1).map fun t => (t, (name (c :: cs)).2) := by
  simp only [List.mem_cons, List.not_mem_nil, or_false, not_or] at h
  simp [token?, h]

/-- What starts with a letter is a name. -/
theorem token?_letter {c : Char} (h : isLetter c = true) (cs : List Char) :
    token? (c :: cs) =
      (nameToken? (name (c :: cs)).1).map fun t => (t, (name (c :: cs)).2) := by
  have hne : ∀ d ∈ ['<', '"', '_', '@', '^', ',', ';', '.', '+', '-'], c ≠ d :=
    ne_of_any_eq_false (by decide) h
  have hsign : isSign c = false := by simp [isSign, hne '+' (by simp), hne '-' (by simp)]
  rw [token?_other fun hc => hne c (by simp_all) rfl, isDigit_eq_false h, hsign]
  rfl

/-- No token starts with a blank or a comment. -/
theorem starts_of {p : Char → Bool} (hno : [' ', '\n', '\t', '\r', '#'].any p = false)
    {c : Char} (h : p c = true) : isSpace c = false ∧ c ≠ '#' := by
  have hne := ne_of_any_eq_false hno h
  simp only [List.mem_cons, List.not_mem_nil, or_false, forall_eq_or_imp, forall_eq] at hne
  simp [isSpace, hne]

/-- **A name is read back**, before what parts it from the rest. -/
theorem lexes_name {w : List Char} {t : Token} (hfirst : w.head?.any isLetter = true)
    (hw : ∀ c ∈ w, isNameChar c = true) (ht : nameToken? w = some t) : Lexes w [t] := by
  cases w with
  | nil => cases hfirst
  | cons c cs =>
    have hc : isLetter c = true := by simpa using hfirst
    refine lexes_of_token? (starts_of (by decide) hc) fun rest hrest => ?_
    have hname : name (c :: (cs ++ rest)) = (c :: cs, rest) := name_append hw hrest
    rw [token?_letter hc, hname]
    simp only [ht, Option.map_some]

theorem lexes_prefixWord : Lexes ('@' :: "prefix".toList) [.prefixWord] := by
  refine lexes_of_token? (by decide) fun rest hrest => ?_
  have hname : name ("prefix".toList ++ rest) = ("prefix".toList, rest) :=
    name_append (List.all_eq_true.1 (by decide +kernel)) hrest
  rw [token?, hname, String.ofList_toList, if_pos rfl]

/-- The parts of a short name. -/
theorem parts?_append {space cs : List Char} (hno : ':' ∉ space)
    (hfirst : (space.head?.all isLetter) = true) (hlast : space.getLast? ≠ some '.')
    (hcs : (cs.head?.all fun c => isLetter c || isDigit c || c == '_' || c == ':') = true) :
    parts? (space ++ ':' :: cs) = some (String.ofList space, String.ofList cs) := by
  have hall : ∀ c ∈ space, decide (c ≠ ':') = true := by
    intro c hc
    rw [decide_eq_true_eq]
    rintro rfl
    exact hno hc
  have htake : (space ++ ':' :: cs).takeWhile (· ≠ ':') = space := by
    rw [List.takeWhile_append_of_pos hall]
    simp
  have hdrop : (space ++ ':' :: cs).dropWhile (· ≠ ':') = ':' :: cs := by
    rw [List.dropWhile_append_of_pos hall]
    simp
  simp only [parts?, htake, hdrop, List.drop_succ_cons, List.drop_zero, hfirst, hcs]
  exact if_pos ⟨trivial, hlast, trivial⟩

/-- The names of the namespaces are of letters. -/
theorem namespaces_letters : ∀ n ∈ namespaces,
    n.1.toList.head?.any isLetter = true ∧ n.1.toList.head?.all isLetter = true ∧
      n.1.toList.all isLetter = true := by
  decide +kernel

/-- **A short name is read back** in its two parts, of which the second may be empty. -/
theorem lexes_parts {n : String × Iri} (hn : n ∈ namespaces) {cs : List Char}
    (hstart : (cs.head?.all fun c => isLetter c || isDigit c || c == '_' || c == ':') = true)
    (hcs : ∀ c ∈ cs, isNameChar c = true) :
    Lexes (n.1.toList ++ ':' :: cs) [.short n.1 (String.ofList cs)] := by
  obtain ⟨hany, hfirst, hall⟩ := namespaces_letters n hn
  have hletters := List.all_eq_true.1 hall
  -- letters are neither colons nor dots
  have hcolon : ':' ∉ n.1.toList := fun h => absurd (hletters _ h) (by decide)
  have hlast : n.1.toList.getLast? ≠ some '.' := fun h =>
    absurd (hletters _ (List.mem_of_getLast? h)) (by decide)
  have hparts : parts? (n.1.toList ++ ':' :: cs) = some (n.1, String.ofList cs) := by
    rw [parts?_append hcolon hfirst hlast hstart, String.ofList_toList]
  have hchars : ∀ c ∈ n.1.toList ++ ':' :: cs, isNameChar c = true := by
    intro c hc
    rcases List.mem_append.1 hc with hc | hc
    · simp [isNameChar, hletters c hc]
    · rcases List.mem_cons.1 hc with rfl | hc
      · decide
      · exact hcs c hc
  refine lexes_name ?_ hchars ?_
  · rw [List.head?_append]
    cases hh : n.1.toList.head? with
    | none => simp [hh] at hany
    | some c => simpa [hh] using hany
  · rw [nameToken?, if_pos (by simp), hparts]
    rfl

theorem lexes_short {n : String × Iri} (hn : n ∈ namespaces) {cs : List Char}
    (hcs : isLocalName cs = true) :
    Lexes (n.1 ++ ":" ++ String.ofList cs).toList [.short n.1 (String.ofList cs)] := by
  obtain ⟨d, ds, rfl, hd, hlocal⟩ := isLocalName_cases hcs
  have hstart : ((d :: ds).head?.all fun c => isLetter c || isDigit c || c == '_' || c == ':') =
      true := by
    rcases hd with hd | hd <;> simp [hd]
  have hpiece : (n.1 ++ ":" ++ String.ofList (d :: ds)).toList = n.1.toList ++ ':' :: d :: ds := by
    simp
  rw [hpiece]
  exact lexes_parts hn hstart fun c hc => isNameChar_of_isLocalChar (hlocal c hc)

/-! ## IRIs and blank nodes -/

theorem tokens?_plain {i : Iri} (h : PlainIri i) {rest : List Char} {more : List Token}
    (hmore : tokens? rest = some more) :
    tokens? ('<' :: (i.toList ++ '>' :: rest)) = some (.iri i :: more) := by
  refine tokens?_cons (by decide) (by rw [token?, iriRef?_append h]; rfl) ?_ hmore
  rw [List.length_append, List.length_cons]
  omega

/-- The token of an IRI, which may have a short name. -/
def iriToken (i : Iri) : Token → Prop
  | .iri j => j = i
  | .short space loc => ∃ n ∈ namespaces, n.1 = space ∧ i = n.2 ++ loc
  | _ => False

/-- **An IRI** is read as itself, or as a short name that stands for it. -/
theorem lexes_iri {i : Iri} (h : PlainIri i) : ∃ t, iriToken i t ∧ Lexes (iri i).toList [t] := by
  cases hc : compact? i with
  | none =>
    refine ⟨.iri i, rfl, fun rest more _ hmore => ?_⟩
    have hpiece : (iri i).toList ++ rest = '<' :: (i.toList ++ '>' :: rest) := by
      simp [iri, hc]
    rw [hpiece]
    exact tokens?_plain h hmore
  | some s =>
    obtain ⟨n, hn, cs, hcs, hi, rfl⟩ := compact?_eq_some hc
    refine ⟨.short n.1 (String.ofList cs), ⟨n, hn, rfl, hi⟩, ?_⟩
    have hpiece : iri i = n.1 ++ ":" ++ String.ofList cs := by simp [iri, hc]
    rw [hpiece]
    exact lexes_short hn hcs

theorem lexes_blank (n : Nat) : Lexes (Term.blankLabel n).toList [.blank n] := by
  have hlabel := toList_blankLabel n
  rw [hlabel]
  refine lexes_of_token? (by decide) fun rest hrest => ?_
  have hread := label?_append n hrest
  rw [hlabel, List.cons_append] at hread
  rw [token?, hread]
  rfl

/-! ## Literals -/

theorem tokens?_quoted (s : String) {rest : List Char} {more : List Token}
    (hmore : tokens? rest = some more) :
    tokens? ((quoted s).toList ++ rest) = some (.text s :: more) := by
  have hread := quotedText?_append s rest
  rw [toList_quoted, List.cons_append] at hread ⊢
  have htoken : token? ('"' :: (s.toList.flatMap escapeChar ++ ['"'] ++ rest)) =
      some (.text s, rest) := by
    rw [token?, hread]
    rfl
  refine tokens?_cons (by decide) htoken ?_ hmore
  rw [List.length_append]
  omega

theorem tokens?_typed {rest : List Char} {more : List Token} (hmore : tokens? rest = some more) :
    tokens? ('^' :: '^' :: rest) = some (.typed :: more) :=
  tokens?_cons (by decide) rfl (Nat.le_succ _) hmore

/-- A whole number is digits behind an optional sign. -/
theorem isIntegerToken_cases {s : String} (h : isIntegerToken s = true) :
    ∃ sign d digits, s.toList = sign ++ d :: digits ∧ sign.length ≤ 1 ∧
      (∀ c ∈ sign, isSign c = true) ∧ ∀ c ∈ d :: digits, isDigit c = true := by
  have hdigits : ∀ ds : List Char, (!ds.isEmpty && ds.all fun c => '0' ≤ c && c ≤ '9') = true →
      ∃ d digits, ds = d :: digits ∧ ∀ c ∈ d :: digits, isDigit c = true := by
    intro ds hds
    cases ds with
    | nil => cases hds
    | cons d digits =>
      simp only [List.isEmpty_cons, Bool.not_false, Bool.true_and, List.all_eq_true] at hds
      exact ⟨d, digits, rfl, hds⟩
  rw [isIntegerToken] at h
  cases hs : s.toList with
  | nil => simp [hs] at h
  | cons c cs =>
    rw [hs] at h
    by_cases hplus : c = '+'
    · subst hplus
      obtain ⟨d, digits, rfl, hall⟩ := hdigits cs h
      exact ⟨['+'], d, digits, rfl, Nat.le_refl 1, by simp [isSign], hall⟩
    by_cases hminus : c = '-'
    · subst hminus
      obtain ⟨d, digits, rfl, hall⟩ := hdigits cs h
      exact ⟨['-'], d, digits, rfl, Nat.le_refl 1, by simp [isSign], hall⟩
    · obtain ⟨d, digits, he, hall⟩ := hdigits (c :: cs) (by simpa [hplus, hminus] using h)
      exact ⟨[], d, digits, he, Nat.zero_le 1, by simp, hall⟩

/-- Digits, or a sign, start a number. -/
theorem token?_digit {c : Char} (h : (isDigit c || isSign c) = true) (cs : List Char) :
    token? (c :: cs) = integer? (c :: cs) := by
  have hne : ∀ d ∈ ['<', '"', '_', '@', '^', ',', ';', '.'], c ≠ d :=
    ne_of_any_eq_false (p := fun d => isDigit d || isSign d) (by decide) h
  rw [token?_other fun hc => hne c hc rfl, if_pos h]

/-- **A whole number is read back**, spelled as it is. -/
theorem lexes_integer {s : String} (h : isIntegerToken s = true) :
    Lexes s.toList [.integer s] := by
  obtain ⟨sign, d, digits, hs, hlen, hsign, hdigits⟩ := isIntegerToken_cases h
  have hd : isSign d = false := by
    have := hdigits d List.mem_cons_self
    rw [Bool.eq_false_iff]
    intro hk
    simp only [isSign, Bool.or_eq_true, beq_iff_eq] at hk
    rcases hk with rfl | rfl <;> exact absurd this (by decide)
  have hread : ∀ rest, Parted rest →
      integer? (sign ++ d :: digits ++ rest) = some (.integer s, rest) := by
    intro rest hrest
    obtain ⟨hnone, hrest'⟩ := hrest.takeWhile_eq_nil (p := isDigit) (by decide) (by decide)
    have hends : endsNumber rest = true := by
      cases rest with
      | nil => rfl
      | cons c cs => rcases hrest with h | h <;> (cases h; rfl)
    have htake : (sign ++ d :: digits ++ rest).takeWhile isSign = sign := by
      rw [List.append_assoc, List.takeWhile_append_of_pos hsign]
      simp [hd]
    have hdrop : (sign ++ d :: digits ++ rest).dropWhile isSign = d :: digits ++ rest := by
      rw [List.append_assoc, List.dropWhile_append_of_pos hsign]
      simp [hd]
    have htake' : (d :: digits ++ rest).takeWhile isDigit = d :: digits := by
      rw [List.takeWhile_append_of_pos hdigits, hnone, List.append_nil]
    have hdrop' : (d :: digits ++ rest).dropWhile isDigit = rest := by
      rw [List.dropWhile_append_of_pos hdigits, hrest']
    simp only [integer?, htake, hdrop, htake', hdrop']
    rw [if_pos ⟨hlen, List.cons_ne_nil d digits, hends⟩, ← hs, String.ofList_toList]
  -- the token starts with the sign, if there is one, or else with a digit
  obtain ⟨c, cs, hcs, hc⟩ : ∃ c cs, sign ++ d :: digits = c :: cs ∧
      (isDigit c || isSign c) = true := by
    cases sign with
    | nil => exact ⟨d, digits, rfl, by simp [hdigits d]⟩
    | cons c sign => exact ⟨c, sign ++ d :: digits, rfl, by simp [hsign c]⟩
  have hstart := starts_of (p := fun c => isDigit c || isSign c) (by decide) hc
  rw [hcs] at hread
  rw [hs, hcs]
  exact lexes_of_token? hstart fun rest hrest => (token?_digit hc _).trans (hread rest hrest)

/-- **A truth value** is a word. -/
theorem lexes_boolean {s : String} (h : s = "true" ∨ s = "false") : Lexes s.toList [.word s] := by
  rcases h with rfl | rfl
  · exact lexes_name rfl (List.all_eq_true.1 (by decide +kernel)) (by decide +kernel)
  · exact lexes_name rfl (List.all_eq_true.1 (by decide +kernel)) (by decide +kernel)

end SchemaShapes.Output.Turtle
