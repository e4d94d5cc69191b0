import SchemaShapes.Proofs.Number.Texts
import SchemaShapes.Text.Blank

/-!
# Reading whole numbers

A text states a whole number if it is a sign or none and digits, with blanks around them. Such a
text is read as the number that it states, whatever sign, zeros and blanks it has, and nothing else
is read as a whole number.

* `StatesInteger`: the whole numbers that texts state.
* `integer?_trim_eq_some_iff`: what is read as a whole number of 64 bits.
* `real?_toString`: what the text of a whole number is read as where doubles are read.
* `matches_canonicalPattern`: the text of a whole number has no sign or zero that it can do without.
-/

namespace SchemaShapes

/-! ## Blanks around a text -/

namespace Text

/-- A text is what is left of it when it is trimmed, with blanks around it. -/
theorem exists_blanks (cs : List Char) :
    ∃ before after, cs = before ++ trim cs ++ after ∧
      ∀ c ∈ before ++ after, isBlank c = true := by
  refine ⟨cs.takeWhile isBlank, (cs.dropWhile isBlank).rtakeWhile isBlank, ?_, fun c hc => ?_⟩
  · have htrim : trim cs = (cs.dropWhile isBlank).rdropWhile isBlank := rfl
    rw [htrim, List.append_assoc, List.rdropWhile_append_rtakeWhile, List.takeWhile_append_dropWhile]
  · rcases List.mem_append.1 hc with hc | hc
    · exact List.mem_takeWhile_imp hc
    · exact List.mem_rtakeWhile_imp hc

theorem dropWhile_isBlank {cs : List Char} (h : ∀ c ∈ cs, isBlank c = false) :
    cs.dropWhile isBlank = cs := by
  cases cs with
  | nil => rfl
  | cons c cs => rw [List.dropWhile_cons_of_neg (by simp [h c List.mem_cons_self])]

/-- **Trimming** takes away the blanks around a text without blanks. -/
theorem trim_of_blanks {before core after : List Char}
    (houter : ∀ c ∈ before ++ after, isBlank c = true) (hcore : ∀ c ∈ core, isBlank c = false) :
    trim (before ++ core ++ after) = core := by
  have hbefore : ∀ c ∈ before, isBlank c = true := fun c hc =>
    houter c (List.mem_append_left _ hc)
  have hafter : ∀ c ∈ after.reverse, isBlank c = true := fun c hc =>
    houter c (List.mem_append_right _ (List.mem_reverse.1 hc))
  have hback : ∀ c ∈ core.reverse, isBlank c = false := fun c hc => hcore c (List.mem_reverse.1 hc)
  rw [trim, List.append_assoc, List.dropWhile_append_of_pos hbefore]
  cases core with
  | nil =>
    have hnone : after.dropWhile isBlank = [] :=
      List.dropWhile_eq_nil_iff.2 fun c hc => hafter c (List.mem_reverse.2 hc)
    rw [List.nil_append, hnone]
    rfl
  | cons c cs =>
    have hfirst : ¬ isBlank c = true := by simp [hcore c List.mem_cons_self]
    rw [List.cons_append, List.dropWhile_cons_of_neg hfirst, ← List.cons_append,
      List.reverse_append, List.dropWhile_append_of_pos hafter, dropWhile_isBlank hback,
      List.reverse_reverse]

/-- A text without blanks is left as it is. -/
theorem trim_of_not_isBlank {cs : List Char} (h : ∀ c ∈ cs, isBlank c = false) : trim cs = cs := by
  have htrim : trim ([] ++ cs ++ []) = cs := trim_of_blanks (by simp) h
  rwa [List.append_nil, List.nil_append] at htrim

end Text

namespace Number

/-! ## Whole numbers that texts state -/

/-- **The signs of numbers**, each with whether it is a minus. -/
inductive IsSign : List Char → Bool → Prop
  | none : IsSign [] false
  | plus : IsSign ['+'] false
  | minus : IsSign ['-'] true

/-- A sign or none, and at least one digit, of a whole number. -/
def WritesInteger (cs : List Char) (n : Int) : Prop :=
  ∃ mark digits negative, cs = mark ++ digits ∧ IsSign mark negative ∧ digits ≠ [] ∧
    (∀ c ∈ digits, c.isDigit = true) ∧ n = signed negative (Nat.ofDigitChars 10 digits 0)

/-- **The whole number that a text states**, with blanks around its sign and digits. -/
def StatesInteger (s : String) (n : Int) : Prop :=
  ∃ before core after, s.toList = before ++ core ++ after ∧
    (∀ c ∈ before ++ after, Text.isBlank c = true) ∧ WritesInteger core n

variable {cs mark digits : List Char} {negative : Bool} {n : Int} {c : Char}

theorem not_isBlank_of_isDigit (h : c.isDigit = true) : Text.isBlank c = false := by
  have hall : ("0123456789".toList.all fun d => !Text.isBlank d) = true := by decide
  have hc := List.all_eq_true.1 hall c (mem_digits_of_isDigit h)
  rwa [Bool.not_eq_true'] at hc

theorem IsSign.not_isBlank (h : IsSign mark negative) : ∀ c ∈ mark, Text.isBlank c = false := by
  intro c hc
  cases h with
  | none => cases hc
  | plus => exact List.mem_singleton.1 hc ▸ rfl
  | minus => exact List.mem_singleton.1 hc ▸ rfl

theorem WritesInteger.not_isBlank (h : WritesInteger cs n) : ∀ c ∈ cs, Text.isBlank c = false := by
  obtain ⟨mark, digits, negative, rfl, hmark, -, hdigits, -⟩ := h
  exact List.forall_mem_append.2 ⟨hmark.not_isBlank, fun c hc => not_isBlank_of_isDigit (hdigits c hc)⟩

/-- What a text states is what it writes when it is trimmed. -/
theorem statesInteger_iff {s : String} :
    StatesInteger s n ↔ WritesInteger (Text.trim s.toList) n := by
  constructor
  · rintro ⟨before, core, after, hs, houter, hcore⟩
    rwa [hs, Text.trim_of_blanks houter hcore.not_isBlank]
  · intro h
    obtain ⟨before, after, hs, houter⟩ := Text.exists_blanks s.toList
    exact ⟨before, _, after, hs, houter, h⟩

/-! ## Reading signs and digits -/

theorem exists_sign (cs : List Char) : ∃ mark, IsSign mark (sign cs).1 ∧ cs = mark ++ (sign cs).2 := by
  unfold sign
  split
  · exact ⟨['-'], .minus, rfl⟩
  · exact ⟨['+'], .plus, rfl⟩
  · exact ⟨[], .none, rfl⟩

/-- What begins with a digit has no sign of its own. -/
theorem sign_append (hmark : IsSign mark negative) (hc : c.isDigit = true) :
    sign (mark ++ c :: cs) = (negative, c :: cs) := by
  cases hmark with
  | plus => rfl
  | minus => rfl
  | none =>
    -- neither sign is a digit
    rw [List.nil_append]
    unfold sign
    split
    · rename_i heq
      cases heq
      exact absurd hc (by decide)
    · rename_i heq
      cases heq
      exact absurd hc (by decide)
    · rfl

theorem writesInteger_iff : WritesInteger cs n ↔
    (sign cs).2 ≠ [] ∧ (∀ c ∈ (sign cs).2, c.isDigit = true) ∧
      n = signed (sign cs).1 (valueOf (sign cs).2) := by
  constructor
  · rintro ⟨mark, digits, negative, rfl, hmark, hne, hdigits, hn⟩
    obtain ⟨c, cs, rfl⟩ := List.exists_cons_of_ne_nil hne
    rw [sign_append hmark (hdigits c List.mem_cons_self)]
    exact ⟨hne, hdigits, hn⟩
  · rintro ⟨hne, hdigits, hn⟩
    obtain ⟨mark, hmark, hcs⟩ := exists_sign cs
    exact ⟨mark, _, _, hcs, hmark, hne, hdigits, hn⟩

theorem fitsInt64_toInt (k : Int64) : fitsInt64 k.toInt = true := by
  rw [fitsInt64, Bool.and_eq_true, decide_eq_true_iff, decide_eq_true_iff]
  exact ⟨k.minValue_le_toInt, k.toInt_le⟩

theorem toInt_ofInt_of_fitsInt64 (h : fitsInt64 n = true) : (Int64.ofInt n).toInt = n := by
  rw [fitsInt64, Bool.and_eq_true, decide_eq_true_iff, decide_eq_true_iff] at h
  have hmin : Int64.minValue.toInt = -2 ^ 63 := by decide
  have hmax : Int64.maxValue.toInt = 2 ^ 63 - 1 := by decide
  exact Int64.toInt_ofInt_of_le (by omega) (by omega)

theorem all_isDigit : digits.all isDigit = true ↔ ∀ c ∈ digits, c.isDigit = true :=
  List.all_eq_true

/-- **What is read as a whole number** of 64 bits: a sign or none and digits that write it. -/
theorem integer?_eq_some_iff {k : Int64} : integer? cs = some k ↔ WritesInteger cs k.toInt := by
  have hempty : (sign cs).2.isEmpty = false ↔ (sign cs).2 ≠ [] := by
    rw [← Bool.not_eq_true, List.isEmpty_iff]
  rw [writesInteger_iff, ← hempty, ← all_isDigit]
  unfold integer?
  simp only
  constructor
  · intro h
    split at h
    · cases h
    · rename_i hdigits
      split at h
      · rename_i hfits
        rw [← Option.some.inj h, toInt_ofInt_of_fitsInt64 hfits]
        simpa using hdigits
      · cases h
  · rintro ⟨hne, hdigits, hk⟩
    rw [← hk, hne, hdigits, if_neg (by decide), if_pos (fitsInt64_toInt k), Int64.ofInt_toInt]

/-- **What is read as a whole number with blanks around it**: the text that states it. -/
theorem integer?_trim_eq_some_iff {s : String} {k : Int64} :
    integer? (Text.trim s.toList) = some k ↔ StatesInteger s k.toInt := by
  rw [integer?_eq_some_iff, statesInteger_iff]

/-- A sign and digits write one number. -/
theorem WritesInteger.unique {k : Int} (h : WritesInteger cs n) (h' : WritesInteger cs k) :
    n = k := by
  rw [writesInteger_iff] at h h'
  rw [h.2.2, h'.2.2]

/-- A text states one number. -/
theorem StatesInteger.unique {s : String} {k : Int} (h : StatesInteger s n)
    (h' : StatesInteger s k) : n = k :=
  (statesInteger_iff.1 h).unique (statesInteger_iff.1 h')

/-! ## Texts of whole numbers -/

/-- The text of a whole number is a minus or nothing, and its digits. -/
theorem toList_toString (n : Int) :
    (toString n).toList = (if n < 0 then ['-'] else []) ++ Nat.toDigits 10 n.natAbs := by
  rw [Int.toString_eq_repr, Int.repr_eq_if]
  by_cases h : 0 ≤ n
  · rw [if_pos h, if_neg (by omega), Nat.toList_repr, List.nil_append,
      show n.toNat = n.natAbs by omega]
  · rw [if_neg h, if_pos (by omega), String.toList_append, Nat.toList_repr,
      show (-n).toNat = n.natAbs by omega]
    rfl

theorem isSign_of_lt (n : Int) : IsSign (if n < 0 then ['-'] else []) (decide (n < 0)) := by
  by_cases h : n < 0
  · rw [if_pos h, decide_eq_true h]
    exact .minus
  · rw [if_neg h, decide_eq_false h]
    exact .none

theorem signed_natAbs (n : Int) : signed (decide (n < 0)) n.natAbs = n := by
  unfold signed
  split
  · rename_i h
    have := of_decide_eq_true h
    omega
  · rename_i h
    have := mt decide_eq_true h
    omega

theorem natAbs_signed (negative : Bool) (k : Nat) : (signed negative k).natAbs = k := by
  cases negative with
  | false => exact Int.natAbs_natCast k
  | true => exact (Int.natAbs_neg k).trans (Int.natAbs_natCast k)

/-- The text of a whole number is that of its amount, with a minus or nothing before it. -/
theorem toString_signed (negative : Bool) {k : Nat} (h : negative = false ∨ k ≠ 0) :
    toString (signed negative k) = (if negative then "-" else "") ++ toString k := by
  rw [← String.toList_inj, toList_toString, String.toList_append, Nat.toString_eq_repr,
    Nat.toList_repr]
  cases negative with
  | false =>
    have hn : ¬ signed false k < 0 := Int.not_lt.2 (Int.natCast_nonneg k)
    rw [if_neg hn]
    rfl
  | true =>
    have hk : signed true k = -(k : Int) := rfl
    have hpos : k ≠ 0 := h.resolve_left Bool.noConfusion
    rw [hk, if_pos (by omega), Int.natAbs_neg, Int.natAbs_natCast]
    rfl

theorem isDigit_of_mem_toDigits {k : Nat} : ∀ c ∈ Nat.toDigits 10 k, c.isDigit = true := fun _ hc =>
  Nat.isDigit_of_mem_toDigits (by decide) (by decide) hc

theorem writesInteger_toString (n : Int) : WritesInteger (toString n).toList n :=
  ⟨_, _, _, toList_toString n, isSign_of_lt n, Nat.toDigits_ne_nil, isDigit_of_mem_toDigits, by
    rw [Nat.ofDigitChars_ten_toDigits, signed_natAbs]⟩

theorem trim_toString (n : Int) : Text.trim (toString n).toList = (toString n).toList :=
  Text.trim_of_not_isBlank (writesInteger_toString n).not_isBlank

/-- **The text of a whole number** states it. -/
theorem statesInteger_toString (n : Int) : StatesInteger (toString n) n := by
  rw [statesInteger_iff, trim_toString]
  exact writesInteger_toString n

example : StatesInteger " +007\t" 7 :=
  statesInteger_iff.2 ⟨['+'], ['0', '0', '7'], false, by decide, .plus, by decide,
    all_isDigit.1 (by decide), by decide⟩

/-! ## Doubles -/

theorem toLower_of_isDigit (h : c.isDigit = true) : c.toLower = c := by
  have hall : ("0123456789".toList.all fun d => d.toLower == d) = true := by decide
  exact beq_iff_eq.1 (List.all_eq_true.1 hall c (mem_digits_of_isDigit h))

/-- **What begins with a digit where doubles are read** is read as a decimal. -/
theorem real?_of_isDigit (hmark : IsSign mark negative) (hc : c.isDigit = true) :
    real? (mark ++ c :: cs) = decimal? negative (c :: cs) := by
  have hname : ∀ name ∈ ["inf", "infinity", "nan"],
      (String.ofList ((c :: cs).map Char.toLower) == name) = false := by
    intro name hmem
    have hletter : name.toList.head?.all (fun d => !d.isDigit) = true := by
      revert name
      decide
    refine beq_false_of_ne fun heq => ?_
    rw [← heq, String.toList_ofList, List.map_cons, toLower_of_isDigit hc] at hletter
    simp [hc] at hletter
  unfold real?
  simp only [sign_append hmark hc, hname "inf" (by simp), hname "infinity" (by simp),
    hname "nan" (by simp), Bool.or_false, if_false, Bool.false_eq_true]

theorem decimal?_pointed (negative : Bool) {whole fraction : List Char} (hne : whole ≠ [])
    (hdigits : ∀ c ∈ whole ++ fraction, c.isDigit = true) :
    decimal? negative (pointed whole fraction) =
      some (Binary64.ofDecimal negative (Nat.ofDigitChars 10 (whole ++ fraction) 0)
        (-(fraction.length : Int))) := by
  have hempty : whole.isEmpty = false := by simp [hne]
  obtain ⟨hwhole, hfraction⟩ : (∀ c ∈ whole, isDigit c = true) ∧ ∀ c ∈ fraction, isDigit c = true :=
    List.forall_mem_append.1 hdigits
  unfold decimal?
  by_cases hnil : fraction = []
  · have htake : whole.takeWhile isDigit = whole := List.takeWhile_eq_self_iff.2 hwhole
    have hdrop : whole.dropWhile isDigit = [] := List.dropWhile_eq_nil_iff.2 hwhole
    subst hnil
    simp only [pointed, htake, hdrop, hempty, Bool.false_and, exponent?, Option.map_some,
      DecimalNumeral.nearest?]
    rfl
  · have htake : (whole ++ '.' :: fraction).takeWhile isDigit = whole := by
      rw [List.takeWhile_append_of_pos hwhole, List.takeWhile_cons_of_neg (by decide),
        List.append_nil]
    have hdrop : (whole ++ '.' :: fraction).dropWhile isDigit = '.' :: fraction := by
      rw [List.dropWhile_append_of_pos hwhole, List.dropWhile_cons_of_neg (by decide)]
    have htake' : fraction.takeWhile isDigit = fraction := List.takeWhile_eq_self_iff.2 hfraction
    have hdrop' : fraction.dropWhile isDigit = [] := List.dropWhile_eq_nil_iff.2 hfraction
    simp only [pointed_of_ne_nil hnil, htake, hdrop, htake', hdrop', hempty, Bool.false_and,
      exponent?, Option.map_some, DecimalNumeral.nearest?, Int.zero_sub]
    rfl

/-- What is written with a point begins with a digit. -/
theorem exists_pointed {whole : List Char} (fraction : List Char) (hne : whole ≠ [])
    (hwhole : ∀ c ∈ whole, c.isDigit = true) :
    ∃ c cs, pointed whole fraction = c :: cs ∧ c.isDigit = true := by
  obtain ⟨c, cs, rfl⟩ := List.exists_cons_of_ne_nil hne
  have hc := hwhole c List.mem_cons_self
  cases fraction with
  | nil => exact ⟨c, cs, rfl, hc⟩
  | cons d ds => exact ⟨c, cs ++ '.' :: d :: ds, rfl, hc⟩

/-- **Signs and digits with a point where doubles are read** are read as the double nearest to what
they write. -/
theorem real?_pointed (hmark : IsSign mark negative) {whole fraction : List Char} (hne : whole ≠ [])
    (hdigits : ∀ c ∈ whole ++ fraction, c.isDigit = true) :
    real? (mark ++ pointed whole fraction) =
      some (Binary64.ofDecimal negative (Nat.ofDigitChars 10 (whole ++ fraction) 0)
        (-(fraction.length : Int))) := by
  obtain ⟨c, cs, hcons, hc⟩ := exists_pointed fraction hne (List.forall_mem_append.1 hdigits).1
  rw [← decimal?_pointed negative hne hdigits, hcons, real?_of_isDigit hmark hc]

/-- **The text of a whole number where doubles are read** is read as the double nearest to it. -/
theorem real?_toString (n : Int) : real? (toString n).toList = some (Binary64.ofInt n) := by
  have hdigits : ∀ c ∈ Nat.toDigits 10 n.natAbs ++ [], c.isDigit = true := by
    rw [List.append_nil]
    exact isDigit_of_mem_toDigits
  have hread := real?_pointed (isSign_of_lt n) Nat.toDigits_ne_nil hdigits
  rw [List.append_nil, Nat.ofDigitChars_ten_toDigits] at hread
  rw [toList_toString]
  exact hread

/-! ## Canonical texts -/

open RegularExpression in
/-- **Whole numbers without a sign or zero that they can do without**: `0|-?[1-9][0-9]*`. -/
def canonicalPattern : RegularExpression Char :=
  char '0' +
    (1 + char '-') * (oneOf "123456789".toList * (oneOf "0123456789".toList).star)

/-- The first digit of a number above zero is not zero. -/
theorem exists_toDigits {k : Nat} (hk : 0 < k) :
    ∃ c cs, Nat.toDigits 10 k = c :: cs ∧ c ∈ "123456789".toList := by
  induction k using Nat.strongRecOn with
  | ind k ih =>
    by_cases hsmall : k < 10
    · rw [Nat.toDigits_of_lt_base hsmall]
      refine ⟨_, [], rfl, ?_⟩
      interval_cases k <;> decide
    · obtain ⟨c, cs, hcs, hc⟩ := ih (k / 10) (by omega) (by omega)
      rw [Nat.toDigits_of_base_le (by decide) (by omega), hcs]
      exact ⟨c, _, rfl, hc⟩

/-- **The text of a whole number is canonical.** -/
theorem matches_canonicalPattern (n : Int) : Matches canonicalPattern (toString n) := by
  rw [Matches, toList_toString, canonicalPattern, RegularExpression.matches'_add, Language.mem_add]
  by_cases hzero : n = 0
  · rw [hzero]
    exact Or.inl rfl
  · right
    obtain ⟨c, cs, hcs, hc⟩ := exists_toDigits (k := n.natAbs) (by omega)
    have hmore : ∀ d ∈ cs, d.isDigit = true := fun d hd =>
      isDigit_of_mem_toDigits d (hcs ▸ List.mem_cons_of_mem _ hd)
    have hsign : (if n < 0 then ['-'] else []) ∈ (1 + RegularExpression.char '-').matches' := by
      by_cases h : n < 0
      · rw [if_pos h]
        exact Or.inr rfl
      · rw [if_neg h]
        exact Or.inl rfl
    rw [hcs]
    exact Language.append_mem_mul hsign
      (Language.append_mem_mul (mem_oneOf hc) (mem_digits_star hmore))

end Number

end SchemaShapes
