import Mathlib.Computability.RegularExpressions
import Mathlib.Data.List.DropRight
import Mathlib.Tactic.IntervalCases
import SchemaShapes.Number.Layout
import SchemaShapes.Number.Numeral

/-!
# What texts of numbers look like

Whole numbers are a sign and digits, and a finite double that is written without an exponent is a
sign and digits with at most one point among them.

* `integerPattern`, `decimalPattern`: the two forms, as regular expressions.
* `Magnitude.shortest_digits_ne_zero`: the decimal that names a magnitude above zero has a digit
  above zero.
* `Layout.matches_plain`: the text of a finite double is a decimal.
-/

namespace SchemaShapes.Number

open RegularExpression

/-! ## Patterns -/

/-- A text that a pattern describes as a whole. -/
abbrev Matches (pattern : RegularExpression Char) (s : String) : Prop :=
  s.toList ∈ pattern.matches'

/-- One of some characters. -/
def oneOf (cs : List Char) : RegularExpression Char := (cs.map char).sum

/-- One digit or more: `[0-9]+`. -/
def digitsPattern : RegularExpression Char :=
  oneOf "0123456789".toList * (oneOf "0123456789".toList).star

/-- An optional sign: `[+-]?`. -/
def signPattern : RegularExpression Char := 1 + oneOf ['+', '-']

/-- **Whole numbers**: `[+-]?[0-9]+`. -/
def integerPattern : RegularExpression Char := signPattern * digitsPattern

/-- Digits with an optional fraction: `[0-9]+(.[0-9]+)?`. -/
def unsignedPattern : RegularExpression Char :=
  digitsPattern * (1 + char '.' * digitsPattern)

/-- **Decimals**: `[+-]?[0-9]+(.[0-9]+)?`. -/
def decimalPattern : RegularExpression Char := signPattern * unsignedPattern

theorem mem_oneOf {cs : List Char} {c : Char} (h : c ∈ cs) : [c] ∈ (oneOf cs).matches' := by
  induction cs with
  | nil => cases h
  | cons d cs ih =>
    show [c] ∈ (char d + oneOf cs).matches'
    rw [matches'_add, Language.mem_add]
    rcases List.mem_cons.1 h with rfl | h
    · exact Or.inl rfl
    · exact Or.inr (ih h)

theorem mem_digits_of_isDigit {c : Char} (h : c.isDigit = true) : c ∈ "0123456789".toList := by
  have hrange : 48 ≤ c.toNat ∧ c.toNat ≤ 57 := by
    simpa [Char.isDigit, UInt32.le_iff_toNat_le] using h
  obtain ⟨hlow, hhigh⟩ := hrange
  rw [← Char.ofNat_toNat c]
  interval_cases c.toNat <;> decide

/-- Digits, or none. -/
theorem mem_digits_star {cs : List Char} (h : ∀ c ∈ cs, c.isDigit = true) :
    cs ∈ (oneOf "0123456789".toList).star.matches' := by
  rw [matches'_star, Language.mem_kstar]
  refine ⟨cs.map fun d => [d], (List.flatMap_singleton' cs).symm, fun w hw => ?_⟩
  obtain ⟨d, hd, rfl⟩ := List.mem_map.1 hw
  exact mem_oneOf (mem_digits_of_isDigit (h d hd))

/-- **Digits**, at least one, are a number. -/
theorem mem_digitsPattern {cs : List Char} (hne : cs ≠ []) (h : ∀ c ∈ cs, c.isDigit = true) :
    cs ∈ digitsPattern.matches' := by
  obtain ⟨c, more, rfl⟩ := List.exists_cons_of_ne_nil hne
  have hc : [c] ∈ (oneOf "0123456789".toList).matches' :=
    mem_oneOf (mem_digits_of_isDigit (h c List.mem_cons_self))
  exact Language.append_mem_mul hc (mem_digits_star fun d hd => h d (List.mem_cons_of_mem _ hd))

/-- Digits alone. -/
theorem unsigned_of_digits {cs : List Char} (h : cs ∈ digitsPattern.matches') :
    cs ∈ unsignedPattern.matches' := by
  have hmul := Language.append_mem_mul h
    (show [] ∈ (1 + char '.' * digitsPattern).matches' from Or.inl rfl)
  rwa [List.append_nil] at hmul

/-- **Digits before and behind a point**, which is left out if there are none behind it. -/
def pointed (whole : List Char) : List Char → List Char
  | [] => whole
  | c :: cs => whole ++ '.' :: c :: cs

theorem pointed_of_ne_nil {whole fraction : List Char} (h : fraction ≠ []) :
    pointed whole fraction = whole ++ '.' :: fraction := by
  obtain ⟨c, cs, rfl⟩ := List.exists_cons_of_ne_nil h
  rfl

/-- Digits with a point are an unsigned decimal. -/
theorem mem_unsignedPattern {whole fraction : List Char} (hne : whole ≠ [])
    (h : ∀ c ∈ whole ++ fraction, c.isDigit = true) :
    pointed whole fraction ∈ unsignedPattern.matches' := by
  have hwhole : whole ∈ digitsPattern.matches' :=
    mem_digitsPattern hne fun c hc => h c (List.mem_append_left _ hc)
  by_cases hnil : fraction = []
  · subst hnil
    exact unsigned_of_digits hwhole
  · have hfraction : fraction ∈ digitsPattern.matches' :=
      mem_digitsPattern hnil fun d hd => h d (List.mem_append_right _ hd)
    have hpoint : ['.'] ++ fraction ∈ (char '.' * digitsPattern).matches' :=
      Language.append_mem_mul (show ['.'] ∈ (char '.').matches' from rfl) hfraction
    rw [pointed_of_ne_nil hnil]
    exact Language.append_mem_mul hwhole (Or.inr hpoint)

/-- What a pattern describes, with a minus or nothing before it. -/
theorem matches_signed {pattern : RegularExpression Char} {s : String} (negative : Bool)
    (h : Matches pattern s) :
    Matches (signPattern * pattern) ((if negative then "-" else "") ++ s) := by
  have hsign : (if negative then "-" else "").toList ∈ signPattern.matches' := by
    cases negative with
    | false => exact Or.inl rfl
    | true =>
      have hminus : '-' ∈ ['+', '-'] := by decide
      exact Or.inr (mem_oneOf hminus)
  rw [Matches, String.toList_append]
  exact Language.append_mem_mul hsign h

/-- **Whole numbers are decimals.** -/
theorem Matches.decimal {s : String} (h : Matches integerPattern s) : Matches decimalPattern s := by
  obtain ⟨sign, hsign, digits, hdigits, heq⟩ := Language.mem_mul.1 h
  rw [Matches, ← heq]
  exact Language.append_mem_mul hsign (unsigned_of_digits hdigits)

/-! ## Whole numbers -/

theorem matches_nat (n : Nat) : Matches digitsPattern (toString n) := by
  rw [Matches, Nat.toString_eq_repr, Nat.repr_eq_ofList_toDigits, String.toList_ofList]
  exact mem_digitsPattern Nat.toDigits_ne_nil fun c hc =>
    Nat.isDigit_of_mem_toDigits (by decide) (by decide) hc

theorem matches_signed_nat (negative : Bool) (n : Nat) :
    Matches integerPattern ((if negative then "-" else "") ++ toString n) :=
  matches_signed negative (matches_nat n)

/-- **The text of a whole number** is one. -/
theorem matches_int (n : Int) : Matches integerPattern (toString n) := by
  rw [Int.toString_eq_repr, Int.repr_eq_if]
  by_cases h : 0 ≤ n
  · rw [if_pos h]
    exact matches_signed_nat false n.toNat
  · rw [if_neg h]
    exact matches_signed_nat true (-n).toNat

/-! ## The fewest digits -/

namespace Magnitude

variable {m : Magnitude} {d : Decimal}

/-- What names a magnitude above zero is above zero. -/
theorem digits_ne_zero_of_names (hm : m.significand ≠ 0) (h : names d m = true) :
    d.digits ≠ 0 := by
  intro hd
  have hread := of_decide_eq_true h
  rw [ofDecimal?, if_pos (Or.inl hd), Option.some.injEq] at hread
  exact hm (hread ▸ rfl)

theorem names_of_onGrid? {tie : Tie} {exponent : Int} (h : m.onGrid? tie exponent = some d) :
    names d m = true := by
  unfold onGrid? at h
  simp only at h
  split at h
  · rename_i hlow hhigh
    rw [← Option.some.inj h, apply_ite (names · m), hlow, hhigh, ite_self]
  · rename_i hlow _
    exact Option.some.inj h ▸ hlow
  · rename_i _ hhigh
    exact Option.some.inj h ▸ hhigh
  · cases h

/-- **The fewest digits of a magnitude** are a decimal of a grid, or all digits. -/
theorem shortest_cases (tie : Tie) (m : Magnitude) :
    (∃ more : Nat, m.onGrid? tie (m.leading - more) = some (m.shortest tie)) ∨
      m.shortest tie = m.exact := by
  unfold shortest
  cases hgrid : (List.range 17).findSome? fun (more : Nat) =>
      m.onGrid? tie (m.leading - more) with
  | some d =>
    obtain ⟨more, -, hd⟩ := List.exists_of_findSome?_eq_some hgrid
    exact Or.inl ⟨more, hd⟩
  | none => exact Or.inr rfl

/-- **The fewest digits of a magnitude above zero** are not all zero. -/
theorem shortest_digits_ne_zero (tie : Tie) (hm : m.significand ≠ 0) :
    (m.shortest tie).digits ≠ 0 := by
  rcases m.shortest_cases tie with ⟨more, hgrid⟩ | hexact
  · exact digits_ne_zero_of_names hm (names_of_onGrid? hgrid)
  · have hpow : ∀ k, 0 < Nat.pow 5 k := fun k => Nat.pow_pos (by decide)
    have hunits : 0 < m.units := Nat.mul_pos (Nat.pos_of_ne_zero hm) (Nat.pow_pos (by decide))
    rw [hexact]
    exact (Nat.mul_pos hunits (hpow 1074)).ne'

end Magnitude

/-! ## Doubles -/

/-- Digits that are all zero have the value zero. -/
theorem ofDigitChars_zeros {cs : List Char} (h : ∀ c ∈ cs, c = '0') :
    Nat.ofDigitChars 10 cs 0 = 0 := by
  induction cs with
  | nil => rfl
  | cons c cs ih =>
    obtain rfl := h c List.mem_cons_self
    exact ih fun d hd => h d (List.mem_cons_of_mem _ hd)

namespace Layout

/-- The significant digits of a number above zero. -/
theorem figures_digits {d : Decimal} (h : d.digits ≠ 0) :
    (figures d).1 ≠ [] ∧ ∀ c ∈ (figures d).1, c.isDigit = true := by
  have hfigures : (figures d).1 = (Nat.toDigits 10 d.digits).rdropWhile (· == '0') := rfl
  rw [hfigures]
  constructor
  · intro hnil
    rw [List.rdropWhile_eq_nil_iff] at hnil
    have hzero := ofDigitChars_zeros fun c hc => beq_iff_eq.1 (hnil c hc)
    rw [Nat.ofDigitChars_toDigits (by decide) (by decide)] at hzero
    exact h hzero
  · intro c hc
    exact Nat.isDigit_of_mem_toDigits (by decide) (by decide)
      ((List.rdropWhile_prefix _ _).subset hc)

/-- **Digits that are written out** have zeros before or behind them as far as the point is outside.
What is written has their value, at the place that the point gives them. -/
theorem exists_writtenOut {digits : List Char} (hne : digits ≠ [])
    (h : ∀ c ∈ digits, c.isDigit = true) (point : Int) :
    ∃ (whole fraction : List Char) (zeros : Nat),
      (plain.writtenOut digits point).toList = pointed whole fraction ∧ whole ≠ [] ∧
      (∀ c ∈ whole ++ fraction, c.isDigit = true) ∧
      Nat.ofDigitChars 10 (whole ++ fraction) 0 = Nat.ofDigitChars 10 digits 0 * 10 ^ zeros ∧
      (zeros : Int) - fraction.length = point - digits.length := by
  have hzeros : ∀ n, ∀ c ∈ List.replicate n '0', c.isDigit = true := by
    intro n c hc
    rw [List.eq_of_mem_replicate hc]
    rfl
  have hlength : 0 < digits.length := List.length_pos_iff.2 hne
  unfold writtenOut
  by_cases hpoint : point ≤ 0
  · -- zeros stand between the point and the digits
    have hall : ∀ c ∈ ['0'] ++ (List.replicate (-point).toNat '0' ++ digits), c.isDigit = true :=
      List.forall_mem_append.2 ⟨hzeros 1, List.forall_mem_append.2 ⟨hzeros _, h⟩⟩
    have hbehind : List.replicate (-point).toNat '0' ++ digits ≠ [] := by simp [hne]
    refine ⟨['0'], List.replicate (-point).toNat '0' ++ digits, 0, ?_, by simp, hall, ?_, ?_⟩
    · rw [if_pos hpoint, pointed_of_ne_nil hbehind]
      simp only [String.toList_append, String.toList_ofList]
      rfl
    · have hvalue : Nat.ofDigitChars 10 ('0' :: List.replicate (-point).toNat '0') 0 = 0 :=
        ofDigitChars_zeros fun c hc => List.eq_of_mem_replicate (n := (-point).toNat + 1) hc
      rw [← List.append_assoc, Nat.ofDigitChars_append, List.singleton_append, hvalue, pow_zero,
        mul_one]
    · rw [List.length_append, List.length_replicate]
      omega
  · rw [if_neg hpoint]
    by_cases hshort : digits.length ≤ point.toNat
    · -- zeros fill up to the point, which is not written
      have hall := List.forall_mem_append.2 ⟨h, hzeros (point.toNat - digits.length)⟩
      refine ⟨digits ++ List.replicate (point.toNat - digits.length) '0', [],
        point.toNat - digits.length, ?_, by simp [hne], by rwa [List.append_nil], ?_, ?_⟩
      · simp only [hshort, if_true, String.toList_append, String.toList_ofList]
        exact List.append_nil _
      · rw [List.append_nil, Nat.ofDigitChars_append, Nat.ofDigitChars_replicate_zero, Nat.mul_comm]
      · rw [List.length_nil]
        omega
    · -- the point stands among the digits
      have hbehind : digits.drop point.toNat ≠ [] := by
        simp only [ne_eq, List.drop_eq_nil_iff]
        omega
      have hbefore : digits.take point.toNat ≠ [] := by
        simp only [ne_eq, List.take_eq_nil_iff, hne, or_false]
        omega
      refine ⟨digits.take point.toNat, digits.drop point.toNat, 0, ?_, hbefore,
        by rwa [List.take_append_drop], by rw [List.take_append_drop, pow_zero, mul_one], ?_⟩
      · simp only [hshort, if_false, String.toList_append, String.toList_ofList, List.append_assoc]
        exact (pointed_of_ne_nil hbehind).symm
      · rw [List.length_drop]
        omega

/-- Digits with a point are an unsigned decimal, wherever the point is. -/
theorem matches_writtenOut {digits : List Char} (hne : digits ≠ [])
    (h : ∀ c ∈ digits, c.isDigit = true) (point : Int) :
    Matches unsignedPattern (plain.writtenOut digits point) := by
  obtain ⟨whole, fraction, zeros, htext, hwhole, hdigits, -, -⟩ := exists_writtenOut hne h point
  rw [Matches, htext]
  exact mem_unsignedPattern hwhole hdigits

/-- **The text of a finite double** without an exponent is a decimal. -/
theorem matches_plain (negative : Bool) (m : Magnitude) :
    Matches decimalPattern (plain.render (.finite negative m)) := by
  refine matches_signed negative ?_
  by_cases hm : m.significand = 0
  · have hzero : Matches unsignedPattern "0" := by decide
    have htext : plain.magnitude m = "0" := by
      rw [magnitude, if_pos hm]
      rfl
    exact htext ▸ hzero
  · obtain ⟨hne, hdigits⟩ := figures_digits (Magnitude.shortest_digits_ne_zero .up hm)
    have htext : plain.magnitude m = plain.writtenOut (figures (m.shortest .up)).1
        (figures (m.shortest .up)).2 := by
      simp only [magnitude, hm, if_false, plain, if_true]
    exact htext ▸ matches_writtenOut hne hdigits _

example : Matches decimalPattern "-0.25" ∧ ¬ Matches decimalPattern "1e5" := by decide

end Layout

end SchemaShapes.Number
