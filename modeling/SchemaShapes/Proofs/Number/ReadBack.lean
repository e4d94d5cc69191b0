import SchemaShapes.Proofs.Number.Integers
import SchemaShapes.Proofs.Number.Whole

/-!
# Doubles that read back

The fewest digits of a magnitude are chosen to read back as it, and all of its digits do so too. A
decimal is read as one magnitude wherever its zeros and its point stand, and therefore the text of a
finite double, which writes the digits out, reads back as the double.

* `Magnitude.names_exact`: all digits of a magnitude read back as it.
* `Magnitude.names_shortest`: the fewest digits of a magnitude read back as it.
* `Layout.real?_trim_render`: the text of a finite double reads back as the double.
-/

namespace SchemaShapes.Number

namespace Magnitude

variable {m : Magnitude}

/-! ## The decimal that names a magnitude -/

theorem units_lt (m : Magnitude) {scale : Nat} (h : m.scale ≤ scale) :
    m.units < 2 ^ (53 + scale) := by
  have hpow : 2 ^ m.scale ≤ 2 ^ scale := Nat.pow_le_pow_right (by decide) h
  have hlt : m.significand < 2 ^ 53 := m.significand_lt
  rw [Nat.pow_add]
  exact Nat.mul_lt_mul_of_lt_of_le hlt hpow (Nat.two_pow_pos _)

/-- Every digit of a magnitude above zero lies well inside the range. -/
theorem digitCount_exact (hm : m.units ≠ 0) :
    674 < digitCount m.exact.digits ∧ digitCount m.exact.digits ≤ 1474 := by
  have hlow : 10 ^ 674 ≤ Nat.pow 5 1074 := by decide +kernel
  have hhigh : 2 ^ (53 + 2045) * Nat.pow 5 1074 < 10 ^ 1474 := by decide +kernel
  have hunits := m.units_lt m.scale_le
  have hdigits : m.exact.digits = m.units * Nat.pow 5 1074 := rfl
  rw [hdigits]
  refine ⟨Nat.lt_of_not_le fun hle => ?_, (digitCount_le_iff (by decide)).2 ?_⟩
  · have hlt := (digitCount_le_iff (by decide)).1 hle
    have hge := Nat.le_mul_of_pos_left (Nat.pow 5 1074) (Nat.pos_of_ne_zero hm)
    exact absurd (hlow.trans hge) (Nat.not_le.2 hlt)
  · exact lt_of_le_of_lt (Nat.mul_le_mul_right _ hunits.le) hhigh

/-- The value of every digit of a magnitude at its place is the magnitude. -/
theorem nearest?_exact (m : Magnitude) (places : Nat) :
    nearest? (m.units * Nat.pow 5 places * 10 ^ 0 * Nat.pow 2 places) (10 ^ places) = some m := by
  have hvalue : m.units * Nat.pow 5 places * 10 ^ 0 * Nat.pow 2 places = m.units * 10 ^ places := by
    rw [pow_zero, Nat.mul_one, Nat.mul_assoc]
    exact congrArg (m.units * ·) (Nat.mul_pow 5 2 places).symm
  rw [hvalue]
  exact m.nearest?_units (Nat.pow_pos (by decide))

/-- **Every digit of a magnitude** reads back as it. -/
theorem names_exact (m : Magnitude) : names m.exact m = true := by
  refine decide_eq_true ?_
  rw [ofDecimal?_eq]
  by_cases hm : m.units = 0
  · have hzero : m = zero := (eq_zero_iff (n := 0) (by rw [hm, Nat.zero_mul])).2 rfl
    have hdigits : m.exact.digits = 0 := by simp only [exact, hm, Nat.zero_mul]
    rw [if_pos (Or.inl hdigits), hzero]
  · obtain ⟨hlow, hhigh⟩ := digitCount_exact hm
    have hne : m.exact.digits ≠ 0 := by
      intro hzero
      rw [hzero] at hlow
      exact absurd hlow (by decide)
    have hexponent : m.exact.exponent = -((1074 : Nat) : Int) := rfl
    rw [hexponent, if_neg (by omega), if_neg (by omega), Int.neg_neg, Int.toNat_natCast,
      Int.toNat_neg_natCast]
    unfold exact unitsOfOne
    -- the powers are not to be computed
    generalize 1074 = places
    exact m.nearest?_exact places

/-- **The fewest digits of a magnitude** read back as it. -/
theorem names_shortest (tie : Tie) (m : Magnitude) : names (m.shortest tie) m = true := by
  rcases m.shortest_cases tie with ⟨more, hgrid⟩ | hexact
  · exact names_of_onGrid? hgrid
  · rw [hexact]
    exact names_exact m

end Magnitude

/-! ## Texts of doubles -/

namespace Layout

/-- **The text of a magnitude** is digits with a point among them or behind them, of a decimal that
reads back as the magnitude. -/
theorem exists_magnitude (m : Magnitude) : ∃ whole fraction,
    (plain.magnitude m).toList = pointed whole fraction ∧ whole ≠ [] ∧
      (∀ c ∈ whole ++ fraction, c.isDigit = true) ∧
      Magnitude.ofDecimal? (Nat.ofDigitChars 10 (whole ++ fraction) 0)
        (-(fraction.length : Int)) = some m := by
  by_cases hm : m.significand = 0
  · have hunits : m.units = 0 * Magnitude.unitsOfOne := by
      rw [Magnitude.significand_eq_zero_iff.1 hm, Nat.zero_mul]
    have htext : plain.magnitude m = "0" := by
      rw [magnitude, if_pos hm]
      rfl
    refine ⟨['0'], [], by rw [htext]; rfl, by simp, by simp, ?_⟩
    rw [(Magnitude.eq_zero_iff hunits).2 rfl]
    rfl
  · have hd := Magnitude.shortest_digits_ne_zero .up hm
    have hread : Magnitude.ofDecimal? (m.shortest .up).digits (m.shortest .up).exponent = some m :=
      of_decide_eq_true (m.names_shortest .up)
    generalize hshortest : m.shortest .up = d at hd hread
    have htext : plain.magnitude m = plain.writtenOut (figures d).1 (figures d).2 := by
      simp only [magnitude, hm, if_false, hshortest, plain, if_true]
    obtain ⟨hne, hdigits⟩ := figures_digits hd
    obtain ⟨whole, fraction, zeros, hwritten, hwhole, hall, hvalue, hplace⟩ :=
      exists_writtenOut hne hdigits (figures d).2
    obtain ⟨k, hk, hpoint⟩ := exists_figures d
    have hsignificant : d.digits = Nat.ofDigitChars 10 (figures d).1 0 * 10 ^ k := by
      rw [← Nat.ofDigitChars_ten_toDigits (n := d.digits), hk, Nat.ofDigitChars_append,
        Nat.ofDigitChars_replicate_zero, Nat.mul_comm]
    -- the significant digits stand at one place in the text and in the decimal
    have hsame : -(fraction.length : Int) + zeros = d.exponent + k := by omega
    refine ⟨whole, fraction, by rw [htext, hwritten], hwhole, hall, ?_⟩
    rw [hvalue, Magnitude.ofDecimal?_mul_pow, hsame, ← Magnitude.ofDecimal?_mul_pow, ← hsignificant,
      hread]

theorem not_isBlank_pointed {whole fraction : List Char}
    (h : ∀ c ∈ whole ++ fraction, c.isDigit = true) :
    ∀ c ∈ pointed whole fraction, Text.isBlank c = false := by
  obtain ⟨hwhole, hfraction⟩ := List.forall_mem_append.1 h
  have hbefore : ∀ c ∈ whole, Text.isBlank c = false := fun c hc =>
    not_isBlank_of_isDigit (hwhole c hc)
  by_cases hnil : fraction = []
  · subst hnil
    exact hbefore
  · rw [pointed_of_ne_nil hnil]
    refine List.forall_mem_append.2 ⟨hbefore, List.forall_mem_cons.2 ⟨by decide, fun c hc => ?_⟩⟩
    exact not_isBlank_of_isDigit (hfraction c hc)

/-- **The text of a finite double** reads back as the double, and has no blanks around it. -/
theorem real?_trim_render (negative : Bool) (m : Magnitude) :
    real? (Text.trim (plain.render (.finite negative m)).toList) = some (.finite negative m) := by
  obtain ⟨whole, fraction, htext, hwhole, hall, hread⟩ := exists_magnitude m
  have hmark : IsSign (if negative then "-" else "").toList negative := by
    cases negative with
    | false => exact .none
    | true => exact .minus
  have hrender : (plain.render (.finite negative m)).toList =
      (if negative then "-" else "").toList ++ pointed whole fraction := by
    rw [render, String.toList_append, htext]
  have hblank := List.forall_mem_append.2 ⟨hmark.not_isBlank, not_isBlank_pointed hall⟩
  rw [hrender, Text.trim_of_not_isBlank hblank, real?_pointed hmark hwhole hall, Binary64.ofDecimal,
    hread]
  rfl

end Layout

end SchemaShapes.Number
