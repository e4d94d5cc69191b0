import Std.Data.String.ToNat
import SchemaShapes.Proofs.Number.Rounding
import SchemaShapes.Proofs.Number.Texts

/-!
# Decimals of whole numbers

The text of a double that is written out is that of a whole number exactly if the decimal that names
it is the number, whatever its zeros and its exponent are. Whole numbers up to `2 ^ 53` are doubles,
and the decimal that names such a double is the number itself: no other decimal of fewer digits reads
back as it.

* `Decimal.IsWhole`: a decimal that is a whole number.
* `Magnitude.ofDecimal?_mul_pow`: zeros behind the digits of a decimal.
* `Layout.writtenOut_eq_iff`: when the text of a decimal is that of a whole number.
* `Magnitude.nearest?_ne`: which whole numbers do not round to another one.
* `Magnitude.isWhole_shortest`: the fewest digits of whole numbers up to `2 ^ 53`.
-/

namespace SchemaShapes.Number

/-- **A decimal that is a whole number.** -/
def Decimal.IsWhole (d : Decimal) (n : Nat) : Prop :=
  d.digits * 10 ^ d.exponent.toNat = n * 10 ^ (-d.exponent).toNat

/-! ## Digits with zeros behind them -/

/-- **Ten times a number has one zero more.** -/
theorem toDigits_mul_pow {n : Nat} (hn : 0 < n) (k : Nat) :
    Nat.toDigits 10 (n * 10 ^ k) = Nat.toDigits 10 n ++ List.replicate k '0' := by
  induction k with
  | zero => simp
  | succ k ih =>
    have hpos : 0 < n * 10 ^ k := Nat.mul_pos hn (Nat.pow_pos (by decide))
    have hten : n * 10 ^ (k + 1) = 10 * (n * 10 ^ k) + 0 := by rw [Nat.pow_succ]; ring
    rw [hten, ← Nat.toDigits_append_toDigits (by decide) hpos (by decide), ih, Nat.toDigits_zero,
      List.append_assoc, ← List.replicate_succ']

theorem digitCount_mul_pow {n : Nat} (hn : 0 < n) (k : Nat) :
    Magnitude.digitCount (n * 10 ^ k) = Magnitude.digitCount n + k := by
  rw [Magnitude.digitCount, toDigits_mul_pow hn, List.length_append, List.length_replicate,
    Magnitude.digitCount]

/-- Digits are what is left without the zeros at the end, and these zeros. -/
theorem exists_zeros (cs : List Char) :
    ∃ k, cs = cs.rdropWhile (· == '0') ++ List.replicate k '0' := by
  have hzeros : cs.rtakeWhile (· == '0') =
      List.replicate (cs.rtakeWhile (· == '0')).length '0' :=
    List.eq_replicate_iff.2 ⟨rfl, fun c hc => by simpa using List.mem_rtakeWhile_imp hc⟩
  exact ⟨_, by rw [← hzeros, List.rdropWhile_append_rtakeWhile]⟩

theorem rdropWhile_zeros (cs : List Char) (k : Nat) :
    (cs ++ List.replicate k '0').rdropWhile (· == '0') = cs.rdropWhile (· == '0') := by
  induction k with
  | zero => simp
  | succ k ih =>
    rw [List.replicate_succ', ← List.append_assoc, List.rdropWhile_concat_pos _ _ _ rfl, ih]

namespace Magnitude

/-- **What a decimal is read as**: the magnitude nearest to its value, unless that lies far outside
the range. -/
theorem ofDecimal?_eq (digits : Nat) (exponent : Int) : ofDecimal? digits exponent =
    if digits = 0 ∨ digitCount digits + exponent < -400 then some zero
    else if 400 < digitCount digits + exponent then none
    else nearest? (digits * 10 ^ exponent.toNat * unitsOfOne) (10 ^ (-exponent).toNat) := by
  unfold ofDecimal?
  by_cases hexp : 0 ≤ exponent
  · have hneg : (-exponent).toNat = 0 := by omega
    simp only [hexp, if_true, hneg, pow_zero, Nat.pow_eq]
  · have hpos : exponent.toNat = 0 := by omega
    simp only [hexp, if_false, hpos, pow_zero, Nat.mul_one, Nat.pow_eq]

/-- **Zeros behind the digits** of a decimal are as good as places before the point. -/
theorem ofDecimal?_mul_pow (digits zeros : Nat) (exponent : Int) :
    ofDecimal? (digits * 10 ^ zeros) exponent = ofDecimal? digits (exponent + zeros) := by
  by_cases hzero : digits = 0
  · subst hzero
    rw [Nat.zero_mul, ofDecimal?_eq, ofDecimal?_eq, if_pos (Or.inl rfl), if_pos (Or.inl rfl)]
  have hten : ∀ k, 0 < 10 ^ k := fun k => Nat.pow_pos (by decide)
  have hne : digits * 10 ^ zeros ≠ 0 := (Nat.mul_pos (Nat.pos_of_ne_zero hzero) (hten _)).ne'
  have hpoint : ((digitCount digits + zeros : Nat) : Int) + exponent =
      digitCount digits + (exponent + zeros) := by omega
  have hplaces : zeros + exponent.toNat + (-(exponent + zeros)).toNat =
      (exponent + zeros).toNat + (-exponent).toNat := by omega
  have hvalue : nearest? (digits * 10 ^ zeros * 10 ^ exponent.toNat * unitsOfOne)
        (10 ^ (-exponent).toNat) =
      nearest? (digits * 10 ^ (exponent + zeros).toNat * unitsOfOne)
        (10 ^ (-(exponent + zeros)).toNat) := by
    refine nearest?_congr (hten _) (hten _) ?_
    calc digits * 10 ^ zeros * 10 ^ exponent.toNat * unitsOfOne * 10 ^ (-(exponent + zeros)).toNat
        = digits * unitsOfOne *
          10 ^ (zeros + exponent.toNat + (-(exponent + zeros)).toNat) := by ring
      _ = digits * unitsOfOne * 10 ^ ((exponent + zeros).toNat + (-exponent).toNat) := by
        rw [hplaces]
      _ = digits * 10 ^ (exponent + zeros).toNat * unitsOfOne * 10 ^ (-exponent).toNat := by ring
  rw [ofDecimal?_eq, ofDecimal?_eq, digitCount_mul_pow (Nat.pos_of_ne_zero hzero), hpoint, hvalue]
  simp only [hne, hzero, false_or]

end Magnitude

/-! ## Texts of decimals -/

namespace Layout

variable {d : Decimal} {n : Nat}

/-- A decimal is its significant digits with zeros behind them or a point among them. -/
theorem exists_figures (d : Decimal) : ∃ k,
    Nat.toDigits 10 d.digits = (figures d).1 ++ List.replicate k '0' ∧
      (figures d).2 = ((figures d).1.length + k : Nat) + d.exponent := by
  obtain ⟨k, hk⟩ := exists_zeros (Nat.toDigits 10 d.digits)
  refine ⟨k, hk, ?_⟩
  have hlength := congrArg List.length hk
  rw [List.length_append, List.length_replicate] at hlength
  show ((Nat.toDigits 10 d.digits).length : Int) + d.exponent = _
  rw [hlength]
  rfl

/-- A text with a point is not that of a whole number. -/
theorem ne_toDigits_of_point {cs : List Char} (h : '.' ∈ cs) : cs ≠ Nat.toDigits 10 n := by
  rintro rfl
  exact absurd (Nat.isDigit_of_mem_toDigits (by decide) (by decide) h) (by decide)

/-- **The text of a whole number.** Written out, digits with a point are a whole number exactly if
they end before it and zeros fill up the places between. -/
theorem writtenOut_eq_iff_zeros {digits : List Char} (hne : digits ≠ []) {point : Int} :
    plain.writtenOut digits point = toString n ↔
      digits.length ≤ point ∧
        Nat.toDigits 10 n = digits ++ List.replicate (point.toNat - digits.length) '0' := by
  have hlength : 0 < digits.length := List.length_pos_iff.2 hne
  rw [← String.toList_inj, Nat.toString_eq_repr, Nat.toList_repr]
  unfold writtenOut
  by_cases hpoint : point ≤ 0
  · rw [if_pos hpoint]
    refine iff_of_false (ne_toDigits_of_point ?_) (by omega)
    rw [String.toList_append]
    exact List.mem_append_left _ (by decide)
  · rw [if_neg hpoint]
    by_cases hshort : digits.length ≤ point.toNat
    · have hint : (digits.length : Int) ≤ point := by omega
      simp only [hshort, if_true, hint, true_and, String.toList_append, String.toList_ofList]
      rw [show plain.wholeMark.toList = [] from rfl, List.append_nil]
      exact eq_comm
    · simp only [hshort, if_false]
      refine iff_of_false (ne_toDigits_of_point ?_) (by omega)
      rw [String.toList_append, String.toList_append]
      exact List.mem_append_left _ (List.mem_append_right _ (by decide))

/-- **When the text of a decimal is that of a whole number**: when the decimal is the number. -/
theorem writtenOut_eq_iff (hd : d.digits ≠ 0) :
    plain.writtenOut (figures d).1 (figures d).2 = toString n ↔ d.IsWhole n := by
  obtain ⟨k, hk, hpoint⟩ := exists_figures d
  have hpos : 0 < d.digits := Nat.pos_of_ne_zero hd
  have hvalue : ∀ cs j, Nat.ofDigitChars 10 (cs ++ List.replicate j '0') 0 =
      10 ^ j * Nat.ofDigitChars 10 cs 0 := fun cs j => by
    rw [Nat.ofDigitChars_append, Nat.ofDigitChars_replicate_zero]
  rw [writtenOut_eq_iff_zeros (figures_digits hd).1, hpoint]
  constructor
  · rintro ⟨hle, hn⟩
    -- both numbers are the significant digits with zeros behind them
    have hdvalue := hvalue (figures d).1 k
    have hnvalue := hvalue (figures d).1
      (((((figures d).1.length + k : Nat) : Int) + d.exponent).toNat - (figures d).1.length)
    rw [← hk, Nat.ofDigitChars_ten_toDigits] at hdvalue
    rw [← hn, Nat.ofDigitChars_ten_toDigits] at hnvalue
    rw [Decimal.IsWhole, hdvalue, hnvalue, Nat.mul_right_comm, ← Nat.pow_add, Nat.mul_right_comm,
      ← Nat.pow_add]
    congr 2
    omega
  · intro hwhole
    have hnpos : 0 < n := by
      refine Nat.pos_of_ne_zero fun hzero => ?_
      rw [Decimal.IsWhole, hzero, Nat.zero_mul] at hwhole
      exact (Nat.mul_pos hpos (Nat.pow_pos (by decide))).ne' hwhole
    have hzeros := toDigits_mul_pow hpos d.exponent.toNat
    rw [hwhole, toDigits_mul_pow hnpos, hk] at hzeros
    -- without the zeros at their ends, both have the same digits
    have hsame := congrArg (List.rdropWhile (· == '0')) hzeros
    rw [List.append_assoc, List.replicate_append_replicate, rdropWhile_zeros, rdropWhile_zeros]
      at hsame
    have hfigures : (figures d).1.rdropWhile (· == '0') = (figures d).1 :=
      List.rdropWhile_idempotent _ _
    obtain ⟨j, hj⟩ := exists_zeros (Nat.toDigits 10 n)
    rw [hsame, hfigures] at hj
    have hlength := congrArg List.length hzeros
    rw [hj] at hlength
    simp only [List.length_append, List.length_replicate] at hlength
    refine ⟨by omega, ?_⟩
    rw [hj]
    congr 2
    omega

end Layout

/-! ## The decimals of whole numbers -/

namespace Magnitude

variable {m : Magnitude} {n : Nat}

/-- **Which magnitudes are whole numbers.** -/
theorem whole?_eq_some_iff : m.whole? = some n ↔ m.units = n * unitsOfOne := by
  unfold whole?
  constructor
  · intro h
    split at h
    · rename_i hrest
      rw [← Option.some.inj h, Nat.div_mul_cancel (Nat.dvd_of_mod_eq_zero hrest)]
    · cases h
  · intro h
    rw [h, Nat.mul_mod_left, if_pos rfl, Nat.mul_div_cancel _ unitsOfOne_pos]

theorem eq_zero_iff (h : m.units = n * unitsOfOne) : m = zero ↔ n = 0 := by
  have hzero : zero.units = 0 := rfl
  rw [← units_injective.eq_iff, hzero, h, Nat.mul_eq_zero, or_iff_left unitsOfOne_pos.ne']

/-- A decimal without a fraction is read as what its value rounds to. -/
theorem ofDecimal?_natCast {digits exponent : Nat} (h : digitCount digits + exponent ≤ 400) :
    ofDecimal? digits (exponent : Int) = nearest? (digits * 10 ^ exponent * unitsOfOne) 1 := by
  rw [ofDecimal?_eq, Int.toNat_natCast, Int.toNat_neg_natCast, pow_zero]
  by_cases hzero : digits = 0
  · have hread := zero.nearest?_units Nat.one_pos
    rw [if_pos (Or.inl hzero), hzero, Nat.zero_mul, Nat.zero_mul, ← hread]
    rfl
  · rw [if_neg (by omega), if_neg (by omega)]

/-- **Whole numbers up to `2 ^ 53` are doubles.** -/
theorem exists_units_natCast (hn : n ≤ 2 ^ 53) : ∃ m : Magnitude, m.units = n * unitsOfOne := by
  rcases Nat.lt_or_eq_of_le hn with hn | rfl
  · obtain ⟨m, hm⟩ := exists_units hn (Nat.zero_le 900)
    exact ⟨m, by rw [hm, Nat.pow_zero, Nat.mul_one]⟩
  · obtain ⟨m, hm⟩ := exists_units (n := 2 ^ 52) (by decide) (k := 1) (by decide)
    exact ⟨m, by rw [hm, ← Nat.pow_add]⟩

/-- **Whole numbers that do not round to another one.** Up to `2 ^ 53` whole numbers are doubles, and
from `2 ^ 53 + 2` on no number rounds to one of them. -/
theorem nearest?_ne (hn : n ≤ 2 ^ 53) (hm : m.units = n * unitsOfOne) {v : Nat} (hne : v ≠ n)
    (hodd : v ≠ 2 ^ 53 + 1) : nearest? (v * unitsOfOne) 1 ≠ some m := by
  intro h
  by_cases hv : v < 2 ^ 53 + 1
  · -- the other number is a double itself
    obtain ⟨r, hr⟩ := exists_units_natCast (Nat.le_of_lt_succ hv)
    have hread := r.nearest?_units Nat.one_pos
    rw [Nat.mul_one, hr, h, Option.some.injEq] at hread
    rw [← hread, hm] at hr
    exact hne (Nat.eq_of_mul_eq_mul_right unitsOfOne_pos hr).symm
  · -- the other number is not rounded below the double behind `2 ^ 53`
    obtain ⟨r, hr⟩ := exists_units (n := 2 ^ 52 + 1) (by decide) (k := 1) (by decide)
    have hle := units_le_of_nearest? (m := r) Nat.one_pos h (by
      rw [hr, Nat.mul_one]
      exact Nat.mul_le_mul_right _ (by omega))
    rw [hr, hm] at hle
    have := Nat.le_of_mul_le_mul_right hle unitsOfOne_pos
    omega

/-- If a decimal of a grid is the magnitude itself, it is the one that is taken. -/
theorem onGrid?_of_rest {tie : Tie} {exponent : Int}
    (hrest : (m.ratio exponent).1 % (m.ratio exponent).2 = 0) (hden : 0 < (m.ratio exponent).2)
    (hlow : names ⟨(m.ratio exponent).1 / (m.ratio exponent).2, exponent⟩ m = true) :
    m.onGrid? tie exponent = some ⟨(m.ratio exponent).1 / (m.ratio exponent).2, exponent⟩ := by
  unfold onGrid?
  simp only [hrest, hlow, Nat.mul_zero, hden, decide_true, true_or]
  cases names ⟨(m.ratio exponent).1 / (m.ratio exponent).2 + 1, exponent⟩ m <;> cases tie <;> rfl

theorem onGrid?_eq_none {tie : Tie} {exponent : Int}
    (hlow : names ⟨(m.ratio exponent).1 / (m.ratio exponent).2, exponent⟩ m = false)
    (hhigh : names ⟨(m.ratio exponent).1 / (m.ratio exponent).2 + 1, exponent⟩ m = false) :
    m.onGrid? tie exponent = none := by
  unfold onGrid?
  simp only [hlow, hhigh]

theorem digitCount_le_iff {n k : Nat} (hk : 0 < k) : digitCount n ≤ k ↔ n < 10 ^ k :=
  Nat.length_toDigits_le_iff (by decide) hk

theorem digitCount_le {v : Nat} (hv : v ≤ 2 ^ 53 + 1) : digitCount v ≤ 16 :=
  (digitCount_le_iff (by decide)).2 (lt_of_le_of_lt hv (by decide))

theorem ratio_natCast (hm : m.units = n * unitsOfOne) (exponent : Nat) :
    m.ratio exponent = (unitsOfOne * n, unitsOfOne * 10 ^ exponent) := by
  rw [ratio, if_pos (Int.natCast_nonneg _), hm, Nat.mul_comm, Int.toNat_natCast]
  rfl

theorem ratio_neg (hm : m.units = n * unitsOfOne) {k : Nat} (hk : 0 < k) :
    m.ratio (-k) = (n * 10 ^ k * unitsOfOne, unitsOfOne) := by
  rw [ratio, if_neg (by omega), hm, Int.neg_neg, Int.toNat_natCast, Nat.mul_right_comm]
  rfl

theorem names_natCast {digits exponent : Nat} (hdigits : digits ≤ 2 ^ 53 + 1)
    (he : exponent ≤ 300) : names ⟨digits, exponent⟩ m =
      decide (nearest? (digits * 10 ^ exponent * unitsOfOne) 1 = some m) := by
  have hcount := digitCount_le hdigits
  have hread : ofDecimal? digits exponent = nearest? (digits * 10 ^ exponent * unitsOfOne) 1 :=
    ofDecimal?_natCast (by omega)
  rw [← hread, names]

/-- A grid of whole numbers that the number lies on. -/
theorem onGrid?_of_dvd (hn : n ≤ 2 ^ 53) (hm : m.units = n * unitsOfOne) {tie : Tie}
    {exponent : Nat} (he : exponent ≤ 300) (hdvd : n % 10 ^ exponent = 0) :
    m.onGrid? tie exponent = some ⟨n / 10 ^ exponent, exponent⟩ := by
  have hratio := ratio_natCast hm exponent
  have hlow : (m.ratio exponent).1 / (m.ratio exponent).2 = n / 10 ^ exponent := by
    rw [hratio, Nat.mul_div_mul_left _ _ unitsOfOne_pos]
  have hrest : (m.ratio exponent).1 % (m.ratio exponent).2 = 0 := by
    rw [hratio, Nat.mul_mod_mul_left, hdvd, Nat.mul_zero]
  have hden : 0 < (m.ratio exponent).2 := by
    rw [hratio]
    exact Nat.mul_pos unitsOfOne_pos (Nat.pow_pos (by decide))
  have hon : n / 10 ^ exponent * 10 ^ exponent = n := by
    have := Nat.div_add_mod' n (10 ^ exponent)
    omega
  have hread := m.nearest?_units Nat.one_pos
  rw [Nat.mul_one, hm] at hread
  have hle : n / 10 ^ exponent ≤ n := Nat.div_le_self _ _
  have hnames : names ⟨n / 10 ^ exponent, exponent⟩ m = true := by
    rw [names_natCast (by omega) he, hon, decide_eq_true hread]
  rw [← hlow] at hnames ⊢
  exact onGrid?_of_rest hrest hden hnames

/-- A grid of whole numbers that the number does not lie on. All numbers of the grid are even, and
none of them rounds to the number. -/
theorem onGrid?_of_not_dvd (hn : n ≤ 2 ^ 53) (hm : m.units = n * unitsOfOne) {tie : Tie}
    {exponent : Nat} (he : exponent ≤ 300) (hdvd : n % 10 ^ exponent ≠ 0) :
    m.onGrid? tie exponent = none := by
  have hlow : (m.ratio exponent).1 / (m.ratio exponent).2 = n / 10 ^ exponent := by
    rw [ratio_natCast hm, Nat.mul_div_mul_left _ _ unitsOfOne_pos]
  have hexp : exponent ≠ 0 := by
    rintro rfl
    exact hdvd (Nat.mod_one n)
  have heven : ∀ v, v * 10 ^ exponent ≠ 2 ^ 53 + 1 := by
    intro v hv
    have htwo : 2 ∣ v * 10 ^ exponent :=
      ((show 2 ∣ 10 by decide).trans (dvd_pow_self 10 hexp)).mul_left v
    rw [hv] at htwo
    exact absurd htwo (by decide)
  have hsplit := Nat.div_add_mod' n (10 ^ exponent)
  have hlt := Nat.mod_lt n (show 0 < 10 ^ exponent from Nat.pow_pos (by decide))
  have hle : n / 10 ^ exponent ≤ n := Nat.div_le_self _ _
  have hbelow := nearest?_ne hn hm (v := n / 10 ^ exponent * 10 ^ exponent) (by omega) (heven _)
  have habove := nearest?_ne hn hm (v := (n / 10 ^ exponent + 1) * 10 ^ exponent)
    (by rw [Nat.add_mul]; omega) (heven _)
  refine onGrid?_eq_none ?_ ?_
  · rw [hlow, names_natCast (by omega) he, decide_eq_false hbelow]
  · rw [hlow, names_natCast (by omega) he, decide_eq_false habove]

/-- **A grid of whole numbers.** The decimal that is taken from it is the number itself. -/
theorem isWhole_of_onGrid?_natCast (hn : n ≤ 2 ^ 53) (hm : m.units = n * unitsOfOne) {tie : Tie}
    {exponent : Nat} (he : exponent ≤ 300) {d : Decimal}
    (h : m.onGrid? tie (exponent : Int) = some d) : d.IsWhole n := by
  by_cases hdvd : n % 10 ^ exponent = 0
  · rw [onGrid?_of_dvd hn hm he hdvd, Option.some.injEq] at h
    have hsplit := Nat.div_add_mod' n (10 ^ exponent)
    subst h
    simp only [Decimal.IsWhole, Int.toNat_natCast, Int.toNat_neg_natCast, Nat.pow_zero, Nat.mul_one]
    omega
  · rw [onGrid?_of_not_dvd hn hm he hdvd] at h
    cases h

/-- A whole number with zeros behind it is read as the number that it is without them. -/
theorem ofDecimal?_zeros (hn : n ≤ 2 ^ 53) (hm : m.units = n * unitsOfOne) (k : Nat) :
    ofDecimal? (n * 10 ^ k) (-k) = some m := by
  have hcount := digitCount_le (Nat.le_succ_of_le hn)
  have hself := m.nearest?_units Nat.one_pos
  have hplace : -(k : Int) + k = ((0 : Nat) : Int) := by omega
  rw [Nat.mul_one, hm] at hself
  rw [ofDecimal?_mul_pow, hplace, ofDecimal?_natCast (by omega), pow_zero, Nat.mul_one, hself]

/-- **A grid of fractions.** The number lies on it. -/
theorem isWhole_of_onGrid?_neg (hn : n ≤ 2 ^ 53) (hm : m.units = n * unitsOfOne) {tie : Tie}
    {exponent : Int} (he : exponent < 0) {d : Decimal} (h : m.onGrid? tie exponent = some d) :
    d.IsWhole n := by
  obtain ⟨k, hk, rfl⟩ : ∃ k : Nat, 0 < k ∧ exponent = -k := ⟨(-exponent).toNat, by omega, by omega⟩
  have hratio := ratio_neg hm hk
  have hlow : (m.ratio (-k)).1 / (m.ratio (-k)).2 = n * 10 ^ k := by
    rw [hratio, Nat.mul_div_cancel _ unitsOfOne_pos]
  have hsnd : (m.ratio (-k)).2 = unitsOfOne := by simp only [hratio]
  have hrest : (m.ratio (-k)).1 % (m.ratio (-k)).2 = 0 := by rw [hratio, Nat.mul_mod_left]
  have hnames : names ⟨(m.ratio (-k)).1 / (m.ratio (-k)).2, -k⟩ m = true := by
    rw [hlow, names, ofDecimal?_zeros hn hm k, decide_eq_true rfl]
  rw [onGrid?_of_rest hrest (hsnd ▸ unitsOfOne_pos) hnames, Option.some.injEq, hlow] at h
  subst h
  simp [Decimal.IsWhole]

/-- Every digit of a whole number is the number. -/
theorem isWhole_exact (hm : m.units = n * unitsOfOne) : m.exact.IsWhole n := by
  have hexponent : (-1074 : Int) = -((1074 : Nat) : Int) := rfl
  unfold unitsOfOne at hm
  unfold Decimal.IsWhole exact
  simp only [hm, hexponent]
  -- the powers are not to be computed
  generalize 1074 = places
  rw [Int.toNat_neg_natCast, Int.neg_neg, Int.toNat_natCast, Nat.pow_zero, Nat.mul_one,
    Nat.mul_assoc]
  exact congrArg (n * ·) (Nat.mul_pow 2 5 places).symm

/-- A whole number up to `2 ^ 53` has few places before the point. -/
theorem leading_le (hn : n ≤ 2 ^ 53) (hm : m.units = n * unitsOfOne) : m.leading ≤ 300 := by
  unfold leading
  split
  · have hcount := digitCount_le (Nat.le_succ_of_le hn)
    rw [hm, Nat.mul_div_cancel _ unitsOfOne_pos]
    omega
  · simp only
    split <;> omega

/-- **The fewest digits of a whole number** up to `2 ^ 53` are the number. -/
theorem isWhole_shortest (hn : n ≤ 2 ^ 53) (hm : m.units = n * unitsOfOne) (tie : Tie) :
    (m.shortest tie).IsWhole n := by
  rcases m.shortest_cases tie with ⟨more, hgrid⟩ | hexact
  · have hleading := leading_le hn hm
    by_cases hsign : 0 ≤ m.leading - more
    · obtain ⟨exponent, hexponent⟩ := Int.eq_ofNat_of_zero_le hsign
      rw [hexponent] at hgrid
      exact isWhole_of_onGrid?_natCast hn hm (by omega) hgrid
    · exact isWhole_of_onGrid?_neg hn hm (by omega) hgrid
  · rw [hexact]
    exact isWhole_exact hm

/-- A whole number up to `2 ^ 53` is read as itself. -/
theorem units_of_ofDecimal? (hn : n ≤ 2 ^ 53) (h : ofDecimal? n 0 = some m) :
    m.units = n * unitsOfOne := by
  have hcount := digitCount_le (Nat.le_succ_of_le hn)
  have hread : ofDecimal? n ((0 : Nat) : Int) = nearest? (n * 10 ^ 0 * unitsOfOne) 1 :=
    ofDecimal?_natCast (by omega)
  obtain ⟨r, hr⟩ := exists_units_natCast hn
  have hself := r.nearest?_units Nat.one_pos
  rw [Nat.pow_zero, Nat.mul_one, ← hr, ← Nat.mul_one r.units, hself, Int.natCast_zero, h,
    Option.some.injEq] at hread
  rw [hread, hr]

theorem significand_eq_zero_iff : m.significand = 0 ↔ m.units = 0 := by
  have hpow : Nat.pow 2 m.scale ≠ 0 := (Nat.pow_pos (by decide)).ne'
  rw [units, Nat.mul_eq_zero, or_iff_left hpow]

end Magnitude

/-! ## Texts of doubles -/

namespace Layout

variable {m : Magnitude} {n : Nat}

/-- **When the text of a double is that of a whole number**: when its fewest digits are. -/
theorem magnitude_eq_iff : plain.magnitude m = toString n ↔ (m.shortest .up).IsWhole n := by
  by_cases hm : m.significand = 0
  · -- zero has no significant digits
    have hunits : m.units = 0 * Magnitude.unitsOfOne := by
      rw [Magnitude.significand_eq_zero_iff.1 hm, Nat.zero_mul]
    have hzero := Magnitude.isWhole_shortest (Nat.zero_le _) hunits .up
    have htext : plain.magnitude m = toString 0 := by
      rw [magnitude, if_pos hm]
      rfl
    have hpow : 10 ^ (-(m.shortest .up).exponent).toNat ≠ 0 := (Nat.pow_pos (by decide)).ne'
    rw [Decimal.IsWhole, Nat.zero_mul] at hzero
    rw [htext, Decimal.IsWhole, hzero, eq_comm (a := 0), Nat.mul_eq_zero, or_iff_left hpow,
      Nat.toString_eq_repr, Nat.toString_eq_repr, Nat.repr_inj, eq_comm]
  · rw [← writtenOut_eq_iff (Magnitude.shortest_digits_ne_zero .up hm)]
    simp only [magnitude, hm, if_false, plain, if_true]

end Layout

end SchemaShapes.Number
