import Mathlib.Algebra.Order.Ring.Nat
import Mathlib.Tactic.Ring
import SchemaShapes.Number.Binary64

/-!
# Rounding

What the nearest magnitude of a quotient is. A magnitude is the nearest to itself, and a quotient
that is not below a magnitude is not rounded below it. Rounding sees the value of a quotient and not
how it is written.

* `Magnitude.nearest?_units`: rounding keeps magnitudes.
* `Magnitude.units_injective`: a magnitude is determined by its units.
* `Magnitude.units_le_of_nearest?`: rounding does not fall below a magnitude.
* `Magnitude.exists_units`: the whole numbers of 53 binary digits, and what doubling makes of them,
  are magnitudes.
* `Magnitude.nearest?_congr`: one value rounds to one magnitude.
-/

namespace SchemaShapes.Number.Magnitude

theorem unitsOfOne_pos : 0 < unitsOfOne := by
  unfold unitsOfOne
  -- the power of two is not to be computed
  generalize 1074 = places
  exact Nat.pow_pos (by decide)

theorem roundHalfEven_mul (n : Nat) {den : Nat} (h : 0 < den) : roundHalfEven (n * den) den = n := by
  simp only [roundHalfEven, Nat.mul_div_cancel n h, Nat.mul_mod_left, Nat.mul_zero, h, true_or,
    if_true]

theorem div_le_roundHalfEven (num den : Nat) : num / den ≤ roundHalfEven num den := by
  simp only [roundHalfEven]
  split <;> omega

/-- The scale that rounding takes for the units of a magnitude is that of the magnitude. -/
theorem scale_of_units (m : Magnitude) : m.units.log2 + 1 - 53 = m.scale := by
  have hlt : m.significand < 2 ^ 53 := m.significand_lt
  have hunits : m.units = m.significand * 2 ^ m.scale := rfl
  rcases m.full with hzero | hfull
  · have hlog : m.units.log2 < 53 := by
      rw [hunits, hzero, Nat.pow_zero, Nat.mul_one]
      by_cases hs : m.significand = 0
      · rw [hs]
        decide
      · exact (Nat.log2_lt hs).2 hlt
    omega
  · -- a full significand puts the leading digit 52 places above the scale
    have hfull : 2 ^ 52 ≤ m.significand := hfull
    have hpos : 0 < 2 ^ m.scale := Nat.two_pow_pos _
    have hne : m.units ≠ 0 := by
      rw [hunits]
      exact (Nat.mul_pos (by omega) hpos).ne'
    have hlow : 2 ^ (52 + m.scale) ≤ m.units := by
      rw [hunits, Nat.pow_add]
      exact Nat.mul_le_mul_right _ hfull
    have hhigh : m.units < 2 ^ (53 + m.scale) := by
      rw [hunits, Nat.pow_add]
      exact Nat.mul_lt_mul_of_pos_right hlt hpos
    have h1 := (Nat.le_log2 hne).2 hlow
    have h2 := (Nat.log2_lt hne).2 hhigh
    omega

/-- **Rounding keeps magnitudes.** -/
theorem nearest?_units (m : Magnitude) {den : Nat} (h : 0 < den) :
    nearest? (m.units * den) den = some m := by
  have hround : roundHalfEven (m.units * den) (den * Nat.pow 2 m.scale) = m.significand := by
    have hmul : m.units * den = m.significand * (den * Nat.pow 2 m.scale) := by
      rw [units, Nat.mul_assoc, Nat.mul_comm (Nat.pow 2 m.scale)]
    have hpos : 0 < den * Nat.pow 2 m.scale := Nat.mul_pos h (Nat.two_pow_pos _)
    rw [hmul, roundHalfEven_mul _ hpos]
  unfold nearest?
  simp only [Nat.mul_div_cancel _ h, scale_of_units, hround]
  rw [dif_pos ⟨m.significand_lt, m.scale_le, m.full⟩]

/-- **A magnitude is determined by its units.** -/
theorem units_injective : Function.Injective units := by
  intro m m' h
  have hm := m.nearest?_units Nat.one_pos
  rw [h, m'.nearest?_units Nat.one_pos, Option.some.injEq] at hm
  exact hm.symm

/-- **Rounding does not fall below a magnitude** that the quotient is not below. -/
theorem units_le_of_nearest? {num den : Nat} {m r : Magnitude} (h : 0 < den)
    (hr : nearest? num den = some r) (hm : m.units * den ≤ num) : m.units ≤ r.units := by
  set q := num / den with hq
  have hmq : m.units ≤ q := (Nat.le_div_iff_mul_le h).2 hm
  set s := q.log2 + 1 - 53 with hs
  have hdiv : num / (den * Nat.pow 2 s) = q / 2 ^ s := (Nat.div_div_eq_div_mul num den _).symm
  have hround := div_le_roundHalfEven num (den * Nat.pow 2 s)
  rw [hdiv] at hround
  have hmunits : m.units = m.significand * 2 ^ m.scale := rfl
  unfold nearest? at hr
  simp only [← hq, ← hs] at hr
  split at hr
  · -- the significand is at least the quotient at the scale, rounded down
    obtain rfl := Option.some.inj hr
    refine le_trans ?_ (Nat.mul_le_mul_right (2 ^ s) hround)
    by_cases hscale : s ≤ m.scale
    · obtain ⟨k, hk⟩ := Nat.exists_eq_add_of_le hscale
      have hmul : m.units = m.significand * 2 ^ k * 2 ^ s := by
        rw [hmunits, hk, Nat.pow_add, Nat.mul_comm (2 ^ s), Nat.mul_assoc]
      rw [hmul] at hmq ⊢
      exact Nat.mul_le_mul_right _ ((Nat.le_div_iff_mul_le (Nat.two_pow_pos s)).2 hmq)
    · have hlt : m.significand < 2 ^ 53 := m.significand_lt
      have hqpos : q ≠ 0 := by
        rintro hzero
        rw [hzero, Nat.log2_zero] at hs
        omega
      have hqlow : 2 ^ (52 + s) ≤ q := (Nat.le_log2 hqpos).1 (by omega)
      have hfloor : 2 ^ 52 ≤ q / 2 ^ s := by
        rw [Nat.le_div_iff_mul_le (Nat.two_pow_pos s), ← Nat.pow_add]
        exact hqlow
      calc m.units = m.significand * 2 ^ m.scale := hmunits
        _ ≤ 2 ^ 53 * 2 ^ m.scale := Nat.mul_le_mul_right _ hlt.le
        _ ≤ 2 ^ 52 * 2 ^ s := by
            rw [← Nat.pow_add, ← Nat.pow_add]
            exact Nat.pow_le_pow_right (by decide) (by omega)
        _ ≤ q / 2 ^ s * 2 ^ s := Nat.mul_le_mul_right _ hfloor
  · split at hr
    · -- the significand has become one digit longer
      obtain rfl := Option.some.inj hr
      have hqlt : q < 2 ^ (53 + s) :=
        lt_of_lt_of_le Nat.lt_log2_self (Nat.pow_le_pow_right (by decide) (by omega))
      have hrunits : 2 ^ (53 + s) = Nat.pow 2 52 * Nat.pow 2 (s + 1) := by
        rw [show 53 + s = 52 + (s + 1) by omega, Nat.pow_add]
        rfl
      show m.units ≤ Nat.pow 2 52 * Nat.pow 2 (s + 1)
      rw [← hrunits]
      omega
    · cases hr

/-- The whole numbers of 53 binary digits, doubled any number of times that leaves them in range,
are magnitudes. -/
theorem exists_units {n : Nat} (hn : n < 2 ^ 53) {k : Nat} (hk : k ≤ 900) :
    ∃ m : Magnitude, m.units = n * 2 ^ k * unitsOfOne := by
  by_cases hzero : n = 0
  · exact ⟨zero, by rw [hzero, Nat.zero_mul, Nat.zero_mul]; rfl⟩
  have hlog : n.log2 < 53 := (Nat.log2_lt hzero).2 hn
  obtain ⟨j, hj⟩ := Nat.exists_eq_add_of_le (Nat.le_of_lt_succ hlog)
  have hlow : 2 ^ 52 ≤ n * 2 ^ j := by
    rw [hj, Nat.pow_add]
    exact Nat.mul_le_mul_right _ (Nat.log2_self_le hzero)
  have hhigh : n * 2 ^ j < 2 ^ 53 := by
    rw [show 53 = n.log2 + 1 + j by omega, Nat.pow_add]
    exact Nat.mul_lt_mul_of_pos_right Nat.lt_log2_self (Nat.two_pow_pos j)
  refine ⟨⟨n * 2 ^ j, 1022 + n.log2 + k, hhigh, by omega, Or.inr hlow⟩, ?_⟩
  have hunit : unitsOfOne = 2 ^ (1022 + n.log2 + j) := by
    unfold unitsOfOne
    -- the power of two is not to be computed
    generalize hplaces : 1074 = places
    rw [show places = 1022 + n.log2 + j by omega]
    rfl
  show n * 2 ^ j * 2 ^ (1022 + n.log2 + k) = n * 2 ^ k * unitsOfOne
  rw [hunit]
  generalize 1022 + n.log2 = place
  ring

theorem roundHalfEven_mul_right (num den : Nat) {c : Nat} (hc : 0 < c) :
    roundHalfEven (num * c) (den * c) = roundHalfEven num den := by
  have hlt : 2 * (num % den * c) < den * c ↔ 2 * (num % den) < den := by
    rw [← Nat.mul_assoc, Nat.mul_lt_mul_right hc]
  have heq : 2 * (num % den * c) = den * c ↔ 2 * (num % den) = den := by
    rw [← Nat.mul_assoc, Nat.mul_left_inj hc.ne']
  simp only [roundHalfEven, Nat.mul_div_mul_right _ _ hc, Nat.mul_mod_mul_right, hlt, heq]

theorem nearest?_mul_right (num den : Nat) {c : Nat} (hc : 0 < c) :
    nearest? (num * c) (den * c) = nearest? num den := by
  have hround : ∀ scale, roundHalfEven (num * c) (den * c * Nat.pow 2 scale) =
      roundHalfEven num (den * Nat.pow 2 scale) := fun scale => by
    rw [Nat.mul_right_comm, roundHalfEven_mul_right _ _ hc]
  simp only [nearest?, Nat.mul_div_mul_right _ _ hc, hround]

/-- **One value rounds to one magnitude**, whatever quotient it is. -/
theorem nearest?_congr {num den num' den' : Nat} (hden : 0 < den) (hden' : 0 < den')
    (h : num * den' = num' * den) : nearest? num den = nearest? num' den' :=
  calc nearest? num den = nearest? (num * den') (den * den') :=
        (nearest?_mul_right num den hden').symm
    _ = nearest? (num' * den) (den' * den) := by rw [h, Nat.mul_comm den]
    _ = nearest? num' den' := nearest?_mul_right num' den' hden

end SchemaShapes.Number.Magnitude
