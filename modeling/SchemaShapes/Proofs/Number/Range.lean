import Mathlib.Data.Nat.Digits.Lemmas
import SchemaShapes.Number.Binary64

/-!
# Whole numbers that have a double

A whole number of 64 bits has a nearest double that is finite.

* `Magnitude.nearest?_isSome`: quotients far below the greatest magnitude have a nearest one.
* `Binary64.isFinite_ofInt`: whole numbers of 64 bits become finite doubles.
-/

namespace SchemaShapes.Number

namespace Magnitude

/-- A quotient far below the greatest magnitude has a nearest one. -/
theorem nearest?_isSome {num den : Nat} (h : (num / den).log2 ≤ 2000) :
    (nearest? num den).isSome = true := by
  have hscale : (num / den).log2 + 1 - 53 + 1 ≤ 2045 := by omega
  unfold nearest?
  simp only
  split
  · rfl
  · rfl

/-- In units, a whole number of 64 bits has as many binary places more as a unit has. -/
theorem log2_units_lt {n : Nat} (hpos : 0 < n) (h : n < 2 ^ 64) :
    (n * unitsOfOne).log2 < 64 + 1074 := by
  unfold unitsOfOne
  -- the power of two is not to be computed
  generalize 1074 = k
  have hpow : 0 < Nat.pow 2 k := Nat.pow_pos (by decide)
  rw [Nat.log2_lt (Nat.mul_pos hpos hpow).ne', Nat.pow_add]
  exact Nat.mul_lt_mul_of_pos_right h hpow

/-- A whole number of 64 bits has a nearest magnitude. -/
theorem ofDecimal?_isSome {n : Nat} (h : n < 2 ^ 64) : (ofDecimal? n 0).isSome = true := by
  have hcount : digitCount n ≤ 20 :=
    Nat.toDigits_length 10 n 20 (by decide) (lt_of_lt_of_le h (by decide))
  unfold ofDecimal?
  simp only
  split
  · rfl
  · rename_i hn
    rw [if_neg (by omega), if_pos (le_refl 0)]
    have hlog := log2_units_lt (by omega) h
    refine nearest?_isSome ?_
    rw [Nat.div_one, Int.toNat_zero, show Nat.pow 10 0 = 1 from rfl, Nat.mul_one]
    omega

end Magnitude

/-- **Whole numbers of 64 bits** become finite doubles. -/
theorem Binary64.isFinite_ofInt {n : Int} (h : n.natAbs < 2 ^ 64) :
    (Binary64.ofInt n).isFinite = true := by
  obtain ⟨m, hm⟩ := Option.isSome_iff_exists.1 (Magnitude.ofDecimal?_isSome h)
  rw [ofInt, ofDecimal, hm]
  rfl

end SchemaShapes.Number
