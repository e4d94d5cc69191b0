/-!
# Double-precision numbers, exactly

The values of IEEE 754 binary64 as whole numbers of units of `2 ^ -1074`, and rounding to the
nearest of them in exact arithmetic.

* `Magnitude.nearest?`: the magnitude nearest to a quotient of units, ties to even.
* `Binary64.ofDecimal`: the number nearest to `digits · 10 ^ exponent`.
-/

namespace SchemaShapes.Number

/-- **A finite magnitude**, `significand · 2 ^ scale` units of `2 ^ -1074`. Each magnitude has one
such form: the significand fills 53 bits unless the scale is least. -/
structure Magnitude where
  significand : Nat
  scale : Nat
  significand_lt : significand < Nat.pow 2 53
  scale_le : scale ≤ 2045
  full : scale = 0 ∨ Nat.pow 2 52 ≤ significand
deriving DecidableEq

namespace Magnitude

/-- The magnitude zero. -/
def zero : Magnitude := ⟨0, 0, by decide, by decide, by decide⟩

/-- The magnitude as a whole number of units of `2 ^ -1074`. -/
def units (m : Magnitude) : Nat := m.significand * Nat.pow 2 m.scale

/-- The number one in units. -/
def unitsOfOne : Nat := Nat.pow 2 1074

/-- The whole number that a magnitude is, if it is one. -/
def whole? (m : Magnitude) : Option Nat :=
  if m.units % unitsOfOne = 0 then some (m.units / unitsOfOne) else none

/-- The whole number nearest to `num / den`; a half goes to the even neighbour. -/
def roundHalfEven (num den : Nat) : Nat :=
  let low := num / den
  let rest := num % den
  if 2 * rest < den ∨ (2 * rest = den ∧ low % 2 = 0) then low else low + 1

/-- **Rounding.** The magnitude nearest to `num / den` units, a tie to the even significand, and
`none` when that lies past the greatest magnitude. -/
def nearest? (num den : Nat) : Option Magnitude :=
  let scale := (num / den).log2 + 1 - 53
  let significand := roundHalfEven num (den * Nat.pow 2 scale)
  if h : significand < Nat.pow 2 53 ∧ scale ≤ 2045 ∧ (scale = 0 ∨ Nat.pow 2 52 ≤ significand) then
    some ⟨significand, scale, h.1, h.2.1, h.2.2⟩
  else if h : scale + 1 ≤ 2045 then
    some ⟨Nat.pow 2 52, scale + 1, by decide, h, Or.inr (Nat.le_refl _)⟩
  else none

/-- How many digits a number has in base ten. -/
def digitCount (n : Nat) : Nat := (Nat.toDigits 10 n).length

/-- **Reading a decimal.** The magnitude nearest to `digits · 10 ^ exponent`, `none` past the
greatest one. Far outside the range no power of ten is computed. -/
def ofDecimal? (digits : Nat) (exponent : Int) : Option Magnitude :=
  let point := digitCount digits + exponent
  if digits = 0 ∨ point < -400 then some zero
  else if 400 < point then none
  else if 0 ≤ exponent then nearest? (digits * Nat.pow 10 exponent.toNat * unitsOfOne) 1
  else nearest? (digits * unitsOfOne) (Nat.pow 10 (-exponent).toNat)

end Magnitude

/-- **A double-precision number.** The not-a-numbers are one value; zero has a sign. -/
inductive Binary64 where
  | nan
  | infinite (negative : Bool)
  | finite (negative : Bool) (magnitude : Magnitude)
deriving DecidableEq

namespace Binary64

/-- A finite number, or infinity where no magnitude is left. -/
def ofMagnitude? (negative : Bool) : Option Magnitude → Binary64
  | some m => finite negative m
  | none => infinite negative

/-- The number nearest to `digits · 10 ^ exponent`, infinite past the greatest one. -/
def ofDecimal (negative : Bool) (digits : Nat) (exponent : Int) : Binary64 :=
  ofMagnitude? negative (Magnitude.ofDecimal? digits exponent)

/-- The number nearest to a whole number. -/
def ofInt (n : Int) : Binary64 :=
  ofDecimal (decide (n < 0)) n.natAbs 0

/-- Neither infinite nor a not-a-number. -/
def isFinite : Binary64 → Bool
  | finite _ _ => true
  | _ => false

end Binary64

end SchemaShapes.Number
