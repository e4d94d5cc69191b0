import SchemaShapes.Number.Binary64

/-!
# The fewest digits

The decimal that names a magnitude: of all decimals that read back as it, one with the fewest
digits, and of those the nearest.

* `Magnitude.onGrid?`: the decimal with a given last place, if one reads back.
* `Magnitude.shortest`: the first of the grids with one to seventeen digits that has a hit.
-/

namespace SchemaShapes.Number

/-- Which of two equally near decimals is taken. -/
inductive Tie where
  | up
  | toEven

/-- `digits · 10 ^ exponent`. -/
structure Decimal where
  digits : Nat
  exponent : Int

namespace Magnitude

/-- The magnitude in units of `10 ^ exponent`, as a quotient. -/
def ratio (m : Magnitude) (exponent : Int) : Nat × Nat :=
  if 0 ≤ exponent then (m.units, unitsOfOne * Nat.pow 10 exponent.toNat)
  else (m.units * Nat.pow 10 (-exponent).toNat, unitsOfOne)

/-- The exponent of the leading digit: `10 ^ leading ≤ m < 10 ^ (leading + 1)` for `m` above
zero. -/
def leading (m : Magnitude) : Int :=
  if unitsOfOne ≤ m.units then digitCount (m.units / unitsOfOne) - 1
  else
    let places := digitCount (unitsOfOne / m.units) - 1
    if unitsOfOne ≤ m.units * Nat.pow 10 places then -places else -(places + 1)

/-- A decimal names a magnitude that it reads back as. -/
def names (d : Decimal) (m : Magnitude) : Bool :=
  decide (ofDecimal? d.digits d.exponent = some m)

/-- **One grid.** Of the two neighbours of a magnitude among the multiples of `10 ^ exponent`,
the one that reads back as it, the nearer if both do. -/
def onGrid? (tie : Tie) (m : Magnitude) (exponent : Int) : Option Decimal :=
  let (num, den) := m.ratio exponent
  let low : Decimal := ⟨num / den, exponent⟩
  let high : Decimal := ⟨num / den + 1, exponent⟩
  let rest := 2 * (num % den)
  let lowIsNearer :=
    match tie with
    | .up => decide (rest < den)
    | .toEven => decide (rest < den ∨ (rest = den ∧ low.digits % 2 = 0))
  match names low m, names high m with
  | true, true => some (if lowIsNearer then low else high)
  | true, false => some low
  | false, true => some high
  | false, false => none

/-- Every digit of a magnitude. -/
def exact (m : Magnitude) : Decimal :=
  ⟨m.units * Nat.pow 5 1074, -1074⟩

/-- **The fewest digits** that read back as a magnitude; seventeen are always enough. -/
def shortest (tie : Tie) (m : Magnitude) : Decimal :=
  ((List.range 17).findSome? fun (more : Nat) => m.onGrid? tie (m.leading - more)).getD m.exact

end Magnitude

end SchemaShapes.Number
