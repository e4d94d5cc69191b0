import SchemaShapes.Number.Numeral
import SchemaShapes.Number.Shortest

/-!
# Decimals rounded step by step

A decimal read without keeping all its digits. They are taken into a whole number of 64 bits as
long as it has room for them, and powers of ten bring that number to its place. Every step is
rounded, so that what comes out can lie beside the nearest magnitude.

* `Magnitude.times?`, `Magnitude.over?`: a product and a quotient, each rounded once.
* `DecimalNumeral.taken`: the digits that 64 bits hold.
* `DecimalNumeral.stepwise?`: what a decimal is read as.
-/

namespace SchemaShapes.Number

namespace Magnitude

/-- The product of two magnitudes, rounded once. -/
def times? (a b : Magnitude) : Option Magnitude := nearest? (a.units * b.units) unitsOfOne

/-- The quotient by a magnitude above zero, rounded once. -/
def over? (a b : Magnitude) : Option Magnitude := nearest? (a.units * unitsOfOne) b.units

/-- The exponent of the greatest power of ten that has a nearest magnitude. -/
def greatestPower : Nat := 308

/-- The magnitude nearest to a power of ten, none past the greatest one. -/
def power? (exponent : Nat) : Option Magnitude := ofDecimal? 1 exponent

/-- A magnitude moved up by places in base ten. Zero stays where it is. -/
def raise? (m : Magnitude) (places : Nat) : Option Magnitude :=
  if m = zero then some zero else do m.times? (← power? places)

/-- A magnitude moved down by places in base ten, in steps of the greatest power. -/
def lower? (m : Magnitude) (places : Nat) : Option Magnitude :=
  if places ≤ greatestPower then do m.over? (← power? places)
  else if m = zero then some zero
  else do (← m.over? (← power? greatestPower)).lower? (places - greatestPower)
termination_by places
decreasing_by simp only [greatestPower] at *; omega

/-- A magnitude times `10 ^ exponent`. -/
def scale? (m : Magnitude) (exponent : Int) : Option Magnitude :=
  if 0 ≤ exponent then m.raise? exponent.toNat else m.lower? (-exponent).toNat

end Magnitude

namespace DecimalNumeral

/-- A number with the digits before the point that follow it. From the first digit on that 64 bits
have no room for, digits only count as places. -/
def takeWhole : Nat → List Char → Decimal
  | n, [] => ⟨n, 0⟩
  | n, c :: cs =>
    let more := appendDigit n c
    if more < UInt64.size then takeWhole more cs else ⟨n, (c :: cs).length⟩

/-- A decimal with the digits behind the point. From the first digit on that 64 bits have no room
for, digits are dropped. -/
def takeFraction : Decimal → List Char → Decimal
  | d, [] => d
  | d, c :: cs =>
    let more := appendDigit d.digits c
    if more < UInt64.size then takeFraction ⟨more, d.exponent - 1⟩ cs else d

/-- **The digits that 64 bits hold**, at their place. -/
def taken (d : DecimalNumeral) : Decimal :=
  let digits := takeFraction (takeWhole 0 d.whole) d.fraction
  ⟨digits.digits, digits.exponent + d.exponent⟩

/-- **Rounding step by step.** The digits that 64 bits hold as a magnitude, which is then moved to
its place; none past the greatest magnitude. -/
def stepwise? (d : DecimalNumeral) : Option Magnitude := do
  let m ← Magnitude.ofDecimal? d.taken.digits 0
  m.scale? d.taken.exponent

end DecimalNumeral

end SchemaShapes.Number
