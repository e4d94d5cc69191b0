import SchemaShapes.Number.Binary64

/-!
# Reading numbers

The texts that are read as whole numbers and as double-precision numbers.

* `integer?`: an optional sign and digits, within 64 bits.
* `DecimalNumeral.nearest?`: what a decimal is read as when it is rounded once.
* `real?`: decimals with an optional sign, point and exponent, and the names of infinity and of
  the not-a-number in any case.
-/

namespace SchemaShapes.Number

/-- The digits `0` to `9`. -/
def isDigit (c : Char) : Bool := '0' ≤ c && c ≤ '9'

/-- A number with one more digit behind it. -/
def appendDigit (n : Nat) (digit : Char) : Nat := 10 * n + (digit.toNat - 48)

/-- The number that digits write. -/
def valueOf (digits : List Char) : Nat :=
  digits.foldl appendDigit 0

/-- An optional sign, as whether it is a minus, and the rest. -/
def sign : List Char → Bool × List Char
  | '-' :: cs => (true, cs)
  | '+' :: cs => (false, cs)
  | cs => (false, cs)

/-- A signed value. -/
def signed (negative : Bool) (n : Nat) : Int :=
  if negative then -(n : Int) else n

/-- Whether 64 bits hold a whole number. -/
def fitsInt64 (n : Int) : Bool :=
  Int64.minValue.toInt ≤ n && n ≤ Int64.maxValue.toInt

/-- **A whole number**: an optional sign and at least one digit, of a value in 64 bits. -/
def integer? (cs : List Char) : Option Int64 :=
  let (negative, digits) := sign cs
  if digits.isEmpty || !digits.all isDigit then none
  else
    let n := signed negative (valueOf digits)
    if fitsInt64 n then some (Int64.ofInt n) else none

/-- A decimal exponent at the end of a number: nothing, or `e` and a signed whole number. -/
def exponent? : List Char → Option Int
  | [] => some 0
  | c :: cs =>
    let (negative, digits) := sign cs
    if (c == 'e' || c == 'E') && !digits.isEmpty && digits.all isDigit then
      some (signed negative (valueOf digits))
    else none

/-- **A decimal as it is written**, without a sign: the digits before and behind the point, and an
exponent. -/
structure DecimalNumeral where
  whole : List Char
  fraction : List Char
  exponent : Int

/-- **Rounding once.** The magnitude nearest to what is written, none past the greatest one. -/
def DecimalNumeral.nearest? (d : DecimalNumeral) : Option Magnitude :=
  Magnitude.ofDecimal? (valueOf (d.whole ++ d.fraction)) (d.exponent - d.fraction.length)

/-- A decimal without its sign: digits, with at most one point among or beside them, and an
exponent. -/
def decimal? (negative : Bool) (cs : List Char) : Option Binary64 :=
  let whole := cs.takeWhile isDigit
  let afterWhole := cs.dropWhile isDigit
  let (fraction, rest) :=
    match afterWhole with
    | '.' :: tail => (tail.takeWhile isDigit, tail.dropWhile isDigit)
    | _ => ([], afterWhole)
  if whole.isEmpty && fraction.isEmpty then none
  else
    (exponent? rest).map fun exponent =>
      Binary64.ofMagnitude? negative (DecimalNumeral.nearest? ⟨whole, fraction, exponent⟩)

/-- **A double-precision number**, the nearest to the decimal that is written. -/
def real? (cs : List Char) : Option Binary64 :=
  let (negative, rest) := sign cs
  let name := String.ofList (rest.map Char.toLower)
  if name == "inf" || name == "infinity" then some (.infinite negative)
  else if name == "nan" then some .nan
  else decimal? negative rest

end SchemaShapes.Number
