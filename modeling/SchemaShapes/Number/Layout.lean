import SchemaShapes.Number.Shortest

/-!
# Texts of numbers

How the digits of a number are set out, as one record per kind of text.

* `Layout.plain`: the text of values, never with an exponent.
* `Layout.message`: the text of values shown in messages.
* `Layout.json`: the text of JSON numbers.
-/

namespace SchemaShapes.Number

/-- **A kind of number text.** A number whose leading digit has an exponent in `positional` is
written out, any other with an exponent. -/
structure Layout where
  positional : Int → Bool
  /-- Written after the digits of a whole number that is written out. -/
  wholeMark : String
  /-- Written before an exponent that is not negative. -/
  exponentPlus : String
  tie : Tie

/-- All digits are written out, and a whole number has no fraction. -/
def Layout.plain : Layout := ⟨fun _ => true, "", "", .up⟩

/-- Written out from `10 ^ -4` up to `10 ^ 16`, with at least one decimal. -/
def Layout.message : Layout := ⟨fun k => -4 ≤ k && k < 16, ".0", "", .up⟩

/-- Written out from `10 ^ -5` up to `10 ^ 16`, with at least one decimal; an exponent has a
sign. -/
def Layout.json : Layout := ⟨fun k => -5 ≤ k && k < 16, ".0", "+", .toEven⟩

namespace Layout

/-- Significant digits, without the zeros at the end, and the place of the point: the value is
`0.digits · 10 ^ point`. -/
def figures (d : Decimal) : List Char × Int :=
  let all := Nat.toDigits 10 d.digits
  ((all.reverse.dropWhile (· == '0')).reverse, all.length + d.exponent)

/-- The digits with the point at its place. -/
def writtenOut (layout : Layout) (digits : List Char) (point : Int) : String :=
  if point ≤ 0 then
    "0." ++ String.ofList (List.replicate (-point).toNat '0' ++ digits)
  else
    let whole := point.toNat
    if digits.length ≤ whole then
      String.ofList (digits ++ List.replicate (whole - digits.length) '0') ++ layout.wholeMark
    else
      String.ofList (digits.take whole) ++ "." ++ String.ofList (digits.drop whole)

/-- One digit, a point if more follow, and the exponent of the first. -/
def withExponent (layout : Layout) (digits : List Char) (exponent : Int) : String :=
  String.ofList (digits.take 1) ++
    (if digits.length ≤ 1 then "" else "." ++ String.ofList (digits.drop 1)) ++
    "e" ++ (if exponent < 0 then "" else layout.exponentPlus) ++ toString exponent

/-- The text of a magnitude. -/
def magnitude (layout : Layout) (m : Magnitude) : String :=
  if m.significand = 0 then "0" ++ layout.wholeMark
  else
    let (digits, point) := figures (m.shortest layout.tie)
    if layout.positional (point - 1) then layout.writtenOut digits point
    else layout.withExponent digits (point - 1)

/-- **The text of a number.** Zero keeps its sign. -/
def render (layout : Layout) : Binary64 → String
  | .nan => "NaN"
  | .infinite negative => (if negative then "-" else "") ++ "inf"
  | .finite negative m => (if negative then "-" else "") ++ layout.magnitude m

end Layout

end SchemaShapes.Number
