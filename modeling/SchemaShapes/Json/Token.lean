import SchemaShapes.Number.Stepwise

/-!
# Tokens of JSON texts

A JSON text cut into tokens. The cut stops at the first place where no token can be read, so
that what stands before it can still be used.

* `DecimalReading`: which double a decimal is read as.
* `next`: the first token of a text and what follows it.
* `tokens`: all tokens up to the end or the first fault.
-/

namespace SchemaShapes.Json

open SchemaShapes.Number (Binary64 DecimalNumeral Magnitude isDigit valueOf)

/-- **How decimals are read**: the magnitude that stands for what is written, and none past the
greatest one. -/
abbrev DecimalReading := DecimalNumeral → Option Magnitude

/-- **A token.** `unpaired` is a string with half a pair of units, which is no text, and `overflow`
a number past the greatest double; `fault` is where the text stops being JSON. -/
inductive Token where
  | openArray
  | closeArray
  | openObject
  | closeObject
  | comma
  | colon
  | null
  | bool (value : Bool)
  | integer (value : Int)
  | real (value : Binary64)
  | string (value : String)
  | unpaired
  | overflow
  | fault

namespace Token

/-- The blanks between tokens. -/
def isSpace (c : Char) : Bool := c == ' ' || c == '\n' || c == '\t' || c == '\r'

/-- The value of a digit in base sixteen. -/
def hexDigit? (c : Char) : Option Nat :=
  if isDigit c then some (c.toNat - 48)
  else if 'a' ≤ c && c ≤ 'f' then some (c.toNat - 87)
  else if 'A' ≤ c && c ≤ 'F' then some (c.toNat - 55)
  else none

/-- A unit of sixteen bits from four digits. -/
def unit? (a b c d : Char) : Option Nat := do
  pure ((((← hexDigit? a) * 16 + (← hexDigit? b)) * 16 + (← hexDigit? c)) * 16 + (← hexDigit? d))

/-- What an escape of one letter stands for. -/
def escape? (c : Char) : Option Char :=
  match c with
  | '"' => some '"'
  | '\\' => some '\\'
  | '/' => some '/'
  | 'b' => some (Char.ofNat 8)
  | 'f' => some (Char.ofNat 12)
  | 'n' => some '\n'
  | 'r' => some '\r'
  | 't' => some '\t'
  | _ => none

/-- The first half of a pair of units. -/
def isHigh (n : Nat) : Bool := 0xD800 ≤ n && n ≤ 0xDBFF

/-- The second half of a pair of units. -/
def isLow (n : Nat) : Bool := 0xDC00 ≤ n && n ≤ 0xDFFF

/-- The character of a pair of units. -/
def paired (high low : Nat) : Char :=
  Char.ofNat (0x10000 + (high - 0xD800) * 0x400 + (low - 0xDC00))

/-- **The inside of a string** up to its closing quote, in units of characters; `none` stands for
half a pair. Gives the characters in reverse and what follows the quote. -/
def stringBody : List Char → List (Option Char) → Option (List (Option Char) × List Char)
  | [], _ => none
  | '"' :: cs, done => some (done, cs)
  | '\\' :: 'u' :: a :: b :: c :: d :: '\\' :: 'u' :: e :: f :: g :: h :: cs, done =>
    match unit? a b c d, unit? e f g h with
    | some high, some low =>
      if isHigh high && isLow low then
        stringBody cs (some (paired high low) :: done)
      else
        stringBody ('\\' :: 'u' :: e :: f :: g :: h :: cs)
          ((if isHigh high || isLow high then none else some (Char.ofNat high)) :: done)
    | some n, none =>
      stringBody ('\\' :: 'u' :: e :: f :: g :: h :: cs)
        ((if isHigh n || isLow n then none else some (Char.ofNat n)) :: done)
    | none, _ => none
  | '\\' :: 'u' :: a :: b :: c :: d :: cs, done =>
    match unit? a b c d with
    | some n => stringBody cs ((if isHigh n || isLow n then none else some (Char.ofNat n)) :: done)
    | none => none
  | '\\' :: c :: cs, done =>
    match escape? c with
    | some e => stringBody cs (some e :: done)
    | none => none
  | c :: cs, done => if c.toNat < 32 then none else stringBody cs (some c :: done)
termination_by cs => cs.length

/-- A string from the characters after its opening quote. -/
def readString (cs : List Char) : Token × List Char :=
  match stringBody cs [] with
  | none => (.fault, [])
  | some (done, rest) =>
    if done.all Option.isSome then (.string (String.ofList (done.reverse.filterMap id)), rest)
    else (.unpaired, rest)

/-- The double of a decimal, if there is one. -/
def ofDecimal (reading : DecimalReading) (negative : Bool) (d : DecimalNumeral) : Token :=
  match reading d with
  | some m => .real (.finite negative m)
  | none => .overflow

/-- A whole number in 64 bits with or without sign stays whole; any other is a double, also a
negative zero. -/
def ofInteger (reading : DecimalReading) (negative : Bool) (digits : List Char) : Token :=
  let n := Number.signed negative (valueOf digits)
  let isWhole := if negative then n < 0 && Number.fitsInt64 n else n < UInt64.size
  if isWhole then .integer n else ofDecimal reading negative ⟨digits, [], 0⟩

/-- The exponent of a number and what follows it: `none` if there is none, and a fault if it has
no digits. -/
def readExponent (cs : List Char) : Option (Option Int × List Char) :=
  match cs with
  | c :: tail =>
    if c == 'e' || c == 'E' then
      let (negative, afterSign) := Number.sign tail
      let digits := afterSign.takeWhile isDigit
      if digits.isEmpty then none
      else some (some (Number.signed negative (valueOf digits)), afterSign.dropWhile isDigit)
    else some (none, cs)
  | [] => some (none, cs)

/-- **A number** from the characters after its sign: no zero before other digits, digits after a
point, digits in an exponent. -/
def readNumber (reading : DecimalReading) (negative : Bool) (cs : List Char) :
    Token × List Char :=
  let whole := cs.takeWhile isDigit
  let rest := cs.dropWhile isDigit
  if whole.isEmpty || (1 < whole.length && whole.head? == some '0') then (.fault, [])
  else
    match rest with
    | '.' :: tail =>
      let fraction := tail.takeWhile isDigit
      if fraction.isEmpty then (.fault, [])
      else
        match readExponent (tail.dropWhile isDigit) with
        | none => (.fault, [])
        | some (e, rest) => (ofDecimal reading negative ⟨whole, fraction, e.getD 0⟩, rest)
    | _ =>
      match readExponent rest with
      | none => (.fault, [])
      | some (none, rest) => (ofInteger reading negative whole, rest)
      | some (some e, rest) => (ofDecimal reading negative ⟨whole, [], e⟩, rest)

/-- The first token of a text that does not begin with a blank, and what follows it. -/
def next (reading : DecimalReading) : List Char → Token × List Char
  | '[' :: cs => (.openArray, cs)
  | ']' :: cs => (.closeArray, cs)
  | '\x7b' :: cs => (.openObject, cs)
  | '\x7d' :: cs => (.closeObject, cs)
  | ',' :: cs => (.comma, cs)
  | ':' :: cs => (.colon, cs)
  | 'n' :: 'u' :: 'l' :: 'l' :: cs => (.null, cs)
  | 't' :: 'r' :: 'u' :: 'e' :: cs => (.bool true, cs)
  | 'f' :: 'a' :: 'l' :: 's' :: 'e' :: cs => (.bool false, cs)
  | '"' :: cs => readString cs
  | '-' :: cs => readNumber reading true cs
  | cs => readNumber reading false cs

/-- **The tokens of a text** up to the first fault. Every token takes a character at least, so
as many steps as there are characters are enough. -/
def scan (reading : DecimalReading) : Nat → List Char → List Token → List Token
  | 0, _, done => done.reverse
  | steps + 1, cs, done =>
    match cs.dropWhile isSpace with
    | [] => done.reverse
    | cs =>
      match next reading cs with
      | (.fault, _) => (Token.fault :: done).reverse
      | (token, rest) => scan reading steps rest (token :: done)

end Token

/-- The tokens of a text. -/
def tokens (reading : DecimalReading) (text : String) : List Token :=
  let cs := text.toList
  Token.scan reading cs.length cs []

end SchemaShapes.Json
