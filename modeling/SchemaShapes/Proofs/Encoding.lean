import SchemaShapes.Encoding
import SchemaShapes.Proofs.Number.Texts
import SchemaShapes.Proofs.Outcome

/-!
# Literals that their datatypes admit

Whatever a value is, its text in a primitive type is one that the datatype admits. Text that states
a number is written anew, so that neither spaces nor exponents nor names of infinity come through.

* `Primitive.Admits`: the texts that a type admits.
* `Literal.Valid`: a literal whose datatype admits its text.
* `Primitive.encode_valid`, `Scalar.encodeNaturally_valid`: the literals of values are valid.
-/

namespace SchemaShapes

open Number

/-- The texts of numbers that need not be finite. -/
def IsFloat (s : String) : Prop :=
  Matches decimalPattern s ∨ s ∈ ["NaN", "INF", "-INF"]

/-- **The texts that a primitive type admits.** Nothing is asked of types that are neither truth
values nor numbers. -/
def Primitive.Admits : Primitive → String → Prop
  | .boolean, s => s ∈ ["true", "false"]
  | .integer, s => Matches integerPattern s
  | .decimal, s => Matches decimalPattern s
  | .float, s => IsFloat s
  | .double, s => IsFloat s
  | _, _ => True

/-- **A literal that its datatype admits.** -/
def Literal.Valid (l : Literal) : Prop :=
  ∀ p : Primitive, l.datatype = some p.datatype → p.Admits l.lexical

namespace Primitive

variable {p : Primitive} {value : Scalar} {text : String}

theorem ofDatatype?_datatype (p : Primitive) : ofDatatype? p.datatype = some p := by
  cases p <;> decide

/-- Different primitive types have different datatypes. -/
theorem datatype_injective : Function.Injective datatype := by
  intro p q h
  have hread := ofDatatype?_datatype p
  rw [h, ofDatatype?_datatype, Option.some.injEq] at hread
  exact hread.symm

theorem valid_of_admits (h : p.Admits text) : Literal.Valid ⟨text, some p.datatype⟩ := by
  intro q hq
  rw [← datatype_injective (Option.some.inj hq)]
  exact h

theorem orUnencodable_eq_ok {found : Option String} :
    p.orUnencodable value found = .ok text ↔ found = some text := by
  cases found <;> simp [orUnencodable]

/-! ## Texts of values -/

theorem admits_booleanText? {s : String} (h : booleanText? s = some text) :
    text ∈ ["true", "false"] := by
  unfold booleanText? at h
  split at h
  · cases h
    simp
  · split at h
    · cases h
      simp
    · cases h

theorem matches_wholeText? {x : Binary64} (h : wholeText? x = some text) :
    Matches integerPattern text := by
  cases x with
  | nan => cases h
  | infinite negative => cases h
  | finite negative m =>
    cases hw : m.whole? with
    | none => simp [wholeText?, hw] at h
    | some n =>
      simp only [wholeText?, hw] at h
      split at h
      · rw [← Option.some.inj h]
        exact matches_signed_nat negative n
      · cases h

theorem isFloat_floatText (x : Binary64) : IsFloat (floatText x) := by
  cases x with
  | nan => exact Or.inr (by simp [floatText])
  | infinite negative => exact Or.inr (by cases negative <;> simp [floatText])
  | finite negative m => exact Or.inl (Layout.matches_plain negative m)

theorem matches_decimalText? {x : Binary64} (h : decimalText? x = some text) :
    Matches decimalPattern text := by
  cases x with
  | nan => cases h
  | infinite negative => cases h
  | finite negative m =>
    cases h
    exact Layout.matches_plain negative m

/-- Types of numbers that need not be whole admit decimals. -/
theorem admits_decimal (hp : p.isReal = true) (h : Matches decimalPattern text) :
    p.Admits text := by
  cases p with
  | decimal => exact h
  | float => exact Or.inl h
  | double => exact Or.inl h
  | _ => cases hp

theorem admits_realText? (hp : p.isReal = true) {x : Binary64} (h : p.realText? x = some text) :
    p.Admits text := by
  cases p with
  | decimal => exact matches_decimalText? h
  | float =>
    cases h
    exact isFloat_floatText x
  | double =>
    cases h
    exact isFloat_floatText x
  | _ => cases hp

/-- The types of numbers that need not be whole write a text as the number that it states. -/
theorem admits_lexical_of_isReal (hp : p.isReal = true) (h : p.lexical value = .ok text) :
    p.Admits text := by
  unfold lexical at h
  split at h
  case h_9 =>
    rw [if_pos hp] at h
    cases value with
    | bool b => cases h
    | integer n =>
      cases h
      exact admits_decimal hp (matches_int n.toInt).decimal
    | real x => exact admits_realText? hp (orUnencodable_eq_ok.1 h)
    | text s =>
      simp only at h
      split at h
      · exact admits_realText? hp (orUnencodable_eq_ok.1 h)
      · cases h
  -- the cases before are those of other types
  all_goals cases hp

/-- **The text of a value in a primitive type** is one that the type admits. -/
theorem admits_lexical (h : p.lexical value = .ok text) : p.Admits text := by
  cases p with
  | boolean =>
    cases value with
    | bool b =>
      cases h
      cases b <;> simp [Admits]
    | text s => exact admits_booleanText? (orUnencodable_eq_ok.1 h)
    | integer n => cases h
    | real x => cases h
  | integer =>
    cases value with
    | bool b => cases h
    | integer n =>
      cases h
      exact matches_int n.toInt
    | real x => exact matches_wholeText? (orUnencodable_eq_ok.1 h)
    | text s =>
      obtain ⟨n, -, rfl⟩ := Option.map_eq_some_iff.1 (orUnencodable_eq_ok.1 h)
      exact matches_int n.toInt
  | decimal => exact admits_lexical_of_isReal rfl h
  | float => exact admits_lexical_of_isReal rfl h
  | double => exact admits_lexical_of_isReal rfl h
  | _ => trivial

/-- The literal of a value in a primitive type has the datatype of the type. -/
theorem datatype_of_encode {l : Literal} (h : p.encode value = .ok l) :
    l.datatype = some p.datatype := by
  obtain ⟨text, -, rfl⟩ := map_eq_ok.1 h
  rfl

/-- **The literal of a value in a primitive type** is valid. -/
theorem encode_valid {l : Literal} (h : p.encode value = .ok l) : l.Valid := by
  obtain ⟨text, htext, rfl⟩ := map_eq_ok.1 h
  exact valid_of_admits (admits_lexical htext)

end Primitive

namespace Literal

theorem valid_untyped (s : String) : (untyped s).Valid := by
  intro p hp
  cases hp

theorem valid_boolean (b : Bool) : (boolean b).Valid :=
  Primitive.valid_of_admits (p := .boolean) (by cases b <;> simp [Primitive.Admits])

theorem valid_integer (n : Nat) : (integer n).Valid :=
  Primitive.valid_of_admits (p := .integer) (matches_signed_nat false n)

end Literal

/-- The literal of a value in the type of its own kind is valid. -/
theorem Scalar.encodeNaturally_valid {value : Scalar} {l : Literal}
    (h : value.encodeNaturally = .ok l) : l.Valid := by
  cases value with
  | bool b => exact Primitive.encode_valid h
  | integer n => exact Primitive.encode_valid h
  | real x => exact Primitive.encode_valid h
  | text s =>
    cases h
    exact Literal.valid_untyped _

end SchemaShapes
