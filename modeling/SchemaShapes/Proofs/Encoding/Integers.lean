import SchemaShapes.Proofs.Encoding
import SchemaShapes.Proofs.Number.Integers
import SchemaShapes.Proofs.Number.Range
import SchemaShapes.Proofs.Number.Whole

/-!
# Whole numbers as literals

A whole number comes as a number of 64 bits, as a double, or as a text. As a literal of the integer
type it has one text, however it comes, except that a double that is zero keeps a minus. Doubles from
a limit on are refused there, whole or not. In the other types of numbers a text goes through the
nearest double and a number of 64 bits does not, so that the two literals part where the fewest digits
of that double are another number.

* `Scalar.Denotes`: the whole number that a value denotes.
* `Primitive.encode_integer_eq_iff`: which values of one whole number share a literal.
* `Primitive.encode_integer_real`: which doubles are encoded as whole numbers.
* `Primitive.encode_text_eq_iff`: which whole numbers share a literal with their texts.
-/

namespace SchemaShapes

open Number

/-- **The whole number that a value denotes.** -/
inductive Scalar.Denotes : Scalar → Int → Prop
  | integer (j : Int64) : Denotes (.integer j) j.toInt
  | real {negative : Bool} {m : Magnitude} {j : Nat} (h : m.units = j * Magnitude.unitsOfOne) :
    Denotes (.real (.finite negative m)) (signed negative j)
  | text {s : String} {n : Int} (h : StatesInteger s n) : Denotes (.text s) n

/-- A value denotes one whole number at most. -/
theorem Scalar.Denotes.unique {v : Scalar} {n j : Int} (h : v.Denotes n) (h' : v.Denotes j) :
    n = j := by
  cases h with
  | integer i =>
    cases h'
    rfl
  | @real negative m k hk =>
    cases h' with
    | real hk' =>
      have hsame := Nat.eq_of_mul_eq_mul_right Magnitude.unitsOfOne_pos (hk.symm.trans hk')
      rw [hsame]
  | text hs =>
    cases h' with
    | text hs' => exact hs.unique hs'

/-- The double that is zero and has a minus. -/
def Scalar.negativeZero : Scalar := .real (.finite true .zero)

/-- A whole number up to `2 ^ 53` is what its nearest double denotes. -/
theorem Scalar.denotes_ofInt {n : Int} (h : n.natAbs ≤ 2 ^ 53) :
    (Scalar.real (Binary64.ofInt n)).Denotes n := by
  obtain ⟨m, hm⟩ := Option.isSome_iff_exists.1
    (Magnitude.ofDecimal?_isSome (lt_of_le_of_lt h (by decide)))
  have hdenotes : (Scalar.real (.finite (decide (n < 0)) m)).Denotes
      (signed (decide (n < 0)) n.natAbs) := .real (Magnitude.units_of_ofDecimal? h hm)
  rw [signed_natAbs] at hdenotes
  rw [Binary64.ofInt, Binary64.ofDecimal, hm]
  exact hdenotes

namespace Primitive

variable {v w : Scalar} {n : Int} {l k : Literal} {text : String}

/-! ## Values of one whole number -/

/-- A double that denotes a whole number has a text as one below the limit. -/
theorem wholeText?_of_units (negative : Bool) {m : Magnitude} {j : Nat}
    (hm : m.units = j * Magnitude.unitsOfOne) : wholeText? (.finite negative m) =
      if j < wholeLimit then some ((if negative then "-" else "") ++ toString j) else none := by
  simp only [wholeText?, Magnitude.whole?_eq_some_iff.2 hm]

/-- **Which doubles have a text as whole numbers**: those that denote one below the limit. -/
theorem exists_wholeText?_iff {x : Binary64} :
    (∃ text, wholeText? x = some text) ↔
      ∃ n, (Scalar.real x).Denotes n ∧ n.natAbs < wholeLimit := by
  constructor
  · rintro ⟨text, h⟩
    cases x with
    | nan => cases h
    | infinite negative => cases h
    | finite negative m =>
      cases hm : m.whole? with
      | none => simp only [wholeText?, hm, reduceCtorEq] at h
      | some j =>
        have hunits := Magnitude.whole?_eq_some_iff.1 hm
        rw [wholeText?_of_units negative hunits, Option.ite_none_right_eq_some] at h
        exact ⟨_, .real hunits, by rw [natAbs_signed]; exact h.1⟩
  · rintro ⟨n, hn, hsmall⟩
    cases hn with
    | real hm =>
      rw [natAbs_signed] at hsmall
      exact ⟨_, by rw [wholeText?_of_units _ hm, if_pos hsmall]⟩

theorem real_eq_negativeZero_iff {negative : Bool} {m : Magnitude} {j : Nat}
    (hm : m.units = j * Magnitude.unitsOfOne) :
    Scalar.real (.finite negative m) = .negativeZero ↔ negative = true ∧ j = 0 := by
  rw [Scalar.negativeZero, Scalar.real.injEq, Binary64.finite.injEq, Magnitude.eq_zero_iff hm]

/-- A double that denotes a whole number has the text of it, apart from the zero with a minus. -/
theorem wholeText?_eq {negative : Bool} {m : Magnitude} {j : Nat}
    (hm : m.units = j * Magnitude.unitsOfOne) (h : wholeText? (.finite negative m) = some text) :
    text = if Scalar.real (.finite negative m) = .negativeZero then "-0"
      else toString (signed negative j) := by
  rw [wholeText?_of_units negative hm, Option.ite_none_right_eq_some, Option.some.injEq] at h
  rw [← h.2]
  by_cases hzero : Scalar.real (.finite negative m) = .negativeZero
  · obtain ⟨rfl, rfl⟩ := (real_eq_negativeZero_iff hm).1 hzero
    rw [if_pos hzero]
    rfl
  · have hsigned := mt (real_eq_negativeZero_iff hm).2 hzero
    rw [not_and_or, Bool.not_eq_true] at hsigned
    rw [if_neg hzero, toString_signed negative hsigned]

/-- **The text of a value that denotes a whole number** is that of the number, apart from the zero
with a minus. -/
theorem lexical_eq_of_denotes (hv : v.Denotes n) (h : integer.lexical v = .ok text) :
    text = if v = .negativeZero then "-0" else toString n := by
  cases hv with
  | integer j =>
    cases h
    exact (if_neg Scalar.noConfusion).symm
  | real hm => exact wholeText?_eq hm (orUnencodable_eq_ok.1 h)
  | @text s n hs =>
    obtain ⟨j, hj, rfl⟩ := Option.map_eq_some_iff.1 (orUnencodable_eq_ok.1 h)
    rw [if_neg Scalar.noConfusion, (integer?_trim_eq_some_iff.1 hj).unique hs]

theorem denotes_negativeZero : Scalar.negativeZero.Denotes n ↔ n = 0 := by
  constructor
  · intro h
    cases h with
    | real hm =>
      rw [(Magnitude.eq_zero_iff hm).1 rfl]
      rfl
  · rintro rfl
    exact .real (j := 0) (Nat.zero_mul _).symm

/-- **The literal of a value that denotes a whole number.** -/
theorem eq_of_encode_integer (hv : v.Denotes n) (h : integer.encode v = .ok l) :
    l = ⟨if v = .negativeZero then "-0" else toString n, some Xsd.integer⟩ := by
  obtain ⟨text, htext, rfl⟩ := map_eq_ok.1 h
  rw [lexical_eq_of_denotes hv htext]
  rfl

theorem not_matches_negativeZero : ¬ Matches canonicalPattern "-0" := by decide

theorem toString_ne_negativeZero (n : Int) : toString n ≠ "-0" := fun h =>
  not_matches_negativeZero (h ▸ matches_canonicalPattern n)

/-- The text that tells which number a value denotes, and that it is the zero with a minus. -/
theorem text_eq_iff {j : Int} (hv : v.Denotes n) (hw : w.Denotes j) :
    ((if v = .negativeZero then "-0" else toString n) =
        if w = .negativeZero then "-0" else toString j) ↔
      n = j ∧ (v = .negativeZero ↔ w = .negativeZero) := by
  by_cases h : v = .negativeZero
  · rw [if_pos h, iff_true_left h]
    by_cases h' : w = .negativeZero
    · subst h h'
      rw [if_pos rfl, denotes_negativeZero.1 hv, denotes_negativeZero.1 hw]
      exact iff_of_true rfl ⟨rfl, rfl⟩
    · rw [if_neg h']
      exact iff_of_false (toString_ne_negativeZero j).symm fun hall => h' hall.2
  · rw [if_neg h, iff_false_left h]
    by_cases h' : w = .negativeZero
    · rw [if_pos h']
      exact iff_of_false (toString_ne_negativeZero n) fun hall => hall.2 h'
    · rw [if_neg h', and_iff_left h']
      have hstates := statesInteger_toString n
      exact ⟨fun htext => (htext ▸ hstates).unique (statesInteger_toString j), congrArg toString⟩

/-- **Which values of whole numbers share a literal.** Values that are encoded as whole numbers have
one literal exactly if they denote one number, except that the double that is zero with a minus has a
literal of its own. All but that literal have the canonical text of the number. -/
theorem encode_integer_eq_iff {j : Int} (hv : v.Denotes n) (hw : w.Denotes j)
    (hl : integer.encode v = .ok l) (hk : integer.encode w = .ok k) :
    (l = k ↔ n = j ∧ (v = .negativeZero ↔ w = .negativeZero)) ∧
      (v ≠ .negativeZero → l = ⟨toString n, some Xsd.integer⟩) ∧
      (Matches canonicalPattern l.lexical ↔ v ≠ .negativeZero) := by
  rw [eq_of_encode_integer hv hl, eq_of_encode_integer hw hk, Literal.mk.injEq, and_iff_left rfl]
  refine ⟨text_eq_iff hv hw, fun h => by rw [if_neg h], ?_⟩
  by_cases h : v = .negativeZero
  · rw [if_pos h]
    exact iff_of_false not_matches_negativeZero fun hne => hne h
  · rw [if_neg h]
    exact iff_of_true (matches_canonicalPattern n) h

/-- The double seven and a text of seven with a sign, zeros and blanks have one literal. -/
theorem encode_integer_seven :
    ∃ l, integer.encode (.text " +007\t") = .ok l ∧
      integer.encode (.real (Binary64.ofInt 7)) = .ok l ∧ Matches canonicalPattern l.lexical := by
  have htext : integer.encode (.text " +007\t") = .ok ⟨"7", some Xsd.integer⟩ := by decide
  have hreal : integer.encode (.real (Binary64.ofInt 7)) = .ok ⟨"7", some Xsd.integer⟩ := by
    decide +kernel
  have hstates : StatesInteger " +007\t" 7 := statesInteger_iff.2
    ⟨['+'], ['0', '0', '7'], false, by decide, .plus, by decide, all_isDigit.1 (by decide), by decide⟩
  have hdenotes : (Scalar.real (Binary64.ofInt 7)).Denotes 7 := Scalar.denotes_ofInt (by decide)
  have hzero : Scalar.text " +007\t" ≠ .negativeZero := Scalar.noConfusion
  exact ⟨_, htext, hreal, (encode_integer_eq_iff (.text hstates) hdenotes htext hreal).2.2.2 hzero⟩

/-- **A minus that a whole number can do without.** The double that is zero with a minus denotes the
same number as the number zero of 64 bits, and has another literal. -/
theorem encode_integer_negativeZero :
    Scalar.negativeZero.Denotes 0 ∧ (Scalar.integer 0).Denotes 0 ∧
      integer.encode .negativeZero = .ok ⟨"-0", some Xsd.integer⟩ ∧
      integer.encode (.integer 0) = .ok ⟨"0", some Xsd.integer⟩ ∧
      ¬ Matches canonicalPattern "-0" := by
  have hzero : integer.encode .negativeZero = .ok ⟨"-0", some Xsd.integer⟩ := by decide +kernel
  exact ⟨denotes_negativeZero.2 rfl, .integer 0, hzero, rfl, not_matches_negativeZero⟩

/-! ## Doubles that are taken for whole numbers -/

/-- **The text of a whole number writes it**, with the minus of zero too. -/
theorem writesInteger_of_lexical (hv : v.Denotes n) (h : integer.lexical v = .ok text) :
    WritesInteger text.toList n := by
  rw [lexical_eq_of_denotes hv h]
  by_cases hzero : v = .negativeZero
  · subst hzero
    rw [if_pos rfl, denotes_negativeZero.1 hv]
    exact ⟨['-'], ['0'], true, rfl, .minus, by decide, all_isDigit.1 (by decide), by decide⟩
  · rw [if_neg hzero]
    exact writesInteger_toString n

/-- **Which doubles are encoded as whole numbers.** A double that denotes a whole number of an amount
below `9 * 10 ^ 15` has a literal, which writes that number and no other, and does so by the number's
own text if the double is not zero with a minus. Every other double, whole or not, is refused with
itself as the value at fault. -/
theorem encode_integer_real (x : Binary64) :
    (∃ n text, (Scalar.real x).Denotes n ∧ n.natAbs < 9000000000000000 ∧
        integer.encode (.real x) = .ok ⟨text, some Xsd.integer⟩ ∧
        (∀ k, WritesInteger text.toList k ↔ (Scalar.real x).Denotes k) ∧
        (Scalar.real x ≠ .negativeZero → text = toString n)) ∨
      ((¬ ∃ n, (Scalar.real x).Denotes n ∧ n.natAbs < 9000000000000000) ∧
        integer.encode (.real x) = .error ⟨.real x, .integer⟩) := by
  have hlexical : integer.lexical (.real x) = integer.orUnencodable (.real x) (wholeText? x) := rfl
  by_cases hwhole : ∃ n, (Scalar.real x).Denotes n ∧ n.natAbs < wholeLimit
  · obtain ⟨n, hn, hsmall⟩ := hwhole
    obtain ⟨text, htext⟩ := exists_wholeText?_iff.2 ⟨n, hn, hsmall⟩
    rw [htext] at hlexical
    have hwrites := writesInteger_of_lexical hn hlexical
    refine Or.inl ⟨n, text, hn, hsmall, by rw [encode, hlexical]; rfl, fun k => ?_, fun hzero => ?_⟩
    · exact ⟨fun hk => hk.unique hwrites ▸ hn, fun hk => hn.unique hk ▸ hwrites⟩
    · rw [lexical_eq_of_denotes hn hlexical, if_neg hzero]
  · have hnone : wholeText? x = none :=
      Option.eq_none_iff_forall_ne_some.2 fun text htext =>
        hwhole (exists_wholeText?_iff.1 ⟨text, htext⟩)
    rw [hnone] at hlexical
    exact Or.inr ⟨hwhole, by rw [encode, hlexical]; rfl⟩

/-- **A whole double that is refused.** The limit is a whole number that a double denotes exactly. -/
theorem encode_integer_limit :
    (Scalar.real (Binary64.ofInt 9000000000000000)).Denotes 9000000000000000 ∧
      integer.encode (.real (Binary64.ofInt 9000000000000000)) =
        .error ⟨.real (Binary64.ofInt 9000000000000000), .integer⟩ := by
  have hrefused : integer.encode (.real (Binary64.ofInt 9000000000000000)) =
      .error ⟨.real (Binary64.ofInt 9000000000000000), .integer⟩ := by decide +kernel
  exact ⟨Scalar.denotes_ofInt (by decide), hrefused⟩

/-! ## Whole numbers and their texts -/

/-- A whole number has one literal of the integer type, as a number and as a text. -/
theorem encode_integer_text (j : Int64) :
    integer.encode (.text (toString j.toInt)) = integer.encode (.integer j) := by
  have hread : Number.integer? (Text.trim (toString j.toInt).toList) = some j :=
    integer?_trim_eq_some_iff.2 (statesInteger_toString j.toInt)
  simp only [encode, lexical, hread, Option.map_some, orUnencodable]

/-- The text of a finite double is the same in all types of numbers that need not be whole. -/
theorem realText?_finite (p : Primitive) (negative : Bool) (m : Magnitude) :
    p.realText? (.finite negative m) = some (Layout.plain.render (.finite negative m)) := by
  unfold realText?
  split <;> rfl

variable {p : Primitive}

theorem encode_integer_of_isReal (hp : p.isReal = true) (j : Int64) :
    p.encode (.integer j) = .ok ⟨toString j.toInt, some p.datatype⟩ := by
  cases p with
  | decimal => rfl
  | float => rfl
  | double => rfl
  | _ => cases hp

/-- The types of numbers that need not be whole write for a text what they write for the double that
it states. -/
theorem lexical_text_eq_ok_iff (hp : p.isReal = true) {s : String} :
    p.lexical (.text s) = .ok text ↔
      ∃ x, real? (Text.trim s.toList) = some x ∧ p.realText? x = some text := by
  cases hread : real? (Text.trim s.toList) with
  | some x =>
    cases p with
    | decimal | float | double => simp [lexical, isReal, hread, orUnencodable_eq_ok]
    | _ => cases hp
  | none =>
    cases p with
    | decimal | float | double => simp [lexical, isReal, hread]
    | _ => cases hp

theorem encode_toString_of_isReal (hp : p.isReal = true) {m : Magnitude}
    (h : Magnitude.ofDecimal? n.natAbs 0 = some m) :
    p.encode (.text (toString n)) =
      .ok ⟨Layout.plain.render (.finite (decide (n < 0)) m), some p.datatype⟩ := by
  have hread : real? (Text.trim (toString n).toList) = some (.finite (decide (n < 0)) m) := by
    rw [trim_toString, real?_toString, Binary64.ofInt, Binary64.ofDecimal, h]
    rfl
  exact map_eq_ok.2 ⟨_, (lexical_text_eq_ok_iff hp).2 ⟨_, hread, realText?_finite p _ m⟩, rfl⟩

/-- The text of a double with the sign of a whole number is the text of the number exactly if
without the signs they are the same. -/
theorem render_eq_toString_iff {m : Magnitude} :
    Layout.plain.render (.finite (decide (n < 0)) m) = toString n ↔
      (m.shortest .up).IsWhole n.natAbs := by
  have hsign : decide (n < 0) = false ∨ n.natAbs ≠ 0 := by
    by_cases h : n < 0
    · exact Or.inr (by omega)
    · exact Or.inl (decide_eq_false h)
  have htext := toString_signed (decide (n < 0)) hsign
  rw [signed_natAbs] at htext
  rw [htext, ← Layout.magnitude_eq_iff, Layout.render, ← String.toList_inj, String.toList_append,
    String.toList_append, List.append_cancel_left_eq, String.toList_inj]

/-- **Which whole numbers share a literal with their texts.** As literals of the integer type all of
them do. In the other types of numbers a text is that of the double nearest to it, and the literals
are the same exactly if the fewest digits of that double are the number, as they are up to `2 ^ 53`. -/
theorem encode_text_eq_iff (j : Int64) :
    integer.encode (.text (toString j.toInt)) = integer.encode (.integer j) ∧
      ∀ p : Primitive, p.isReal = true →
        ∃ m, Magnitude.ofDecimal? j.toInt.natAbs 0 = some m ∧
          p.encode (.integer j) = .ok ⟨toString j.toInt, some p.datatype⟩ ∧
          p.encode (.text (toString j.toInt)) =
            .ok ⟨Layout.plain.render (.finite (decide (j.toInt < 0)) m), some p.datatype⟩ ∧
          (p.encode (.text (toString j.toInt)) = p.encode (.integer j) ↔
            (m.shortest .up).IsWhole j.toInt.natAbs) ∧
          (j.toInt.natAbs ≤ 2 ^ 53 →
            p.encode (.text (toString j.toInt)) = p.encode (.integer j)) := by
  refine ⟨encode_integer_text j, fun p hp => ?_⟩
  have hlow := j.le_toInt
  have hhigh := j.toInt_lt
  obtain ⟨m, hm⟩ := Option.isSome_iff_exists.1
    (Magnitude.ofDecimal?_isSome (n := j.toInt.natAbs) (by omega))
  have hnative := encode_integer_of_isReal hp j
  have htext := encode_toString_of_isReal hp hm
  have hiff : p.encode (.text (toString j.toInt)) = p.encode (.integer j) ↔
      (m.shortest .up).IsWhole j.toInt.natAbs := by
    rw [hnative, htext, Except.ok.injEq, Literal.mk.injEq, and_iff_left rfl,
      render_eq_toString_iff]
  refine ⟨m, hm, hnative, htext, hiff, fun hsmall => hiff.2 ?_⟩
  exact Magnitude.isWhole_shortest hsmall (Magnitude.units_of_ofDecimal? hsmall hm) .up

/-- At `-2 ^ 53` the text still has the literal of its number. -/
theorem encode_text_lowest :
    (-9007199254740992 : Int64).toInt.natAbs ≤ 2 ^ 53 ∧
      decimal.encode (.text "-9007199254740992") = .ok ⟨"-9007199254740992", some Xsd.decimal⟩ := by
  have hsmall : (-9007199254740992 : Int64).toInt.natAbs ≤ 2 ^ 53 := by decide
  have htext : toString (-9007199254740992 : Int64).toInt = "-9007199254740992" := by decide
  obtain ⟨m, -, hnative, -, -, hsame⟩ := (encode_text_eq_iff (-9007199254740992)).2 decimal rfl
  rw [htext] at hsame hnative
  exact ⟨hsmall, (hsame hsmall).trans hnative⟩

/-- **A number that its text does not keep.** The double nearest to `2 ^ 53 + 1` is `2 ^ 53`, so that
the text of that number becomes another one. -/
theorem encode_text_rounded :
    toString (9007199254740993 : Int64).toInt = "9007199254740993" ∧
      decimal.encode (.integer 9007199254740993) =
        .ok ⟨"9007199254740993", some Xsd.decimal⟩ ∧
      decimal.encode (.text "9007199254740993") =
        .ok ⟨"9007199254740992", some Xsd.decimal⟩ := by
  have hread : decimal.encode (.text "9007199254740993") =
      .ok ⟨"9007199254740992", some Xsd.decimal⟩ := by decide +kernel
  exact ⟨by decide, rfl, hread⟩

end Primitive

end SchemaShapes
