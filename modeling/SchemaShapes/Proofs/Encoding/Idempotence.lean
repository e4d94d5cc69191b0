import SchemaShapes.Proofs.Encoding.Integers
import SchemaShapes.Proofs.Number.ReadBack

/-!
# Texts in the form in which they are written

A primitive type takes text in several forms and writes it in one: truth values in small letters,
whole numbers without the signs and zeros that they can do without, doubles with the fewest digits or
by the name of what is not finite, all other text as it is. What is written is text of the type
again, and it is written as it is.

* `Primitive.real?_of_realText?`: the text of a double reads back as the double, finite or not.
* `Primitive.lexical_text_idempotent`: the text of a text is its own text.
* `Primitive.encode_text_idempotent`: the same of literals.
-/

namespace SchemaShapes.Primitive

open Number

variable {p : Primitive} {s text : String} {l : Literal}

theorem booleanText?_idempotent (h : booleanText? s = some text) :
    booleanText? text = some text := by
  have hmem := admits_booleanText? h
  rw [List.mem_pair] at hmem
  rcases hmem with rfl | rfl
  · rfl
  · rfl

/-- **The text of a double** in a type of numbers reads back as the double. -/
theorem real?_of_realText? {x : Binary64} (h : p.realText? x = some text) :
    real? (Text.trim text.toList) = some x := by
  cases x with
  | finite negative m =>
    rw [realText?_finite, Option.some.injEq] at h
    rw [← h]
    exact Layout.real?_trim_render negative m
  | nan =>
    unfold realText? at h
    split at h
    · cases h
    · cases h
      decide
  | infinite negative =>
    unfold realText? at h
    split at h
    · cases h
    · cases h
      cases negative <;> decide

/-- **The text of a text** is its own text. -/
theorem lexical_text_idempotent (h : p.lexical (.text s) = .ok text) :
    p.lexical (.text text) = .ok text := by
  have hreal : p.isReal = true → p.lexical (.text text) = .ok text := fun hp => by
    obtain ⟨x, -, hx⟩ := (lexical_text_eq_ok_iff hp).1 h
    exact (lexical_text_eq_ok_iff hp).2 ⟨x, real?_of_realText? hx, hx⟩
  cases p with
  | boolean =>
    exact orUnencodable_eq_ok.2 (booleanText?_idempotent (orUnencodable_eq_ok.1 h))
  | integer =>
    obtain ⟨n, -, rfl⟩ := Option.map_eq_some_iff.1 (orUnencodable_eq_ok.1 h)
    have hread : integer? (Text.trim (toString n.toInt).toList) = some n :=
      integer?_trim_eq_some_iff.2 (statesInteger_toString n.toInt)
    simp only [lexical, hread, Option.map_some, orUnencodable]
  | decimal => exact hreal rfl
  | float => exact hreal rfl
  | double => exact hreal rfl
  -- the other types keep every text as it is
  | _ => rfl

/-- **What is written for a text is written for itself.** In every primitive type, the literal of a
text is also the literal of its own text. -/
theorem encode_text_idempotent (h : p.encode (.text s) = .ok l) :
    p.encode (.text l.lexical) = .ok l := by
  obtain ⟨text, htext, rfl⟩ := map_eq_ok.1 h
  exact map_eq_ok.2 ⟨text, lexical_text_idempotent htext, rfl⟩

/-- A number with a sign, an exponent and blanks around it is written anew, and then no more. -/
theorem encode_text_idempotent_sample :
    double.encode (.text "\u2003-025e-4 ") = .ok ⟨"-0.0025", some Xsd.double⟩ ∧
      double.encode (.text "-0.0025") = .ok ⟨"-0.0025", some Xsd.double⟩ := by
  have h : double.encode (.text "\u2003-025e-4 ") = .ok ⟨"-0.0025", some Xsd.double⟩ := by
    decide +kernel
  have hagain := encode_text_idempotent h
  exact ⟨h, hagain⟩

end SchemaShapes.Primitive
