import Mathlib.Order.Defs.Unbundled
import Mathlib.Tactic.SplitIfs
import SchemaShapes.Rdf.Graph

/-!
# The order of triples, spelled out

Triples are compared by a function. Here their order is a relation with one rule for each way in
which a term, a literal or a triple can come first, and texts are compared byte by byte.

UTF-8 keeps the order of texts: of two characters the lesser one has the lesser first byte, or the
same number of bytes and a lesser one where the two first differ.

* `Text.lt_iff_bytes`: texts are ordered as their bytes are.
* `Triple.before_iff`: the order of the function is that of the rules.
* `Triple.precedes_strictTotalOrder`: the rules put any two triples in order.
-/

namespace SchemaShapes

/-! ## Texts by bytes -/

namespace Text

/-- The bytes of a text in UTF-8. -/
def bytes (s : String) : List UInt8 := s.toUTF8.data.toList

theorem bytes_eq (s : String) : bytes s = s.toList.flatMap String.utf8EncodeChar := by
  rw [bytes, String.toUTF8_eq_toByteArray, ← String.utf8Encode_toList]
  exact List.toList_data_toByteArray

/-- No character has a number that is not Unicode's. -/
theorem char_lt (c : Char) : c.val.toNat < 1114112 := by
  have h := c.valid
  simp only [UInt32.isValidChar, Nat.isValidChar] at h
  omega

/-- **The lesser character comes first**, whatever follows the two. -/
theorem encode_lt {c d : Char} (h : c < d) (xs ys : List UInt8) :
    String.utf8EncodeChar c ++ xs < String.utf8EncodeChar d ++ ys := by
  have hlt : c.val.toNat < d.val.toNat := h
  have hd := char_lt d
  simp only [String.utf8EncodeChar]
  generalize c.val.toNat = v at hlt
  generalize d.val.toNat = w at hlt hd
  -- the bytes are digits to the base of 64
  have hv : v / 4096 = v / 64 / 64 ∧ v / 262144 = v / 64 / 64 / 64 := by omega
  have hw : w / 4096 = w / 64 / 64 ∧ w / 262144 = w / 64 / 64 / 64 := by omega
  -- one case for each pair of lengths; a longer encoding begins with a greater byte
  split_ifs <;> try omega
  all_goals
    simp (disch := omega) only [List.cons_append, List.nil_append, List.cons_lt_cons_iff,
      UInt8.lt_iff_toNat_lt, ← UInt8.toNat_inj, UInt8.toNat_ofNat', Nat.mod_eq_of_lt, hv, hw]
    omega

/-- Lists of characters are ordered as what they are encoded to. -/
theorem flatMap_encode_lt {cs ds : List Char} (h : cs < ds) :
    cs.flatMap String.utf8EncodeChar < ds.flatMap String.utf8EncodeChar := by
  induction h with
  | @nil d ds =>
    rw [List.flatMap_nil, List.flatMap_cons]
    cases hd : String.utf8EncodeChar d with
    | nil => exact absurd hd String.utf8EncodeChar_ne_nil
    | cons b bs => exact List.Lex.nil
  | @rel c cs d ds h => exact encode_lt h _ _
  | cons _ ih => exact List.append_left_lt ih

/-- **Texts are ordered as their bytes are.** -/
theorem lt_iff_bytes {s t : String} : s < t ↔ bytes s < bytes t := by
  have forward : ∀ {s t : String}, s < t → bytes s < bytes t := fun {s t} h => by
    rw [bytes_eq, bytes_eq]
    exact flatMap_encode_lt h
  refine ⟨forward, fun h => ?_⟩
  rcases Std.lt_trichotomy s t with hlt | rfl | hgt
  · exact hlt
  · exact absurd h (List.lt_irrefl _)
  · exact absurd h (List.lt_asymm (forward hgt))

theorem compare_eq_lt_iff {s t : String} : Ord.compare s t = .lt ↔ bytes s < bytes t :=
  compareOfLessAndEq_eq_lt.trans lt_iff_bytes

end Text

/-! ## The rules -/

/-- **Literals in order**: by text, and of one text the one without a datatype first. -/
inductive Literal.Precedes : Literal → Literal → Prop
  | text {a b : Literal} (h : Text.bytes a.lexical < Text.bytes b.lexical) : Precedes a b
  | untyped {x : String} {d : Iri} : Precedes ⟨x, none⟩ ⟨x, some d⟩
  | datatype {x : String} {d e : Iri} (h : Text.bytes d < Text.bytes e) :
    Precedes ⟨x, some d⟩ ⟨x, some e⟩

/-- **Terms in order**: IRIs by text, then blank nodes by number, then literals. -/
inductive Term.Precedes : Term → Term → Prop
  | iri {i j : Iri} (h : Text.bytes i < Text.bytes j) : Precedes (.iri i) (.iri j)
  | iri_blank {i : Iri} {n : Nat} : Precedes (.iri i) (.blank n)
  | iri_literal {i : Iri} {l : Literal} : Precedes (.iri i) (.literal l)
  | blank {m n : Nat} (h : m < n) : Precedes (.blank m) (.blank n)
  | blank_literal {n : Nat} {l : Literal} : Precedes (.blank n) (.literal l)
  | literal {l m : Literal} (h : l.Precedes m) : Precedes (.literal l) (.literal m)

/-- **Triples in order**: by subject, then by predicate, then by object. -/
inductive Triple.Precedes : Triple → Triple → Prop
  | subject {a b : Triple} (h : a.subject.Precedes b.subject) : Precedes a b
  | predicate {s o o' : Term} {p q : Iri} (h : Text.bytes p < Text.bytes q) :
    Precedes ⟨s, p, o⟩ ⟨s, q, o'⟩
  | object {s o o' : Term} {p : Iri} (h : o.Precedes o') : Precedes ⟨s, p, o⟩ ⟨s, p, o'⟩

theorem Literal.compare_eq_lt_iff {a b : Literal} : Ord.compare a b = .lt ↔ a.Precedes b := by
  have hcompare : Ord.compare a b =
      (Ord.compare a.lexical b.lexical).then (Ord.compare a.datatype b.datatype) := rfl
  rw [hcompare, Ordering.then_eq_lt, Text.compare_eq_lt_iff]
  constructor
  · rintro (h | ⟨htext, h⟩)
    · exact .text h
    · obtain ⟨x, d⟩ := a
      obtain ⟨y, e⟩ := b
      obtain rfl : x = y := Std.LawfulEqCmp.eq_of_compare htext
      cases d with
      | none =>
        cases e with
        | none => cases h
        | some e => exact .untyped
      | some d =>
        cases e with
        | none => cases h
        | some e => exact .datatype (Text.compare_eq_lt_iff.1 h)
  · rintro (h | _ | h)
    · exact .inl h
    · exact .inr ⟨Std.ReflCmp.compare_self, rfl⟩
    · exact .inr ⟨Std.ReflCmp.compare_self, Text.compare_eq_lt_iff.2 h⟩

theorem Term.compare_eq_lt_iff {a b : Term} : Ord.compare a b = .lt ↔ a.Precedes b := by
  constructor
  · intro h
    match a, b, h with
    | .iri _, .iri _, h => exact .iri (Text.compare_eq_lt_iff.1 h)
    | .iri _, .blank _, _ => exact .iri_blank
    | .iri _, .literal _, _ => exact .iri_literal
    | .blank _, .blank _, h => exact .blank (Nat.compare_eq_lt.1 h)
    | .blank _, .literal _, _ => exact .blank_literal
    | .literal _, .literal _, h => exact .literal (Literal.compare_eq_lt_iff.1 h)
  · intro h
    cases h with
    | iri h => exact Text.compare_eq_lt_iff.2 h
    | iri_blank => rfl
    | iri_literal => rfl
    | blank h => exact Nat.compare_eq_lt.2 h
    | blank_literal => rfl
    | literal h => exact Literal.compare_eq_lt_iff.2 h

/-- **The order of triples** is that of the rules. -/
theorem Triple.before_iff {a b : Triple} : a.Before b ↔ a.Precedes b := by
  have hcompare : Triple.compare a b = (Ord.compare a.subject b.subject).then
      ((Ord.compare a.predicate b.predicate).then (Ord.compare a.object b.object)) := rfl
  rw [Before, hcompare, Ordering.then_eq_lt, Ordering.then_eq_lt, Term.compare_eq_lt_iff,
    Term.compare_eq_lt_iff, Text.compare_eq_lt_iff]
  constructor
  · obtain ⟨s, p, o⟩ := a
    obtain ⟨s', p', o'⟩ := b
    rintro (h | ⟨hsubject, h⟩)
    · exact .subject h
    · obtain rfl : s = s' := Std.LawfulEqCmp.eq_of_compare hsubject
      rcases h with h | ⟨hpredicate, h⟩
      · exact .predicate h
      · obtain rfl : p = p' := Std.LawfulEqCmp.eq_of_compare hpredicate
        exact .object h
  · rintro (h | h | h)
    · exact .inl h
    · exact .inr ⟨Std.ReflCmp.compare_self, .inl h⟩
    · exact .inr ⟨Std.ReflCmp.compare_self, .inr ⟨Std.ReflCmp.compare_self, h⟩⟩

/-- **The rules put any two triples in order.** -/
theorem Triple.precedes_strictTotalOrder : IsStrictTotalOrder Triple Triple.Precedes where
  irrefl a h := a.not_before_self (before_iff.2 h)
  trans a b c h k := before_iff.1
    (show Ord.compare a c = .lt from Std.TransCmp.lt_trans (before_iff.2 h) (before_iff.2 k))
  trichotomous a b h k := by
    cases hc : Ord.compare a b with
    | lt => exact absurd (before_iff.1 hc) h
    | eq => exact Std.LawfulEqCmp.eq_of_compare hc
    | gt =>
      have hb : Ord.compare b a = .lt := Std.OrientedCmp.lt_of_gt hc
      exact absurd (before_iff.1 hb) k

end SchemaShapes
