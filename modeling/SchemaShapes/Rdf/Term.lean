import SchemaShapes.Vocabulary

/-!
# Terms and triples

The terms of RDF, triples, and their order: subject before predicate before object, IRIs before
blank nodes before literals.

* `Triple.compare`: the order, a linear one.
-/

namespace SchemaShapes

/-- **A literal**: its text, and its datatype if it has one. -/
structure Literal where
  lexical : String
  datatype : Option Iri
deriving DecidableEq, Hashable

namespace Literal

/-- A literal without a datatype. -/
def untyped (lexical : String) : Literal := ⟨lexical, none⟩

/-- The `xsd:boolean` of a truth value. -/
def boolean (value : Bool) : Literal := ⟨if value then "true" else "false", some Xsd.boolean⟩

/-- The `xsd:integer` of a number. -/
def integer (value : Nat) : Literal := ⟨toString value, some Xsd.integer⟩

/-- By text, and without a datatype before with one. -/
def compare : Literal → Literal → Ordering :=
  compareLex (compareOn Literal.lexical) (compareOn Literal.datatype)

end Literal

/-- **A term** of a triple. Blank nodes are numbered. -/
inductive Term where
  | iri (value : Iri)
  | blank (number : Nat)
  | literal (value : Literal)
deriving DecidableEq, Hashable

namespace Term

/-- The IRI of a term that is one. -/
def iri? : Term → Option Iri
  | .iri i => some i
  | _ => none

/-- The literal of a term that is one. -/
def literal? : Term → Option Literal
  | .literal l => some l
  | _ => none

/-- A term that is a blank node. -/
def isBlank : Term → Bool
  | .blank _ => true
  | _ => false

/-- The label of a blank node in every output. -/
def blankLabel (number : Nat) : String := "_:b" ++ toString number

/-- IRIs before blank nodes before literals. -/
def compare : Term → Term → Ordering
  | .iri a, .iri b => Ord.compare a b
  | .iri _, _ => .lt
  | .blank _, .iri _ => .gt
  | .blank a, .blank b => Ord.compare a b
  | .blank _, .literal _ => .lt
  | .literal a, .literal b => Literal.compare a b
  | .literal _, _ => .gt

end Term

/-- **A triple.** -/
structure Triple where
  subject : Term
  predicate : Iri
  object : Term
deriving DecidableEq

instance : Ord Literal := ⟨Literal.compare⟩
instance : Ord Term := ⟨Term.compare⟩

/-- **The order of triples**: by subject, then predicate, then object. -/
def Triple.compare : Triple → Triple → Ordering :=
  compareLex (compareOn Triple.subject)
    (compareLex (compareOn Triple.predicate) (compareOn Triple.object))

instance : Ord Triple := ⟨Triple.compare⟩

/-! ## The order is linear -/

instance : Std.TransOrd Literal :=
  inferInstanceAs (Std.TransCmp
    (compareLex (compareOn Literal.lexical) (compareOn Literal.datatype)))

instance : Std.LawfulEqOrd Literal where
  eq_of_compare {a b} h := by
    obtain ⟨a1, a2⟩ := a
    obtain ⟨b1, b2⟩ := b
    have h' := Ordering.then_eq_eq.1 h
    simp only [compareOn] at h'
    rw [Std.LawfulEqCmp.eq_of_compare h'.1, Std.LawfulEqCmp.eq_of_compare h'.2]

theorem Term.compare_swap : ∀ a b : Term, Term.compare a b = (Term.compare b a).swap
  | .iri a, .iri b => (Std.OrientedCmp.eq_swap : Ord.compare a b = _)
  | .blank a, .blank b => (Std.OrientedCmp.eq_swap : Ord.compare a b = _)
  | .literal a, .literal b => (Std.OrientedCmp.eq_swap : Ord.compare a b = _)
  | .iri _, .blank _ => rfl
  | .iri _, .literal _ => rfl
  | .blank _, .iri _ => rfl
  | .blank _, .literal _ => rfl
  | .literal _, .iri _ => rfl
  | .literal _, .blank _ => rfl

theorem Term.compare_isLE_trans : ∀ a b c : Term,
    (Term.compare a b).isLE = true → (Term.compare b c).isLE = true →
      (Term.compare a c).isLE = true
  | .iri a, .iri b, .iri c, h, k =>
    show (Ord.compare a c).isLE = true from Std.TransCmp.isLE_trans (b := b) h k
  | .blank a, .blank b, .blank c, h, k =>
    show (Ord.compare a c).isLE = true from Std.TransCmp.isLE_trans (b := b) h k
  | .literal a, .literal b, .literal c, h, k =>
    show (Ord.compare a c).isLE = true from Std.TransCmp.isLE_trans (b := b) h k
  | .iri _, _, .blank _, _, _ => rfl
  | .iri _, _, .literal _, _, _ => rfl
  | .blank _, _, .literal _, _, _ => rfl
  | _, .blank _, .iri _, _, k => by cases k
  | _, .literal _, .iri _, _, k => by cases k
  | _, .literal _, .blank _, _, k => by cases k
  | .blank _, .iri _, _, h, _ => by cases h
  | .literal _, .iri _, _, h, _ => by cases h
  | .literal _, .blank _, _, h, _ => by cases h

theorem Term.compare_self : ∀ a : Term, Term.compare a a = .eq
  | .iri a => (Std.ReflCmp.compare_self : Ord.compare a a = _)
  | .blank a => (Std.ReflCmp.compare_self : Ord.compare a a = _)
  | .literal a => (Std.ReflCmp.compare_self : Ord.compare a a = _)

theorem Term.eq_of_compare : ∀ a b : Term, Term.compare a b = .eq → a = b
  | .iri a, .iri b, h =>
    congrArg _ (Std.LawfulEqCmp.eq_of_compare (show Ord.compare a b = .eq from h))
  | .blank a, .blank b, h =>
    congrArg _ (Std.LawfulEqCmp.eq_of_compare (show Ord.compare a b = .eq from h))
  | .literal a, .literal b, h =>
    congrArg _ (Std.LawfulEqCmp.eq_of_compare (show Ord.compare a b = .eq from h))
  | .iri _, .blank _, h => by cases h
  | .iri _, .literal _, h => by cases h
  | .blank _, .iri _, h => by cases h
  | .blank _, .literal _, h => by cases h
  | .literal _, .iri _, h => by cases h
  | .literal _, .blank _, h => by cases h

instance : Std.TransOrd Term where
  eq_swap := Term.compare_swap _ _
  isLE_trans := Term.compare_isLE_trans _ _ _

instance : Std.LawfulEqOrd Term where
  compare_self := Term.compare_self _
  eq_of_compare := Term.eq_of_compare _ _

instance : Std.TransOrd Triple :=
  inferInstanceAs (Std.TransCmp (compareLex (compareOn Triple.subject)
    (compareLex (compareOn Triple.predicate) (compareOn Triple.object))))

instance : Std.LawfulEqOrd Triple where
  eq_of_compare {a b} h := by
    obtain ⟨a1, a2, a3⟩ := a
    obtain ⟨b1, b2, b3⟩ := b
    have h' := Ordering.then_eq_eq.1 h
    have h'' := Ordering.then_eq_eq.1 h'.2
    simp only [compareOn] at h' h''
    rw [Std.LawfulEqCmp.eq_of_compare h'.1, Std.LawfulEqCmp.eq_of_compare h''.1,
      Std.LawfulEqCmp.eq_of_compare h''.2]

end SchemaShapes
