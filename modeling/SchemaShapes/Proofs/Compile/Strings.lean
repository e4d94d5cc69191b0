import Mathlib.Data.Set.Function
import SchemaShapes.Proofs.Compile.Origin
import SchemaShapes.Proofs.Compile.Ownership
import SchemaShapes.Proofs.Rdf.Distinct

/-!
# Texts without a datatype

RDF does not tell a text without a datatype from the same text typed `xsd:string`, but the terms of
a graph do. A graph of shapes still says nothing twice: a literal with a datatype is the flag of a
class, or it belongs to the node of a slot, which has one object for each predicate.

* `Triple.asString`: a triple as RDF reads it.
* `Schema.typed_cases`: where literals with a datatype are.
* `Schema.compile_strings`: no two triples of a graph are read as the same.
-/

namespace SchemaShapes

/-- **A literal as RDF reads it**: a text without a datatype is an `xsd:string`. -/
def Literal.asString (l : Literal) : Literal :=
  match l.datatype with
  | none => ⟨l.lexical, some Xsd.string⟩
  | some _ => l

/-- A term as RDF reads it. -/
def Term.asString : Term → Term
  | .literal l => .literal l.asString
  | t => t

/-- **A triple as RDF reads it.** -/
def Triple.asString (t : Triple) : Triple := ⟨t.subject.asString, t.predicate, t.object.asString⟩

/-- Literals that are read as the same are the same, or one has the datatype that the other
lacks. -/
theorem Literal.eq_or_of_asString_eq {a b : Literal} (h : a.asString = b.asString) :
    a = b ∨ (a.datatype = none ∧ b.datatype = some Xsd.string) ∨
      (a.datatype = some Xsd.string ∧ b.datatype = none) := by
  obtain ⟨s, d⟩ := a
  obtain ⟨s', d'⟩ := b
  cases d <;> cases d' <;> simp_all [asString]

theorem Term.eq_or_of_asString_eq {a b : Term} (h : a.asString = b.asString) :
    a = b ∨ ∃ l m : Literal, a = .literal l ∧ b = .literal m ∧
      (l.datatype = some Xsd.string ∨ m.datatype = some Xsd.string) := by
  cases a with
  | iri i => cases b <;> simp_all [asString]
  | blank n => cases b <;> simp_all [asString]
  | literal l =>
    cases b with
    | iri i => cases h
    | blank n => cases h
    | literal m =>
      rcases Literal.eq_or_of_asString_eq (Term.literal.inj h) with rfl | ⟨-, hm⟩ | ⟨hl, -⟩
      · exact Or.inl rfl
      · exact Or.inr ⟨l, m, rfl, rfl, Or.inr hm⟩
      · exact Or.inr ⟨l, m, rfl, rfl, Or.inl hl⟩

theorem Term.asString_of_not_literal {t : Term} (h : ∀ l, t ≠ .literal l) : t.asString = t := by
  cases t with
  | iri i => rfl
  | blank n => rfl
  | literal l => exact absurd rfl (h l)

/-- The only literal with a datatype at the shape of a class is its flag. -/
theorem ClassDecl.boolean_of_mem_meaning {options : Options} {decl : ClassDecl} {cell : Nat}
    {p d : Iri} {s : String} (h : (p, .literal ⟨s, some d⟩) ∈ decl.Meaning options cell) :
    d = Xsd.boolean := by
  simp only [ClassDecl.Meaning, List.mem_append, List.mem_cons, Prod.mk.injEq, reduceCtorEq,
    and_false, List.not_mem_nil, or_false, false_or] at h
  rcases h with (⟨-, h⟩ | h) | h
  · cases h
    rfl
  · split at h <;> simp at h
  · split at h
    · cases decl.description <;> simp [optionalEdge] at h
    · cases h

namespace Schema

variable {schema : Schema} {options : Options} {g : Graph}

/-- **Where literals with a datatype are**: truth values at shapes, and others at the nodes of
slots. -/
theorem typed_cases (h : schema.compile options = .ok g) {s : Term} {p d : Iri} {text : String}
    (ht : (⟨s, p, .literal ⟨text, some d⟩⟩ : Triple) ∈ g) :
    d = Xsd.boolean ∨ ∃ i j decl slot, schema.SlotAt i j decl slot ∧
      s = .blank (schema.propertyNode options i j) := by
  cases compile_origin h ht with
  | shape _ he => exact Or.inl (ClassDecl.boolean_of_mem_meaning he)
  | slot hs _ _ => exact Or.inr ⟨_, _, _, _, hs, rfl⟩
  | ignored ho => simp [ignoredProperties] at ho
  | listed _ he => cases untyped_of_mem_rangeReadings he
  | link _ ho => rcases ho with ⟨n, hn⟩ | hnil <;> simp_all

/-- **A text typed `xsd:string` is the only object** of its subject and predicate. -/
theorem object_eq_of_string (h : schema.compile options = .ok g) {s : Term} {p : Iri} {o : Term}
    {l : Literal} (hl : l.datatype = some Xsd.string) (ht : (⟨s, p, .literal l⟩ : Triple) ∈ g)
    (hu : (⟨s, p, o⟩ : Triple) ∈ g) : o = .literal l := by
  obtain ⟨text, d⟩ := l
  obtain rfl : d = some Xsd.string := hl
  rcases typed_cases h ht with hbool | ⟨i, j, decl, slot, hs, rfl⟩
  · exact absurd hbool (by decide)
  · obtain ⟨edges, -, hnodup, hiff⟩ := mem_propertyNode h hs
    have heq := List.inj_on_of_nodup_map hnodup ((hiff _ _).1 hu) ((hiff _ _).1 ht) rfl
    exact (Prod.mk.inj heq).2

/-- **Reading texts as `xsd:string` merges nothing.** No two triples of a graph are read as the
same, and so there are as many as before. -/
theorem compile_strings (h : schema.compile options = .ok g) :
    Set.InjOn Triple.asString {t | t ∈ g} ∧
      (Graph.ofList (g.toList.map Triple.asString)).size = g.size := by
  have hinj : Set.InjOn Triple.asString {t | t ∈ g} := by
    rintro ⟨s, p, o⟩ ht ⟨s', p', o'⟩ hu heq
    obtain ⟨hs, rfl, ho⟩ := Triple.mk.inj heq
    have hsubjects := (compile_ownership h).subjects
    rw [Term.asString_of_not_literal (hsubjects _ ht),
      Term.asString_of_not_literal (hsubjects _ hu)] at hs
    obtain rfl : s = s' := hs
    rcases Term.eq_or_of_asString_eq ho with hsame | ⟨l, m, hl, hm, hstring | hstring⟩
    · exact congrArg _ hsame
    -- otherwise one of them is an `xsd:string`, and the only object there
    · obtain rfl : o = .literal l := hl
      exact congrArg _ (object_eq_of_string h hstring ht hu).symm
    · obtain rfl : o' = .literal m := hm
      exact congrArg _ (object_eq_of_string h hstring hu ht)
  refine ⟨hinj, ?_⟩
  have hnodup : (g.toList.map Triple.asString).Nodup :=
    g.nodup_toList.map_on fun t ht u hu heq => hinj ht hu heq
  rw [Graph.size_ofList hnodup, List.length_map, Graph.size]

/-- A schema that writes one text wherever it can, with a datatype and without. -/
def repetitive : Schema where
  name := "x"
  id := "urn:x"
  classes :=
    [{ name := "x", iri := "urn:x", description := some "x", closed := some false,
       slots :=
        [{ Slot.bare "x" "urn:x" with
            range := some (.only (.toType "string")), default := some (.text "x")
            description := some "x", pattern := some "x", minimum := some (.text "x") }] },
     { name := "y", iri := "urn:x", description := some "x", closed := some false,
       slots := [{ Slot.bare "x" "urn:x" with range := some (.only (.toEnum "x")) }] }]
  enums := [⟨"x", [⟨"x", none⟩, ⟨"x", none⟩]⟩]
  types := []

theorem compile_strings_sample : ∃ g, repetitive.compile .standard = .ok g ∧
    (⟨.blank 0, Sh.name, .literal ⟨"x", none⟩⟩ : Triple) ∈ g ∧
    (⟨.blank 0, Sh.defaultValue, .literal ⟨"x", some Xsd.string⟩⟩ : Triple) ∈ g ∧
    Set.InjOn Triple.asString {t | t ∈ g} ∧
      (Graph.ofList (g.toList.map Triple.asString)).size = g.size := by
  obtain ⟨g, h⟩ : ∃ g, repetitive.compile .standard = .ok g := ⟨_, rfl⟩
  obtain ⟨shapes, hs, hg, -⟩ := compile_ok h
  cases hs
  refine ⟨g, h, ?_, ?_, compile_strings h⟩
  · rw [hg, Graph.mem_ofList]
    decide +kernel
  · rw [hg, Graph.mem_ofList]
    decide +kernel

end Schema

end SchemaShapes
