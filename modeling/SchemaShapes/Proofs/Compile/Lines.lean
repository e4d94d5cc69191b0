import SchemaShapes.Proofs.Compile.Iris
import SchemaShapes.Proofs.Output.Lines

/-!
# The lines of a graph of shapes

The texts of a schema are escaped where they are literals, and stand as they are where they are
IRIs. So the document of a graph has a triple in each line exactly if the IRIs that the schema
writes may stand between brackets.

* `Schema.proper_of_compile`: the vocabulary needs no escape.
* `Schema.compile_lines`: the schemas whose documents have a triple in each line.
* `Schema.forged_lines`: a value whose meaning ends its own triple and adds another.
-/

namespace SchemaShapes.Schema

open Output.NTriples

variable {schema : Schema} {options : Options} {g : Graph}

theorem proper_of_compile (h : schema.compile options = .ok g) : Proper g where
  subject := (compile_ownership h).subjects
  predicate := fun t ht => (vocabulary_predicate h ht).plainIri
  datatype := by
    rintro ⟨s, p, o⟩ ht l rfl d hd
    cases object_of_mem h ht with
    | literal hl => exact (hl d hd).plainIri
  anchor := by
    rintro ⟨s, p, o⟩ ht i rfl
    exact ⟨Rdf.type, Sh.nodeShape, (vocabulary_shapes _ (by simp)).plainIri,
      (subject_of_mem h ht).2⟩

/-- **A triple in each line.** The document of a graph has as many lines as the graph has triples,
each of them a triple of the grammar, exactly if every IRI that the schema writes may stand between
brackets. If none of them needs an escape, then the lines read as the triples of the graph. -/
theorem compile_lines (h : schema.compile options = .ok g) :
    ((∃ ls, lines? (render g).toList = some ls ∧ ls.length = g.size ∧ ∀ l ∈ ls, IsTriple l) ↔
      ∀ x ∈ schema.iris options, Enclosable x) ∧
    ((∀ x ∈ schema.iris options, Output.PlainIri x) →
      ∃ ls, lines? (render g).toList = some ls ∧ ls.mapM triple? = some g.toList) := by
  refine ⟨?_, fun hplain => ?_⟩
  · rw [lines_iff (proper_of_compile h)]
    exact forall_iris_iff h fun x hx => PlainIri.enclosable hx.plainIri
  · have hwritable : g.Writable := fun t ht =>
      ⟨(compile_ownership h).subjects t ht,
        (forall_iris_iff h fun x hx => hx.plainIri).2 hplain t ht⟩
    have hsame : ∀ t ∈ g.toList, (triple? ∘ body) t = some t :=
      fun t ht => triple?_body (hwritable t ht)
    refine ⟨g.toList.map body, ?_, ?_⟩
    · rw [toList_render]
      exact lines?_flatMap fun t ht => newline_not_mem_body (hwritable t ht)
    · rw [List.mapM_map, mapM_eq_some hsame, List.map_id']

theorem compile_lines_sample : ∃ g, sample.compile .standard = .ok g ∧
    (∀ x ∈ sample.iris .standard, Output.PlainIri x) ∧
    (∃ ls, lines? (render g).toList = some ls ∧ ls.length = g.size ∧ ∀ l ∈ ls, IsTriple l) ∧
    ∃ ls, lines? (render g).toList = some ls ∧ ls.mapM triple? = some g.toList := by
  obtain ⟨g, h⟩ : ∃ g, sample.compile .standard = .ok g := ⟨_, rfl⟩
  have hplain : ∀ x ∈ sample.iris .standard, Output.PlainIri x := by decide +kernel
  obtain ⟨hvalid, hread⟩ := compile_lines h
  exact ⟨g, h, hplain, hvalid.2 fun x hx => PlainIri.enclosable (hplain x hx), hread hplain⟩

/-- A schema with a value whose meaning holds the end of a triple, and most of another. -/
def forged : Schema where
  name := "forged"
  id := "urn:forged"
  classes :=
    [{ name := "Person", iri := "urn:Person", description := none, closed := some false,
       slots :=
        [{ Slot.bare "state" "urn:state" with range := some (.only (.toEnum "State")) }] }]
  enums := [⟨"State", [⟨"active", some "urn:a> .\n<urn:x> <urn:p> <urn:o"⟩]⟩]
  types := []

/-- The triple of the value takes two lines. -/
theorem forged_lines : ∃ g, forged.compile .standard = .ok g ∧
    ¬ ∃ ls, lines? (render g).toList = some ls ∧ ls.length = g.size ∧ ∀ l ∈ ls, IsTriple l := by
  obtain ⟨g, h⟩ : ∃ g, forged.compile .standard = .ok g := ⟨_, rfl⟩
  obtain ⟨shapes, hs, hg, -⟩ := compile_ok h
  cases hs
  refine ⟨g, h, ?_⟩
  rintro ⟨ls, hread, hlength, hall⟩
  obtain rfl := lines_eq_map_body hread hlength
  have hmem : (⟨.blank 1, Rdf.first, .iri "urn:a> .\n<urn:x> <urn:p> <urn:o"⟩ : Triple) ∈ g := by
    rw [hg, Graph.mem_ofList]
    decide +kernel
  have hline := (hall _ (List.mem_map_of_mem hmem)).newline_not_mem
  simp [body, Output.NTriples.term] at hline

end SchemaShapes.Schema
