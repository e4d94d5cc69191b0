import SchemaShapes.Proofs.Compile.Faults
import SchemaShapes.Proofs.Compile.Nodes
import SchemaShapes.Proofs.Shape.Names

/-!
# Schemas with more declarations

Names bind to the first declaration, and blank nodes are numbered from the first class on. So
declarations behind those of a schema that compiles change nothing of its graph: they may add to it,
or be at fault themselves.

* `Schema.extended`: a schema with more declarations.
* `Schema.keepsNames_extended`: names that stand for something keep their meaning.
* `Schema.compile_extended`: the graph is kept, or an added class has a fault.
-/

namespace SchemaShapes.Schema

/-- **A schema with more declarations** behind its own. -/
def extended (schema : Schema) (classes : List ClassDecl) (enums : List EnumDecl)
    (types : List TypeDecl) : Schema :=
  ⟨schema.name, schema.id, schema.classes ++ classes, schema.enums ++ enums, schema.types ++ types⟩

variable {schema : Schema} {classes : List ClassDecl} {enums : List EnumDecl}
  {types : List TypeDecl} {options : Options}

/-! ## Names -/

/-- **A chain of types** that ends keeps its end: all types on the way are found as before. -/
theorem primitive?_extended {steps : Nat} {name : String} {p : Primitive}
    (h : schema.primitive? steps name = some p) :
    (schema.extended classes enums types).primitive? steps name = some p := by
  induction steps generalizing name with
  | zero => cases h
  | succ steps ih =>
    rw [primitive?] at h ⊢
    cases hbuilt : Primitive.ofName? name with
    | some q => simpa only [hbuilt] using h
    | none =>
      simp only [hbuilt] at h ⊢
      cases hfind : schema.findType? name with
      | none => simp [hfind] at h
      | some decl =>
        have hfound : (schema.extended classes enums types).findType? name = some decl :=
          (List.prefix_append _ _).find?_eq_some hfind
        simp only [hfind, hfound] at h ⊢
        -- a parent is followed, and a type without one ends the chain in both schemas
        cases hparent : decl.parent with
        | some parent =>
          simp only [hparent] at h ⊢
          exact ih h
        | none =>
          cases hdatatype : decl.datatype with
          | none => simp [hparent, hdatatype] at h
          | some iri => simpa only [hparent, hdatatype] using h

/-- **Names keep their meaning** when declarations are added behind. -/
theorem keepsNames_extended (schema : Schema) (classes : List ClassDecl) (enums : List EnumDecl)
    (types : List TypeDecl) : schema.KeepsNames (schema.extended classes enums types) where
  typeOf := fun _ _ h => typeOf_eq_ok.2 (primitive?_extended (typeOf_eq_ok.1 h))
  classOf := fun _ _ h => by
    obtain ⟨decl, hfind, hiri⟩ := classOf_eq_ok.1 h
    exact classOf_eq_ok.2 ⟨decl, (List.prefix_append _ _).find?_eq_some hfind, hiri⟩
  valuesOf := fun _ _ h => by
    obtain ⟨decl, hfind, hvalues⟩ := valuesOf_eq_ok.1 h
    exact valuesOf_eq_ok.2 ⟨decl, (List.prefix_append _ _).find?_eq_some hfind, hvalues⟩

/-! ## Graphs -/

/-- The node shapes of the classes that were there are built as before. -/
theorem nodeShapes_extended {shapes : List Fragment}
    (hs : (schema.nodeShapes options).outcome = .ok shapes) :
    Run.traverse ((schema.extended classes enums types).nodeShape options) schema.classes 0 =
      schema.nodeShapes options :=
  Run.traverse_eq_of_ok
    (fun _ _ _ hf => (schema.keepsNames_extended classes enums types).nodeShape hf) hs

/-- The classes that were there have no fault. -/
theorem classFault?_extended {g : Graph} (h : schema.compile options = .ok g) :
    schema.classes.findSome? (schema.extended classes enums types).classFault? = none := by
  obtain ⟨shapes, hs, -, -⟩ := compile_ok h
  have hfault := Run.faultOf_traverse
    ((schema.extended classes enums types).faultOf_nodeShape options) schema.classes 0
  rw [nodeShapes_extended hs, hs, faultOf_ok] at hfault
  exact hfault.symm

/-- The graph of a schema is part of every graph that it has with more declarations. -/
theorem mem_extended {g g' : Graph} (h : schema.compile options = .ok g)
    (h' : (schema.extended classes enums types).compile options = .ok g') {t : Triple}
    (ht : t ∈ g) : t ∈ g' := by
  obtain ⟨shapes, hs, rfl, -⟩ := compile_ok h
  obtain ⟨all, hall, rfl, -⟩ := compile_ok h'
  -- the shapes that were there come first, and those of the added classes behind them
  obtain ⟨before, added, hbefore, -, rfl⟩ := Run.traverse_append_ok.1 hall
  rw [nodeShapes_extended hs, hs, Except.ok.injEq] at hbefore
  rw [Graph.mem_ofList] at ht ⊢
  rw [List.flatMap_append, ← hbefore]
  exact List.mem_append_left _ ht

/-- A fault that declarations bring is that of an added class. -/
theorem exists_class_of_error {g : Graph} (h : schema.compile options = .ok g)
    {fault : CompileFault}
    (h' : (schema.extended classes enums types).compile options = .error fault) :
    ∃ decl ∈ classes, fault.className = decl.name := by
  have hfirst := (schema.extended classes enums types).faultOf_compile options
  rw [h', faultOf_error, extended, List.findSome?_append, ← extended,
    classFault?_extended h, Option.none_or] at hfirst
  obtain ⟨decl, hdecl, hfault⟩ := List.exists_of_findSome?_eq_some hfirst.symm
  obtain ⟨slot, -, hslot⟩ := List.exists_of_findSome?_eq_some hfault
  exact ⟨decl, hdecl, (slotFault?_eq_some.1 hslot).2.1⟩

/-- **Extending a schema is conservative.** A schema that compiles, with more declarations behind
its own, compiles to a graph that holds all of its triples, or an added class has the fault; and
without added classes the graph is the same. -/
theorem compile_extended {g : Graph} (h : schema.compile options = .ok g)
    (classes : List ClassDecl) (enums : List EnumDecl) (types : List TypeDecl) :
    ((∃ g', (schema.extended classes enums types).compile options = .ok g' ∧ ∀ t ∈ g, t ∈ g') ∨
      ∃ fault, (schema.extended classes enums types).compile options = .error fault ∧
        ∃ decl ∈ classes, fault.className = decl.name) ∧
    (classes = [] → (schema.extended classes enums types).compile options = .ok g) := by
  constructor
  · cases h' : (schema.extended classes enums types).compile options with
    | ok g' => exact Or.inl ⟨g', rfl, fun t ht => mem_extended h h' ht⟩
    | error fault => exact Or.inr ⟨fault, rfl, exists_class_of_error h h'⟩
  · rintro rfl
    obtain ⟨shapes, hs, rfl, -⟩ := compile_ok h
    have hclasses : (schema.extended [] enums types).classes = schema.classes :=
      List.append_nil schema.classes
    have hall : ((schema.extended [] enums types).nodeShapes options).outcome = .ok shapes := by
      rw [nodeShapes, hclasses, nodeShapes_extended hs]
      exact hs
    exact compile_of_ok hall

/-- A class that repeats the name of one before it. -/
def impostor : ClassDecl where
  name := "Person"
  iri := "urn:Impostor"
  description := none
  closed := none
  slots := [{ Slot.bare "status" "urn:status" with range := some (.only (.toEnum "Status")) }]

theorem compile_extended_sample : ∃ g g', sample.compile .standard = .ok g ∧
    (sample.extended [impostor] [⟨"Status", []⟩] [⟨"age", none, none⟩]).compile .standard =
      .ok g' ∧ (∀ t ∈ g, t ∈ g') ∧
    (sample.extended [] [⟨"Status", []⟩] [⟨"age", none, none⟩]).compile .standard = .ok g := by
  obtain ⟨g, h⟩ : ∃ g, sample.compile .standard = .ok g := ⟨_, rfl⟩
  obtain ⟨g', h'⟩ : ∃ g', (sample.extended [impostor] [⟨"Status", []⟩]
    [⟨"age", none, none⟩]).compile .standard = .ok g' := ⟨_, rfl⟩
  obtain ⟨hadded, -⟩ := compile_extended h [impostor] [⟨"Status", []⟩] [⟨"age", none, none⟩]
  obtain ⟨-, hsame⟩ := compile_extended h [] [⟨"Status", []⟩] [⟨"age", none, none⟩]
  rcases hadded with ⟨found, hfound, hkept⟩ | ⟨fault, hfault, -⟩
  · rw [h', Except.ok.injEq] at hfound
    exact ⟨g, g', h, h', hfound ▸ hkept, hsame rfl⟩
  · rw [h'] at hfault
    cases hfault

end SchemaShapes.Schema
