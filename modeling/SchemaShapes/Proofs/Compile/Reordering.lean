import Mathlib.Data.List.Forall2
import SchemaShapes.Proofs.Shape.Names
import SchemaShapes.Proofs.Shape.Placement

/-!
# Declarations in another order

The order in which classes are declared has no meaning if their names differ, and neither has the
order of slots as long as it is not written: such a schema compiles if the other one does, and its
graph is the same but for the numbers of blank nodes.

* `Schema.Rearranged`: a schema with its declarations in another order.
* `Schema.Rearranged.sameNames`: names stand for the same.
* `Schema.alike_nodeShape`: node shapes whose slots are in another order are alike.
* `Schema.compile_rearranged`: the graphs are renamings of each other.
-/

namespace SchemaShapes

/-! ## Rearranged schemas -/

/-- **A class with its slots in another order**, or in the same if the order of slots is written. -/
structure ClassDecl.Rearranged (options : Options) (decl other : ClassDecl) : Prop where
  name : other.name = decl.name
  iri : other.iri = decl.iri
  description : other.description = decl.description
  closed : other.closed = decl.closed
  slots : decl.slots.Perm other.slots
  order : options.metadata = true → other.slots = decl.slots

/-- **A schema with its declarations in another order.** -/
structure Schema.Rearranged (options : Options) (schema other : Schema) : Prop where
  name : other.name = schema.name
  id : other.id = schema.id
  enums : other.enums = schema.enums
  types : other.types = schema.types
  classes : ∃ middle, schema.classes.Perm middle ∧
    List.Forall₂ (ClassDecl.Rearranged options) middle other.classes

variable {options : Options}

namespace ClassDecl.Rearranged

variable {decl other : ClassDecl} (h : decl.Rearranged options other)

include h

theorem symm : other.Rearranged options decl :=
  ⟨h.name.symm, h.iri.symm, h.description.symm, h.closed.symm, h.slots.symm,
    fun hm => (h.order hm).symm⟩

/-- A class whose slots keep their order is the same class. -/
theorem eq_of_metadata (hm : options.metadata = true) : other = decl := by
  obtain ⟨hname, hiri, hdescription, hclosed, -, horder⟩ := h
  have hslots := horder hm
  cases decl
  cases other
  simp_all

theorem closes : options.closes other = options.closes decl := by
  rw [Options.closes, Options.closes, h.closed]

theorem shapeIri : options.shapeIri other = options.shapeIri decl := by
  rw [Options.shapeIri, Options.shapeIri, h.iri]

theorem taken : other.taken options = decl.taken options := by
  rw [ClassDecl.taken, ClassDecl.taken, h.closes]

/-- What a shape says besides its properties does not depend on the slots. -/
theorem shapeEdges (next : Nat) : other.shapeEdges options next = decl.shapeEdges options next := by
  rw [ClassDecl.shapeEdges, ClassDecl.shapeEdges, h.closes, h.iri, h.description]

end ClassDecl.Rearranged

namespace Schema

namespace Rearranged

variable {schema other : Schema}

theorem symm (h : schema.Rearranged options other) : other.Rearranged options schema := by
  obtain ⟨middle, hperm, hclasses⟩ := h.classes
  have hback : List.Forall₂ (ClassDecl.Rearranged options) other.classes middle :=
    (hclasses.imp fun _ _ hd => hd.symm).flip
  have hmoved := List.forall₂_comp_perm_eq_perm_comp_forall₂ (r := ClassDecl.Rearranged options)
  obtain ⟨middle', hperm', hback'⟩ :
      Relation.Comp List.Perm (List.Forall₂ (ClassDecl.Rearranged options)) other.classes
        schema.classes := by
    rw [← hmoved]
    exact ⟨middle, hback, hperm.symm⟩
  exact ⟨h.name.symm, h.id.symm, h.enums.symm, h.types.symm, middle', hperm', hback'⟩

/-- Every class is there in the other order. -/
theorem exists_class (h : schema.Rearranged options other) {decl : ClassDecl}
    (hd : decl ∈ schema.classes) : ∃ d ∈ other.classes, decl.Rearranged options d := by
  obtain ⟨middle, hperm, hclasses⟩ := h.classes
  obtain ⟨i, hi, rfl⟩ := List.getElem_of_mem (hperm.mem_iff.1 hd)
  obtain ⟨hlength, hrel⟩ := List.forall₂_iff_get.1 hclasses
  have hi' : i < other.classes.length := hlength ▸ hi
  exact ⟨other.classes[i], List.getElem_mem hi', hrel i hi hi'⟩

/-- The names of classes are the same, in another order. -/
theorem names_perm (h : schema.Rearranged options other) :
    (schema.classes.map (·.name)).Perm (other.classes.map (·.name)) := by
  obtain ⟨middle, hperm, hclasses⟩ := h.classes
  have hone : List.Forall₂ (fun a b => a.name = b.name) middle other.classes :=
    hclasses.imp fun _ _ hd => hd.name.symm
  have hsame : List.Forall₂ (· = ·) (middle.map (·.name)) (other.classes.map (·.name)) :=
    List.forall₂_map_left_iff.2 (List.forall₂_map_right_iff.2 hone)
  rw [List.forall₂_eq_eq_eq] at hsame
  exact hsame ▸ hperm.map _

end Rearranged

/-! ## What names stand for -/

/-- Among classes of different names, a name stands for the class that has it. -/
theorem findClass?_eq_some {schema : Schema} (hnames : (schema.classes.map (·.name)).Nodup)
    {decl : ClassDecl} (hd : decl ∈ schema.classes) : schema.findClass? decl.name = some decl :=
  find?_of_nodup hnames hd

section SameNames

variable {schema other : Schema}

/-- A name that is no class fails in one way only. -/
theorem classOf_eq_error {name : String} {fault : SlotFault}
    (h : schema.classOf name = .error fault) : fault = .malformedRange (.unknownClass name) := by
  rw [classOf] at h
  cases hf : schema.findClass? name with
  | none => simpa [hf] using h.symm
  | some decl => simp [hf] at h

theorem classOf_eq_of_ok (h : schema.Rearranged options other)
    (hnames : (other.classes.map (·.name)).Nodup) {name : String} {iri : Iri}
    (hi : schema.classOf name = .ok iri) : other.classOf name = .ok iri := by
  obtain ⟨decl, hfind, rfl⟩ := classOf_eq_ok.1 hi
  have hname : decl.name = name := by simpa using List.find?_some hfind
  obtain ⟨d, hd, hrel⟩ := h.exists_class (List.mem_of_find?_eq_some hfind)
  refine classOf_eq_ok.2 ⟨d, ?_, hrel.iri⟩
  rw [← hname, ← hrel.name]
  exact findClass?_eq_some hnames hd

/-- **Names stand for the same**, if the classes have different names. -/
theorem Rearranged.sameNames (h : schema.Rearranged options other)
    (hnames : (schema.classes.map (·.name)).Nodup) : schema.SameNames other := by
  have hnames' : (other.classes.map (·.name)).Nodup := h.names_perm.nodup_iff.1 hnames
  refine ⟨funext fun name => ?_, funext fun name => ?_, funext fun name => ?_⟩
  · rw [typeOf, typeOf, resolveType?, resolveType?, primitive?_eq_of_types h.types]
  · cases hc : schema.classOf name with
    | ok iri => exact classOf_eq_of_ok h hnames' hc
    | error fault =>
      cases hc' : other.classOf name with
      | ok iri =>
        rw [classOf_eq_of_ok h.symm hnames hc'] at hc
        cases hc
      | error fault' => rw [classOf_eq_error hc, classOf_eq_error hc']
  · rw [valuesOf, valuesOf, findEnum?, findEnum?, h.enums]

end SameNames

/-! ## Slots in another order -/

/-- The triples of a property of a node: an edge to its shape, and those of the shape. -/
def propertyTriples (node : Term) (f : Fragment) : List Triple :=
  ⟨node, Sh.property, f.node⟩ :: f.triples

theorem rename_propertyTriples (iri : Iri) (σ : Nat → Nat) (f : Fragment) :
    propertyTriples (.iri iri) (f.rename σ) =
      (propertyTriples (.iri iri) f).map (Triple.rename σ) := rfl

/-- What a node shape writes besides its properties comes first. -/
theorem triples_nodeEdges (options : Options) (decl : ClassDecl) (node : Term) (next : Nat)
    (properties : List Fragment) :
    (Fragment.describe node (decl.nodeEdges options next properties)).triples =
      (Fragment.describe node (decl.shapeEdges options next)).triples ++
        properties.flatMap (propertyTriples node) := by
  simp only [Fragment.describe, ClassDecl.nodeEdges, List.flatMap_append, List.flatMap_map]
  rfl

/-- The order of a slot is only told where it is written. -/
theorem propertyShape_order (schema : Schema) (hm : options.metadata = false) (decl : ClassDecl)
    (slot : Slot) (order next : Nat) :
    schema.propertyShape options decl slot order next =
      schema.propertyShape options decl slot 0 next := by
  simp [propertyShape, Slot.propertyEdges, hm]

/-- Only the name of a class is told of a slot. -/
theorem propertyShape_of_name (schema : Schema) {decl other : ClassDecl}
    (hname : other.name = decl.name) :
    schema.propertyShape options other = schema.propertyShape options decl := by
  funext slot order next
  simp [propertyShape, Slot.defaultEvents, hname]

/-- Where the order of slots is not written, their shapes are those of the slots alone. -/
theorem propertyShapes_eq (schema : Schema) (hm : options.metadata = false) (decl : ClassDecl) :
    schema.propertyShapes options decl =
      Run.traverse (fun s => schema.propertyShape options decl s 0) decl.slots := by
  funext next
  have horder : (fun (s : Slot × Nat) => schema.propertyShape options decl s.1 s.2) =
      fun s => schema.propertyShape options decl s.1 0 := by
    funext s next
    exact propertyShape_order schema hm decl s.1 s.2 next
  have hslots : decl.slots.zipIdx.map Prod.fst = decl.slots := List.zipIdx_map_fst 0 decl.slots
  conv_rhs => rw [← hslots]
  rw [Run.traverse_map, ← horder, propertyShapes]

/-- **The shapes of slots in another order** are alike. -/
theorem alike_propertyShapes (schema : Schema) (hm : options.metadata = false)
    {decl other : ClassDecl} (h : decl.Rearranged options other) (iri : Iri) :
    Run.Alike (List.flatMap (propertyTriples (.iri iri))) (schema.propertyShapes options decl)
      (schema.propertyShapes options other) := by
  rw [propertyShapes_eq schema hm, propertyShapes_eq schema hm, propertyShape_of_name schema h.name]
  have hmovable := fun s => schema.movable_propertyShape options decl s 0
  exact Run.alike_of_perm (rename_propertyTriples iri) h.slots fun s _ => hmovable s

/-- What a node shape writes besides its properties holds the numbers that it takes for itself. -/
theorem within_shapeEdges (options : Options) (decl : ClassDecl) (iri : Iri) (next : Nat) :
    Within next (next + decl.taken options)
      (Fragment.describe (.iri iri) (decl.shapeEdges options next)).triples := by
  intro σ hσ
  have hedges := rename_shapeEdges options decl (Moves.of_fixed hσ le_rfl)
  have hsame := Fragment.rename_describe (σ := σ) (.iri iri) (decl.shapeEdges options next)
  rw [hedges] at hsame
  exact congrArg Fragment.triples hsame

/-- **Node shapes of rearranged classes** are alike. -/
theorem alike_nodeShape (schema : Schema) {decl other : ClassDecl}
    (h : decl.Rearranged options other) :
    Run.Alike Fragment.triples (schema.nodeShape options decl)
      (schema.nodeShape options other) := by
  cases hm : options.metadata with
  | true =>
    -- the order of slots is written, so it is the same
    rw [h.eq_of_metadata hm]
    exact Run.Alike.refl _ _
  | false =>
    intro first f hf
    obtain ⟨properties, hp, rfl⟩ := nodeShape_ok hf
    obtain ⟨properties', hp', htaken, hrel⟩ :=
      alike_propertyShapes schema hm h (options.shapeIri decl) _ properties hp
    have hmovable := schema.movable_propertyShapes options
    have hwithin := (hmovable other).within hp'
      (Run.flatMap_rename (rename_propertyTriples (options.shapeIri decl)))
    rw [htaken] at hwithin
    -- the edges besides the properties are the same, and come first
    have hall := (Relabels.refl first _ _).append (Nat.le_add_right first _)
      ((hmovable decl).le_taken hp) hrel
      (within_shapeEdges options decl (options.shapeIri decl) first) hwithin
    have hbuilt : (schema.nodeShape options other first).outcome = .ok
        (.describe (.iri (options.shapeIri decl)) (decl.nodeEdges options first properties')) := by
      rw [← h.taken] at hp'
      refine map_eq_ok.2 ⟨properties', hp', ?_⟩
      rw [h.shapeIri, h.shapeEdges]
      rfl
    refine ⟨_, hbuilt, ?_, ?_⟩
    · rw [taken_nodeShape, taken_nodeShape, h.taken, htaken]
    · rw [taken_nodeShape, triples_nodeEdges, triples_nodeEdges]
      exact hall

/-! ## Schemas -/

variable {schema other : Schema}

/-- **The node shapes of a rearranged schema** are alike. -/
theorem alike_nodeShapes (h : schema.Rearranged options other)
    (hnames : (schema.classes.map (·.name)).Nodup) :
    Run.Alike (List.flatMap Fragment.triples)
      (Run.traverse (schema.nodeShape options) schema.classes)
      (Run.traverse (other.nodeShape options) other.classes) := by
  have hout : ∀ σ f, (Fragment.rename σ f).triples = f.triples.map (Triple.rename σ) :=
    fun σ f => rfl
  have hmovable := schema.movable_nodeShape options
  obtain ⟨middle, hperm, hclasses⟩ := h.classes
  have hone : List.Forall₂ (fun decl d => Run.Alike Fragment.triples (schema.nodeShape options decl)
      (schema.nodeShape options d)) middle other.classes :=
    hclasses.imp fun _ _ hd => alike_nodeShape schema hd
  rw [(h.sameNames hnames).nodeShape options]
  -- first the classes change places, then the slots in each of them
  exact (Run.alike_of_perm hout hperm fun decl _ => hmovable decl).trans
    (Run.alike_of_forall₂ hout (fun decl _ => hmovable decl) (fun decl _ => hmovable decl) hone)

/-- A schema that compiles does so rearranged, to a graph with its blank nodes renamed. -/
theorem exists_compile_rename (h : schema.Rearranged options other)
    (hnames : (schema.classes.map (·.name)).Nodup) {g : Graph}
    (hg : schema.compile options = .ok g) :
    ∃ (g' : Graph) (σ : Equiv.Perm Nat), other.compile options = .ok g' ∧ g' = g.rename σ := by
  obtain ⟨shapes, hs, rfl, -⟩ := compile_ok hg
  obtain ⟨shapes', hs', -, σ, -, hperm⟩ := alike_nodeShapes h hnames 0 shapes hs
  exact ⟨_, σ, compile_of_ok hs', Graph.ofList_eq_rename hperm⟩

/-- **The order of declarations has no meaning**: a schema whose classes have different names
compiles if and only if it does with its declarations in another order, and then the two graphs
differ by a renaming of blank nodes. -/
theorem compile_rearranged (hnames : (schema.classes.map (·.name)).Nodup)
    (h : schema.Rearranged options other) :
    ((∃ g, schema.compile options = .ok g) ↔ ∃ g, other.compile options = .ok g) ∧
    ∀ g g', schema.compile options = .ok g → other.compile options = .ok g' →
      ∃ σ : Equiv.Perm Nat, g' = g.rename σ := by
  have hnames' : (other.classes.map (·.name)).Nodup := h.names_perm.nodup_iff.1 hnames
  refine ⟨⟨?_, ?_⟩, ?_⟩
  · rintro ⟨g, hg⟩
    obtain ⟨g', -, hg', -⟩ := exists_compile_rename h hnames hg
    exact ⟨g', hg'⟩
  · rintro ⟨g, hg⟩
    obtain ⟨g', -, hg', -⟩ := exists_compile_rename h.symm hnames' hg
    exact ⟨g', hg'⟩
  · intro g g' hg hg'
    obtain ⟨g'', σ, hg'', hσ⟩ := exists_compile_rename h hnames hg
    rw [hg', Except.ok.injEq] at hg''
    exact ⟨σ, hg''.trans hσ⟩

/-- A slot with a range of several things. -/
def authorSlot : Slot :=
  { Slot.bare "author" "urn:author" with
    range := some (.anyOf [.toClass "Author", .toEnum "Pen"]) }

/-- A slot with a range of one thing. -/
def titleSlot : Slot :=
  { Slot.bare "title" "urn:title" with
    range := some (.only (.toType "string")), minCount := some 1 }

/-- A class that refuses other properties if the options do. -/
def book (slots : List Slot) : ClassDecl := ⟨"Book", "urn:Book", none, none, slots⟩

/-- A class that admits other properties. -/
def author : ClassDecl := ⟨"Author", "urn:Author", none, some false, [Slot.bare "name" "urn:name"]⟩

/-- A schema with some classes, and the enumeration that they refer to. -/
def library (classes : List ClassDecl) : Schema :=
  ⟨"library", "urn:library", classes, [⟨"Pen", [⟨"none", none⟩, ⟨"Anon", some "urn:Anon"⟩]⟩], []⟩

theorem compile_rearranged_sample :
    ((library [book [authorSlot, titleSlot], author]).classes.map (·.name)).Nodup ∧
    (library [book [authorSlot, titleSlot], author]).Rearranged ⟨true, none, false⟩
      (library [author, book [titleSlot, authorSlot]]) ∧
    ∃ (g g' : Graph) (σ : Equiv.Perm Nat),
      (library [book [authorSlot, titleSlot], author]).compile ⟨true, none, false⟩ = .ok g ∧
      (library [author, book [titleSlot, authorSlot]]).compile ⟨true, none, false⟩ = .ok g' ∧
      g' = g.rename σ := by
  have hnames : ((library [book [authorSlot, titleSlot], author]).classes.map (·.name)).Nodup := by
    decide
  have hrel : (library [book [authorSlot, titleSlot], author]).Rearranged ⟨true, none, false⟩
      (library [author, book [titleSlot, authorSlot]]) := by
    refine ⟨rfl, rfl, rfl, rfl, [author, book [authorSlot, titleSlot]], List.Perm.swap _ _ _, ?_⟩
    refine .cons ⟨rfl, rfl, rfl, rfl, List.Perm.refl _, fun _ => rfl⟩ (.cons ?_ .nil)
    exact ⟨rfl, rfl, rfl, rfl, List.Perm.swap _ _ _, fun hm => by cases hm⟩
  obtain ⟨hiff, hrename⟩ := compile_rearranged hnames hrel
  obtain ⟨g, hg⟩ : ∃ g, (library [book [authorSlot, titleSlot], author]).compile
    ⟨true, none, false⟩ = .ok g := ⟨_, rfl⟩
  obtain ⟨g', hg'⟩ := hiff.1 ⟨g, hg⟩
  obtain ⟨σ, hσ⟩ := hrename g g' hg hg'
  exact ⟨hnames, hrel, g, g', σ, hg, hg', hσ⟩

end Schema

end SchemaShapes
