import SchemaShapes.Proofs.Compile.Faults
import SchemaShapes.Proofs.Shape.Names
import SchemaShapes.Proofs.Shape.Predicates

/-!
# What the options make of a graph

Each option is a change of its own to the graph, and none has to do with whether there is one:
without metadata the graph lacks the triples that only describe, a suffix stands behind every IRI
that is a subject, and the option of being closed decides for the classes that do not say so
themselves. Blank nodes keep their numbers in all of this.

* `Schema.nodeShape_metadata`, `Schema.nodeShape_suffix`, `Schema.nodeShape_decided`: what an option
  makes of the run that builds a node shape.
* `Schema.compile_options`: what it makes of a compile.
-/

namespace SchemaShapes

open Fragment

/-- The predicates that only describe. -/
def metadataPredicates : List Iri := [Sh.name, Sh.description, Sh.order]

/-- **A graph without metadata**: less the triples that only describe. -/
def Graph.withoutMetadata (g : Graph) : Graph :=
  Graph.ofList (g.toList.filter fun t => t.predicate ∉ metadataPredicates)

/-- An IRI with a suffix. Other terms stay. -/
def Term.suffixed (suffix : String) : Term → Term
  | .iri i => .iri (i ++ suffix)
  | t => t

/-- A triple with a suffix at its subject. -/
def Triple.suffixed (suffix : String) (t : Triple) : Triple :=
  ⟨t.subject.suffixed suffix, t.predicate, t.object⟩

/-- **A graph with a suffix** at each subject that is an IRI. -/
def Graph.suffixed (suffix : String) (g : Graph) : Graph :=
  Graph.ofList (g.toList.map (Triple.suffixed suffix))

/-- A class that says whether it is closed, if it does not say so itself. -/
def ClassDecl.decided (closed : Bool) (decl : ClassDecl) : ClassDecl :=
  { decl with closed := some (decl.closed.getD closed) }

/-- **A schema whose classes all say whether they are closed.** -/
def Schema.decided (closed : Bool) (schema : Schema) : Schema :=
  { schema with classes := schema.classes.map (ClassDecl.decided closed) }

@[simp] theorem Graph.mem_withoutMetadata {g : Graph} {t : Triple} :
    t ∈ g.withoutMetadata ↔ t ∈ g ∧ t.predicate ∉ metadataPredicates := by
  simp [withoutMetadata, mem_toList]

@[simp] theorem Graph.mem_suffixed {suffix : String} {g : Graph} {t : Triple} :
    t ∈ g.suffixed suffix ↔ ∃ u ∈ g, u.suffixed suffix = t := by
  simp [suffixed, mem_toList]

theorem Graph.withoutMetadata_ofList (ts : List Triple) : (Graph.ofList ts).withoutMetadata =
    Graph.ofList (ts.filter fun t => t.predicate ∉ metadataPredicates) := by
  refine Graph.eq_of_mem_iff fun t => ?_
  simp

theorem Graph.suffixed_ofList (suffix : String) (ts : List Triple) :
    (Graph.ofList ts).suffixed suffix = Graph.ofList (ts.map (Triple.suffixed suffix)) := by
  refine Graph.eq_of_mem_iff fun t => ?_
  simp

/-! ## Metadata -/

namespace Fragment

/-- A fragment less the triples that only describe. -/
def withoutMetadata (f : Fragment) : Fragment :=
  ⟨f.node, f.triples.filter fun t => t.predicate ∉ metadataPredicates⟩

/-- Edges less those that only describe. -/
def plainEdges (edges : List (Iri × Fragment)) : List (Iri × Fragment) :=
  (edges.filter fun e => e.1 ∉ metadataPredicates).map fun e => (e.1, e.2.withoutMetadata)

theorem plainEdges_append (es fs : List (Iri × Fragment)) :
    plainEdges (es ++ fs) = plainEdges es ++ plainEdges fs := by
  rw [plainEdges, List.filter_append, List.map_append]
  rfl

/-- **A node with edges**, if those that only describe lead to nothing that is described. -/
theorem withoutMetadata_describe {node : Term} {edges : List (Iri × Fragment)}
    (h : ∀ e ∈ edges, e.1 ∈ metadataPredicates → e.2.triples = []) :
    (describe node edges).withoutMetadata = describe node (plainEdges edges) := by
  have htriples : (describe node edges).triples.filter (fun t => t.predicate ∉ metadataPredicates) =
      (describe node (plainEdges edges)).triples := by
    induction edges with
    | nil => rfl
    | cons e es ih =>
      obtain ⟨he, hes⟩ := List.forall_mem_cons.1 h
      rw [triples_describe_cons]
      by_cases hp : e.1 ∈ metadataPredicates
      · have hskip : plainEdges (e :: es) = plainEdges es := by simp [plainEdges, hp]
        rw [hskip, he hp, List.nil_append, List.filter_cons_of_neg (by simpa using hp), ih hes]
      · have hkeep : plainEdges (e :: es) = (e.1, e.2.withoutMetadata) :: plainEdges es := by
          simp [plainEdges, hp]
        rw [hkeep, triples_describe_cons, List.filter_cons_of_pos (by simpa using hp),
          List.filter_append, ih hes]
        rfl
  exact congrArg (Fragment.mk node) htriples

/-- Edges of which none only describes, in what they lead to neither. -/
theorem plainEdges_eq_self {edges : List (Iri × Fragment)}
    (h : ∀ e ∈ edges, e.1 ∉ metadataPredicates ∧
      ∀ t ∈ e.2.triples, t.predicate ∉ metadataPredicates) : plainEdges edges = edges := by
  induction edges with
  | nil => rfl
  | cons e es ih =>
    obtain ⟨⟨hp, htriples⟩, hes⟩ := List.forall_mem_cons.1 h
    have hkept : e.2.withoutMetadata = e.2 := by
      have hfilter : e.2.triples.filter (fun t => t.predicate ∉ metadataPredicates) =
          e.2.triples := List.filter_eq_self.2 fun t ht => decide_eq_true (htriples t ht)
      rw [withoutMetadata, hfilter]
    rw [plainEdges, List.filter_cons_of_pos (by simpa using hp), List.map_cons, hkept]
    exact congrArg (e :: ·) (ih hes)

end Fragment

theorem Slot.plainEdges_literalEdge {predicate : Iri} (h : predicate ∉ metadataPredicates)
    (literal : Option Literal) :
    plainEdges (Slot.literalEdge predicate literal) = Slot.literalEdge predicate literal := by
  refine plainEdges_eq_self fun e he => ⟨?_, ?_⟩
  · have hp := (Slot.literalEdge_predicates predicate literal).subset (List.mem_map_of_mem he)
    rwa [List.mem_singleton.1 hp]
  · rw [Slot.triples_of_mem_literalEdge he]
    exact List.forall_mem_nil _

theorem Slot.plainEdges_literalEdge_of_mem {predicate : Iri} (h : predicate ∈ metadataPredicates)
    (literal : Option Literal) : plainEdges (Slot.literalEdge predicate literal) = [] := by
  cases literal with
  | none => rfl
  | some l => simp [plainEdges, literalEdge, h]

theorem Slot.plainEdges_metadataEdges (slot : Slot) (order : Nat) :
    plainEdges (slot.metadataEdges order) = [] := by
  rw [metadataEdges, plainEdges_append, plainEdges_append,
    plainEdges_literalEdge_of_mem (by decide), plainEdges_literalEdge_of_mem (by decide),
    plainEdges_literalEdge_of_mem (by decide)]
  rfl

theorem listPredicates_plain : ∀ p ∈ listPredicates, p ∉ metadataPredicates := by decide

/-- No edge of a range only describes. -/
theorem Constraint.plain_of_mem_edges (c : Constraint) {next : Nat} {e : Iri × Fragment}
    (he : e ∈ c.edges next) : e.1 ∉ metadataPredicates := by
  have hrange : ∀ p ∈ rangePredicates, p ∉ metadataPredicates := by decide
  exact hrange _ ((c.edges_predicates next).subset (List.mem_map_of_mem he))

theorem plainEdges_collection {predicate : Iri} (h : predicate ∉ metadataPredicates)
    (items : List Term) (next : Nat) :
    plainEdges [(predicate, collection items next)] = [(predicate, collection items next)] := by
  refine plainEdges_eq_self fun e he => ?_
  rw [List.mem_singleton.1 he]
  exact ⟨h, fun t ht => listPredicates_plain _ (predicate_of_mem_cells ht)⟩

theorem Constraint.plainEdges_edges (c : Constraint) (next : Nat) :
    plainEdges (c.edges next) = c.edges next := by
  refine plainEdges_eq_self fun e he => ⟨c.plain_of_mem_edges he, fun t ht => ?_⟩
  exact listPredicates_plain _ (predicate_of_mem_range he ht)

/-- **What a property shape says** without metadata. -/
theorem Slot.plainEdges_propertyEdges (options : Options) (slot : Slot) (order : Nat)
    (typing : Typing) (values : SlotValues) (next : Nat) :
    plainEdges (slot.propertyEdges { options with metadata := true } order typing values next) =
      slot.propertyEdges { options with metadata := false } order typing values next := by
  have hrange : plainEdges ((typing.constraint.map fun c => c.edges next).getD []) =
      (typing.constraint.map fun c => c.edges next).getD [] := by
    cases typing.constraint with
    | none => rfl
    | some c => exact c.plainEdges_edges next
  have hpath : plainEdges [(Sh.path, leaf (.iri slot.path))] =
      [(Sh.path, leaf (.iri slot.path))] := by
    have hkept : Sh.path ∉ metadataPredicates := by decide
    simp only [plainEdges, List.filter_cons, hkept]
    rfl
  rw [propertyEdges, ← List.singleton_append]
  simp only [plainEdges_append, if_true, plainEdges_metadataEdges, hrange, hpath]
  rw [plainEdges_literalEdge (by decide), plainEdges_literalEdge (by decide),
    plainEdges_literalEdge (by decide), plainEdges_literalEdge (by decide),
    plainEdges_literalEdge (by decide), plainEdges_literalEdge (by decide)]
  rfl

namespace Schema

variable {schema : Schema} (options : Options) (decl : ClassDecl)

/-- **A property shape without metadata.** -/
theorem propertyShape_metadata (slot : Slot) (order next : Nat) :
    schema.propertyShape { options with metadata := false } decl slot order next =
      (schema.propertyShape { options with metadata := true } decl slot order next).map
        withoutMetadata := by
  simp only [propertyShape, Run.after, Run.map]
  cases ht : slot.typing schema with
  | error cause => rfl
  | ok typing =>
    cases hv : slot.values typing with
    | error cause => simp only [hv]; rfl
    | ok values =>
      -- an edge that only describes leads to a text
      have hleaves : ∀ e ∈ slot.propertyEdges { options with metadata := true } order typing
          values (next + 1), e.1 ∈ metadataPredicates → e.2.triples = [] := by
        intro e he hp
        rcases Slot.mem_propertyEdges_cases he with hnil | ⟨c, -, hc⟩
        · exact hnil
        · exact absurd hp (c.plain_of_mem_edges hc)
      simp only [hv, Except.map, withoutMetadata_describe hleaves, Slot.plainEdges_propertyEdges]

/-- What a node shape says besides its properties, without metadata. -/
theorem plainEdges_shapeEdges (next : Nat) :
    plainEdges (decl.shapeEdges { options with metadata := true } next) =
      decl.shapeEdges { options with metadata := false } next := by
  have hflags : ∀ o o' : Term, plainEdges [(Rdf.type, leaf (.iri Sh.nodeShape)),
      (Sh.targetClass, leaf o), (Sh.closed, leaf o')] = [(Rdf.type, leaf (.iri Sh.nodeShape)),
      (Sh.targetClass, leaf o), (Sh.closed, leaf o')] := by
    intro o o'
    refine plainEdges_eq_self fun e he => ?_
    simp only [List.mem_cons, List.not_mem_nil, or_false] at he
    rcases he with rfl | rfl | rfl
    · exact ⟨(by decide : Rdf.type ∉ metadataPredicates), List.forall_mem_nil _⟩
    · exact ⟨(by decide : Sh.targetClass ∉ metadataPredicates), List.forall_mem_nil _⟩
    · exact ⟨(by decide : Sh.closed ∉ metadataPredicates), List.forall_mem_nil _⟩
  have hlist : ∀ closed : Bool, plainEdges (if closed then
      [(Sh.ignoredProperties, collection ignoredProperties next)] else []) =
      if closed then [(Sh.ignoredProperties, collection ignoredProperties next)] else [] := by
    intro closed
    cases closed with
    | false => rfl
    | true => exact plainEdges_collection (by decide) _ _
  rw [ClassDecl.shapeEdges, plainEdges_append, plainEdges_append, hflags, hlist, if_pos rfl,
    Slot.plainEdges_literalEdge_of_mem (by decide)]
  rfl

/-- **A node shape without metadata.** -/
theorem nodeShape_metadata (next : Nat) :
    schema.nodeShape { options with metadata := false } decl next =
      (schema.nodeShape { options with metadata := true } decl next).map withoutMetadata := by
  have hproperties : ∀ n, schema.propertyShapes { options with metadata := false } decl n =
      (schema.propertyShapes { options with metadata := true } decl n).map
        (List.map withoutMetadata) := by
    intro n
    rw [propertyShapes, propertyShapes, ← Run.traverse_map_result]
    simp only [propertyShape_metadata options decl]
  have hshape : ∀ properties : List Fragment,
      (describe (.iri (options.shapeIri decl))
        (decl.shapeEdges { options with metadata := true } next ++
          properties.map fun p => (Sh.property, p))).withoutMetadata =
      describe (.iri (options.shapeIri decl))
        (decl.shapeEdges { options with metadata := false } next ++
          (properties.map withoutMetadata).map fun p => (Sh.property, p)) := by
    intro properties
    have hkept : Sh.property ∉ metadataPredicates := by decide
    have hslots : plainEdges (properties.map fun p => (Sh.property, p)) =
        (properties.map withoutMetadata).map fun p => (Sh.property, p) := by
      simp [plainEdges, List.filter_map, hkept, Function.comp_def]
    rw [withoutMetadata_describe, plainEdges_append, plainEdges_shapeEdges, hslots]
    intro e he hp
    rcases List.mem_append.1 he with he | he
    · rcases ClassDecl.mem_shapeEdges_cases he with ⟨-, hnil⟩ | ⟨-, rfl⟩
      · exact hnil
      · exact absurd hp (by decide : Sh.ignoredProperties ∉ metadataPredicates)
    · obtain ⟨f, -, rfl⟩ := List.mem_map.1 he
      exact absurd hp hkept
  rw [nodeShape, hproperties, Run.map_map]
  refine congrArg (Run.after _) (Eq.trans ?_ (Run.map_map _ _ withoutMetadata).symm)
  exact congrArg (Run.map · _) (funext fun properties => (hshape properties).symm)

end Schema

/-! ## The suffix -/

/-- A fragment with a suffix at each subject that is an IRI. -/
def Fragment.suffixed (suffix : String) (f : Fragment) : Fragment :=
  ⟨f.node.suffixed suffix, f.triples.map (Triple.suffixed suffix)⟩

/-- **A node with edges** to what only leaves blank nodes. -/
theorem Fragment.suffixed_describe {suffix : String} {node : Term} {edges : List (Iri × Fragment)}
    (h : ∀ e ∈ edges, e.2.Branch) :
    (describe node edges).suffixed suffix = describe (node.suffixed suffix) edges := by
  have htriples : (describe node edges).triples.map (Triple.suffixed suffix) =
      (describe (node.suffixed suffix) edges).triples := by
    induction edges with
    | nil => rfl
    | cons e es ih =>
      obtain ⟨he, hes⟩ := List.forall_mem_cons.1 h
      have hkept : ∀ t ∈ e.2.triples, Triple.suffixed suffix t = id t := by
        intro t ht
        obtain ⟨n, -, hs⟩ := he.subject_blank ht
        simp only [Triple.suffixed, hs, Term.suffixed, id]
        rw [← hs]
      rw [triples_describe_cons, triples_describe_cons, List.map_cons, List.map_append, ih hes,
        List.map_congr_left hkept, List.map_id]
      rfl
  exact congrArg (Fragment.mk (node.suffixed suffix)) htriples

namespace Schema

variable {schema : Schema} (options : Options) (decl : ClassDecl)

/-- **A node shape with a suffix.** Only the shape itself is an IRI that is described. -/
theorem nodeShape_suffix (suffix : String) (next : Nat) :
    schema.nodeShape { options with suffix := some suffix } decl next =
      (schema.nodeShape { options with suffix := none } decl next).map
        (Fragment.suffixed suffix) := by
  have hiri : Term.iri ({ options with suffix := some suffix }.shapeIri decl) =
      (Term.iri ({ options with suffix := none }.shapeIri decl)).suffixed suffix := by
    simp [Options.shapeIri, Term.suffixed]
  -- the shapes of the slots are the same, and leave blank nodes only
  refine congrArg (Run.after _) (Eq.trans ?_ (Run.map_map _ _ (Fragment.suffixed suffix)).symm)
  refine Run.map_congr_of_ok fun properties hp => ?_
  have hbranches : ∀ e ∈ decl.nodeEdges { options with suffix := none } next properties,
      e.2.Branch := fun e he => (spans_nodeEdges hp).branch_of_mem he
  rw [hiri]
  exact (Fragment.suffixed_describe hbranches).symm

/-! ## Closed shapes -/

/-- Names stand for the same, whichever classes are closed. -/
theorem sameNames_decided (schema : Schema) (closed : Bool) :
    schema.SameNames (schema.decided closed) := by
  refine ⟨funext fun name => ?_, funext fun name => ?_, rfl⟩
  · have htypes : (schema.decided closed).types = schema.types := rfl
    rw [typeOf, typeOf, resolveType?, resolveType?, primitive?_eq_of_types htypes]
  · have hfind : (schema.decided closed).findClass? name =
        (schema.findClass? name).map (ClassDecl.decided closed) := List.find?_map ..
    rw [classOf, classOf, hfind]
    cases schema.findClass? name <;> rfl

/-- **A node shape of a class that says whether it is closed.** -/
theorem nodeShape_decided (closed : Bool) (next : Nat) :
    schema.nodeShape options (decl.decided closed) next =
      schema.nodeShape { options with closed := closed } decl next := rfl

/-! ## The options of a compile -/

/-- **What is made of each node shape** is made of the graph. -/
theorem compile_map {options other : Options} {k : Fragment → Fragment} {graph : Graph → Graph}
    (hshape : ∀ decl next,
      schema.nodeShape other decl next = (schema.nodeShape options decl next).map k)
    (hgraph : ∀ shapes : List Fragment, Graph.ofList ((shapes.map k).flatMap (·.triples)) =
      graph (Graph.ofList (shapes.flatMap (·.triples)))) :
    schema.compile other = (schema.compile options).map graph := by
  have hshapes : schema.nodeShapes other = (schema.nodeShapes options).map (List.map k) := by
    rw [nodeShapes, nodeShapes, ← Run.traverse_map_result, ← funext₂ hshape]
  rw [compile_eq_map, compile_eq_map, hshapes]
  cases h : (schema.nodeShapes options).outcome with
  | error fault => simp [Run.map, h, Except.map]
  | ok shapes => simp only [Run.map, h, Except.map, hgraph]

theorem compile_metadata (schema : Schema) (options : Options) :
    schema.compile { options with metadata := false } =
      (schema.compile { options with metadata := true }).map Graph.withoutMetadata := by
  refine compile_map (nodeShape_metadata options) fun shapes => ?_
  rw [Graph.withoutMetadata_ofList, List.flatMap_map, List.filter_flatMap]
  rfl

theorem compile_suffix (schema : Schema) (options : Options) (suffix : String) :
    schema.compile { options with suffix := some suffix } =
      (schema.compile { options with suffix := none }).map (Graph.suffixed suffix) := by
  refine compile_map (fun decl => nodeShape_suffix options decl suffix) fun shapes => ?_
  rw [Graph.suffixed_ofList, List.flatMap_map, List.map_flatMap]
  rfl

theorem compile_decided (schema : Schema) (options : Options) (closed : Bool) :
    (schema.decided closed).compile options =
      schema.compile { options with closed := closed } := by
  have hdecl : (fun decl => schema.nodeShape options (ClassDecl.decided closed decl)) =
      schema.nodeShape { options with closed := closed } :=
    funext₂ fun decl next => nodeShape_decided options decl closed next
  have hshapes : (schema.decided closed).nodeShapes options =
      schema.nodeShapes { options with closed := closed } := by
    rw [nodeShapes, (schema.sameNames_decided closed).nodeShape, decided, Run.traverse_map, hdecl,
      nodeShapes]
  rw [compile_eq_map, compile_eq_map, hshapes]

/-- **What each option makes of a compile.** Whether there is a graph, and the fault if there is
none, does not depend on the options. Without metadata the graph lacks the triples that only
describe; a suffix stands behind each subject that is an IRI; and the option of being closed does
what the classes that do not say so themselves would do by saying so, whatever the option is
then. -/
theorem compile_options (schema : Schema) (options : Options) :
    (∀ other : Options, faultOf (schema.compile other) = faultOf (schema.compile options)) ∧
    schema.compile { options with metadata := false } =
      (schema.compile { options with metadata := true }).map Graph.withoutMetadata ∧
    (∀ suffix, schema.compile { options with suffix := some suffix } =
      (schema.compile { options with suffix := none }).map (Graph.suffixed suffix)) ∧
    ∀ closed, (schema.decided closed).compile options =
      schema.compile { options with closed := closed } := by
  refine ⟨fun other => ?_, schema.compile_metadata options, schema.compile_suffix options,
    schema.compile_decided options⟩
  rw [faultOf_compile, faultOf_compile]

end Schema

end SchemaShapes
