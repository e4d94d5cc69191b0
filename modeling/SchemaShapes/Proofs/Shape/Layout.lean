import SchemaShapes.Compile
import SchemaShapes.Proofs.Rdf.Forest
import SchemaShapes.Proofs.Shape.Disjunction
import SchemaShapes.Proofs.Shape.Slot
import SchemaShapes.Proofs.Shape.Traverse

/-!
# Which numbers a builder takes

Every builder hands on branches that own the numbers it takes, each once. So a graph of shapes is a
forest, and the node of a slot has a number that can be told from the slots before it.

* `spans_disjunction`, `Constraint.spans_edges`: what a range takes.
* `Schema.propertyShape_ok`, `Schema.nodeShape_ok`, `Schema.compile_ok`: what a builder that
  succeeds has found, and what it hands on.
* `Schema.compile_forest`: the graph of a schema is a forest.
-/

namespace SchemaShapes

open Fragment

/-! ## Ranges -/

/-- The values that an alternative lists are no blank nodes. -/
def Alternative.Ground : Alternative → Prop
  | .ofValues values => ∀ v ∈ values, v.numbers = []
  | _ => True

/-- The values that a constraint lists are no blank nodes. -/
def Constraint.Ground : Constraint → Prop
  | .ofValues values => ∀ v ∈ values, v.numbers = []
  | .anyOf alternatives => ∀ a ∈ alternatives, a.Ground
  | _ => True

theorem EnumValue.numbers_term (value : EnumValue) : value.term.numbers = [] := by
  unfold EnumValue.term
  cases value.meaning <;> rfl

theorem ground_terms (values : List EnumValue) :
    ∀ v ∈ values.map EnumValue.term, v.numbers = [] := by
  intro v hv
  obtain ⟨value, -, rfl⟩ := List.mem_map.1 hv
  exact value.numbers_term

theorem Schema.alternative_ground {schema : Schema} {r : Reference} {a : Alternative}
    (h : schema.alternative r = .ok a) : a.Ground := by
  rcases alternative_ok h with ⟨_, _, -, -, rfl⟩ | ⟨_, _, -, -, rfl⟩ | ⟨_, decl, -, -, -, rfl⟩
  · trivial
  · trivial
  · exact ground_terms decl.values

theorem Schema.alternatives_ground {schema : Schema} {targets : List Reference}
    {found : List Alternative} (h : schema.alternatives targets = .ok found) :
    ∀ a ∈ found, a.Ground := by
  have hall := alternatives_ok h
  clear h
  induction hall with
  | nil => simp
  | cons ha _ ih => exact List.forall_mem_cons.2 ⟨alternative_ground ha, ih⟩

theorem Schema.constraint_ground {schema : Schema} {range : Range} {c : Constraint}
    (h : schema.constraint range = .ok c) : c.Ground := by
  rcases constraint_ok h with ⟨_, _, -, -, rfl⟩ | ⟨_, _, -, -, rfl⟩ | ⟨_, decl, -, -, -, rfl⟩ |
    ⟨_, found, -, -, hf, rfl⟩
  · trivial
  · trivial
  · exact ground_terms decl.values
  · exact alternatives_ground hf

theorem spans_shape {a : Alternative} (h : a.Ground) (next : Nat) :
    Spans [a.shape next] next (next + a.taken) := by
  refine Spans.describe (by simp) ?_
  cases a with
  | ofDatatype iri => exact Spans.leaf rfl (next + 1)
  | ofClass iri => exact Spans.leaf rfl (next + 1)
  | ofValues values =>
    rw [Alternative.taken, ← Nat.add_assoc]
    exact Spans.collection h (next + 1)

theorem spans_shapes {alternatives : List Alternative} (h : ∀ a ∈ alternatives, a.Ground)
    (next : Nat) : Spans (Alternative.shapes alternatives next) next
      (next + Alternative.shapesTaken alternatives) := by
  induction alternatives generalizing next with
  | nil => exact Spans.nil next
  | cons a more ih =>
    have htaken : next + Alternative.shapesTaken (a :: more) =
        next + a.taken + Alternative.shapesTaken more := (Nat.add_assoc ..).symm
    rw [htaken]
    exact (spans_shape (h a (by simp)) next).cons (ih (fun b hb => h b (by simp [hb])) _)

/-- **A disjunction** takes the numbers of its shapes, and then those of its cells. -/
theorem spans_disjunction {alternatives : List Alternative} (h : ∀ a ∈ alternatives, a.Ground)
    (next : Nat) : Spans [Alternative.disjunction alternatives next] next
      (next + Alternative.disjunctionTaken alternatives) := by
  -- a disjunction is a list of its shapes, with the descriptions behind the cells
  have hchain := (spans_shapes h next).chain
  rw [Alternative.length_shapes, Nat.add_assoc] at hchain
  exact hchain.perm (chain_node _ _).symm (chain_perm _ _)

theorem Constraint.spans_edges {c : Constraint} (h : c.Ground) (next : Nat) :
    Spans ((c.edges next).map (·.2)) next (next + c.taken) := by
  cases c with
  | ofDatatype p => exact (Spans.leaf rfl next).cons (Spans.leaf rfl next)
  | ofClass iri => exact (Spans.leaf rfl next).cons (Spans.leaf rfl next)
  | ofValues values => exact Spans.collection h next
  | anyOf alternatives => exact spans_disjunction h next

/-! ## Property shapes -/

theorem Slot.spans_literalEdge (predicate : Iri) (literal : Option Literal) (n : Nat) :
    Spans ((Slot.literalEdge predicate literal).map (·.2)) n n := by
  cases literal with
  | none => exact Spans.nil n
  | some l => exact Spans.leaf rfl n

theorem Slot.spans_propertyEdges (options : Options) (slot : Slot) (order : Nat) {typing : Typing}
    (values : SlotValues) (h : ∀ c, typing.constraint = some c → c.Ground) (next : Nat) :
    Spans ((slot.propertyEdges options order typing values next).map (·.2)) next
      (next + typing.taken) := by
  have hmeta : Spans ((if options.metadata then slot.metadataEdges order else []).map (·.2))
      next next := by
    cases options.metadata with
    | false => exact Spans.nil next
    | true =>
      simp only [if_true, metadataEdges, List.map_append]
      exact ((spans_literalEdge _ _ _).append (spans_literalEdge _ _ _)).append
        (spans_literalEdge _ _ _)
  have hrange : Spans (((typing.constraint.map fun c => c.edges next).getD []).map (·.2)) next
      (next + typing.taken) := by
    unfold Typing.taken
    cases hc : typing.constraint with
    | none => exact Spans.nil next
    | some c => exact Constraint.spans_edges (h c hc) next
  -- only the range takes numbers
  simp only [propertyEdges, List.map_cons, List.map_append]
  exact (Spans.leaf rfl next).cons
    (((((((hmeta.append (spans_literalEdge _ _ _)).append (spans_literalEdge _ _ _)).append
      hrange).append (spans_literalEdge _ _ _)).append (spans_literalEdge _ _ _)).append
      (spans_literalEdge _ _ _)).append (spans_literalEdge _ _ _))

/-- The edges of a node shape, with the shapes of its slots. -/
def ClassDecl.nodeEdges (options : Options) (decl : ClassDecl) (next : Nat)
    (properties : List Fragment) : List (Iri × Fragment) :=
  decl.shapeEdges options next ++ properties.map fun p => (Sh.property, p)

namespace Schema

variable {schema : Schema} {options : Options} {decl : ClassDecl} {slot : Slot} {order next : Nat}

/-- **A property shape that is built**: the slot is understood, its values can be written, and the
shape says so. -/
theorem propertyShape_ok {f : Fragment}
    (h : (schema.propertyShape options decl slot order next).outcome = .ok f) :
    ∃ typing values, slot.typing schema = .ok typing ∧ slot.values typing = .ok values ∧
      f = .describe (.blank next) (slot.propertyEdges options order typing values (next + 1)) ∧
      (schema.propertyShape options decl slot order next).taken = next + 1 + typing.taken := by
  simp only [propertyShape, Run.after] at h ⊢
  cases ht : slot.typing schema with
  | error e => simp [ht] at h
  | ok typing =>
    cases hv : slot.values typing with
    | error e => simp [ht, hv] at h
    | ok values =>
      simp only [ht, hv, Except.ok.injEq] at h
      exact ⟨typing, values, rfl, hv, h.symm, by simp [hv]⟩

theorem typing_ground {typing : Typing} (h : slot.typing schema = .ok typing) :
    ∀ c, typing.constraint = some c → c.Ground := by
  intro c hc
  rcases eachOption_eq_ok.1 (Slot.typing_ok h).1 with ⟨-, hn⟩ | ⟨range, c', -, hr, hs⟩
  · rw [hc] at hn
    cases hn
  · rw [hc] at hs
    cases hs
    exact constraint_ground hr

theorem spans_propertyShape {f : Fragment}
    (h : (schema.propertyShape options decl slot order next).outcome = .ok f) :
    Spans [f] next (schema.propertyShape options decl slot order next).taken := by
  obtain ⟨typing, values, ht, -, rfl, htaken⟩ := propertyShape_ok h
  rw [htaken]
  exact Spans.describe (by simp [Slot.propertyEdges])
    (Slot.spans_propertyEdges options slot order values (typing_ground ht) (next + 1))

theorem spans_propertyShapes {properties : List Fragment}
    (h : (schema.propertyShapes options decl next).outcome = .ok properties) :
    Spans properties next (schema.propertyShapes options decl next).taken := by
  obtain ⟨hle, howned⟩ := Run.traverse_owned Fragment.owned
    (fun s n f hf => by
      have hs := spans_propertyShape hf
      exact ⟨hs.le, by simpa using hs.owned⟩) h
  refine ⟨hle, fun f hf => ?_, howned⟩
  obtain ⟨i, s, -, -, hrun⟩ := Run.exists_of_mem_traverse h hf
  exact (spans_propertyShape hrun).branches f (by simp)

/-! ## Node shapes -/

/-- **A node shape that is built** from the shapes of its slots. -/
theorem nodeShape_ok {f : Fragment} (h : (schema.nodeShape options decl next).outcome = .ok f) :
    ∃ properties,
      (schema.propertyShapes options decl (next + decl.taken options)).outcome = .ok properties ∧
      f = .describe (.iri (options.shapeIri decl)) (decl.nodeEdges options next properties) := by
  obtain ⟨properties, hp, rfl⟩ := map_eq_ok.1 h
  exact ⟨properties, hp, rfl⟩

theorem taken_nodeShape (schema : Schema) (options : Options) (decl : ClassDecl) (next : Nat) :
    (schema.nodeShape options decl next).taken =
      (schema.propertyShapes options decl (next + decl.taken options)).taken := rfl

theorem spans_shapeEdges (options : Options) (decl : ClassDecl) (next : Nat) :
    Spans ((decl.shapeEdges options next).map (·.2)) next (next + decl.taken options) := by
  have hflags : Spans [Fragment.leaf (.iri Sh.nodeShape), .leaf (.iri decl.iri),
      .leaf (.literal (.boolean (options.closes decl)))] next next :=
    (Spans.leaf rfl next).cons ((Spans.leaf rfl next).cons (Spans.leaf rfl next))
  have hlist : Spans ((if options.closes decl then
      [(Sh.ignoredProperties, Fragment.collection ignoredProperties next)] else []).map (·.2))
      next (next + decl.taken options) := by
    unfold ClassDecl.taken
    cases options.closes decl with
    | false => exact Spans.nil next
    | true => exact Spans.collection (by simp [ignoredProperties]) next
  have hmeta : ∀ n, Spans ((if options.metadata then
      Slot.literalEdge Sh.description (decl.description.map .untyped) else []).map (·.2)) n n := by
    intro n
    cases options.metadata with
    | false => exact Spans.nil n
    | true => exact Slot.spans_literalEdge _ _ n
  simp only [ClassDecl.shapeEdges, List.map_append]
  exact (hflags.append hlist).append (hmeta _)

/-- What the edges of a node shape lead to. -/
theorem spans_nodeEdges {properties : List Fragment}
    (h : (schema.propertyShapes options decl (next + decl.taken options)).outcome =
      .ok properties) :
    Spans ((decl.nodeEdges options next properties).map (·.2)) next
      (schema.nodeShape options decl next).taken := by
  rw [ClassDecl.nodeEdges, List.map_append, List.map_map, taken_nodeShape]
  have hid : properties.map ((·.2) ∘ fun p : Fragment => (Sh.property, p)) = properties :=
    List.map_id _
  rw [hid]
  exact (spans_shapeEdges options decl next).append (spans_propertyShapes h)

/-! ## Schemas -/

theorem compile_ok {g : Graph} (h : schema.compile options = .ok g) :
    ∃ shapes, (schema.nodeShapes options).outcome = .ok shapes ∧
      g = Graph.ofList (shapes.flatMap (·.triples)) ∧
      (schema.compileRun options).taken = (schema.nodeShapes options).taken := by
  simp only [compile, compileRun] at h ⊢
  cases ho : (schema.nodeShapes options).outcome with
  | error e => simp [ho] at h
  | ok shapes =>
    simp only [ho, Except.ok.injEq] at h
    exact ⟨shapes, rfl, h.symm, by simp⟩

/-- **A compile makes one graph** of all node shapes. -/
theorem compile_eq_map (schema : Schema) (options : Options) :
    schema.compile options = (schema.nodeShapes options).outcome.map fun shapes =>
      Graph.ofList (shapes.flatMap (·.triples)) := by
  rw [compile, compileRun]
  cases (schema.nodeShapes options).outcome <;> rfl

theorem compile_of_ok {shapes : List Fragment}
    (hs : (schema.nodeShapes options).outcome = .ok shapes) :
    schema.compile options = .ok (Graph.ofList (shapes.flatMap (·.triples))) := by
  rw [compile_eq_map, hs]
  rfl

/-- **The graph of a schema is a forest**, with a root for each class. -/
theorem compile_forest {g : Graph} (h : schema.compile options = .ok g) {shapes : List Fragment}
    (hs : (schema.nodeShapes options).outcome = .ok shapes) :
    g.Forest shapes (schema.compileRun options).taken := by
  obtain ⟨shapes', hs', rfl, htaken⟩ := compile_ok h
  rw [hs] at hs'
  cases hs'
  obtain ⟨-, howned⟩ := Run.traverse_owned Fragment.owned
    (fun decl n f hf => by
      obtain ⟨properties, hp, rfl⟩ := nodeShape_ok hf
      have := spans_nodeEdges hp
      exact ⟨this.le, by simpa [owned_describe] using this.owned⟩) hs
  have hshape : ∀ f ∈ shapes, ∃ (i : Nat) (decl : ClassDecl), schema.classes[i]? = some decl ∧
      ∃ n, (schema.nodeShape options decl n).outcome = .ok f := by
    intro f hf
    obtain ⟨i, decl, hi, -, hrun⟩ := Run.exists_of_mem_traverse hs hf
    exact ⟨i, decl, hi, _, hrun⟩
  refine ⟨rfl, fun f hf => ?_, fun f hf => ?_, htaken ▸ howned⟩
  · obtain ⟨i, decl, -, n, hrun⟩ := hshape f hf
    obtain ⟨properties, hp, rfl⟩ := nodeShape_ok hrun
    exact rooted_describe (Or.inr rfl) fun e he => (spans_nodeEdges hp).branch_of_mem he
  · obtain ⟨i, decl, -, n, hrun⟩ := hshape f hf
    obtain ⟨properties, -, rfl⟩ := nodeShape_ok hrun
    exact ⟨_, rfl⟩

end Schema

end SchemaShapes
