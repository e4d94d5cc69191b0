import SchemaShapes.Proofs.Compile.Nodes
import SchemaShapes.Proofs.Encoding

/-!
# The literals of a graph of shapes

Literals come into a graph from the values of slots, from counts and flags, and from texts that have
no datatype. Each of them is one that its datatype admits, and what builders put together from valid
parts is valid.

* `Fragment.Valid`: a fragment without a literal that its datatype does not admit.
* `Slot.valid_values`: the values of a slot are valid, whatever they state.
* `Schema.compile_literals`: so is every literal of a graph.
-/

namespace SchemaShapes

/-- A term that is no literal, or a valid one. -/
def Term.Valid : Term → Prop
  | .literal l => l.Valid
  | _ => True

/-- **A fragment whose literals are valid.** -/
structure Fragment.Valid (f : Fragment) : Prop where
  node : f.node.Valid
  triples : ∀ t ∈ f.triples, t.subject.Valid ∧ t.object.Valid

namespace Fragment

theorem valid_leaf {node : Term} (h : node.Valid) : (leaf node).Valid :=
  ⟨h, by simp [leaf]⟩

theorem valid_describe {node : Term} {edges : List (Iri × Fragment)} (hnode : node.Valid)
    (h : ∀ e ∈ edges, e.2.Valid) : (describe node edges).Valid where
  node := hnode
  triples := by
    intro t ht
    obtain ⟨e, he, rfl | ht⟩ := mem_describe.1 ht
    · exact ⟨hnode, (h e he).node⟩
    · exact (h e he).triples t ht

theorem valid_collection_node (items : List Term) (next : Nat) :
    (collection items next).node.Valid := by
  unfold collection cellOrNil
  split <;> trivial

theorem valid_collection {items : List Term} (h : ∀ t ∈ items, t.Valid) (next : Nat) :
    (collection items next).Valid where
  node := valid_collection_node items next
  triples := by
    induction items generalizing next with
    | nil => simp [collection]
    | cons item items ih =>
      intro t ht
      rw [collection, cells_cons, List.mem_cons, List.mem_cons] at ht
      rcases ht with rfl | rfl | ht
      · exact ⟨trivial, h item List.mem_cons_self⟩
      · exact ⟨trivial, valid_collection_node items (next + 1)⟩
      · exact ih (fun u hu => h u (List.mem_cons_of_mem _ hu)) (next + 1) t ht

end Fragment

open Fragment

/-! ## Ranges -/

/-- The terms that an alternative lists. -/
def Alternative.listed : Alternative → List Term
  | .ofValues values => values
  | _ => []

/-- The terms that a constraint lists. -/
def Constraint.listed : Constraint → List Term
  | .ofValues values => values
  | .anyOf alternatives => alternatives.flatMap Alternative.listed
  | _ => []

theorem EnumValue.valid_term (value : EnumValue) : value.term.Valid := by
  unfold EnumValue.term
  cases value.meaning with
  | none => exact Literal.valid_untyped _
  | some iri => trivial

theorem valid_terms (values : List EnumValue) : ∀ t ∈ values.map EnumValue.term, t.Valid := by
  intro t ht
  obtain ⟨value, -, rfl⟩ := List.mem_map.1 ht
  exact value.valid_term

theorem Schema.alternatives_valid {schema : Schema} {targets : List Reference}
    {found : List Alternative} (h : schema.alternatives targets = .ok found) :
    ∀ a ∈ found, ∀ t ∈ a.listed, t.Valid := by
  have hall := alternatives_ok h
  clear h
  induction hall with
  | nil => simp
  | cons ha _ ih =>
    refine List.forall_mem_cons.2 ⟨?_, ih⟩
    rcases alternative_ok ha with ⟨_, _, -, -, rfl⟩ | ⟨_, _, -, -, rfl⟩ | ⟨_, decl, -, -, -, rfl⟩
    · simp [Alternative.listed]
    · simp [Alternative.listed]
    · exact valid_terms decl.values

/-- What a range lists are the values of enumerations. -/
theorem Schema.constraint_valid {schema : Schema} {range : Range} {c : Constraint}
    (h : schema.constraint range = .ok c) : ∀ t ∈ c.listed, t.Valid := by
  rcases constraint_ok h with ⟨_, _, -, -, rfl⟩ | ⟨_, _, -, -, rfl⟩ | ⟨_, decl, -, -, -, rfl⟩ |
    ⟨_, found, -, -, hf, rfl⟩
  · simp [Constraint.listed]
  · simp [Constraint.listed]
  · exact valid_terms decl.values
  · intro t ht
    obtain ⟨a, ha, ht⟩ := List.mem_flatMap.1 ht
    exact alternatives_valid hf a ha t ht

theorem Alternative.valid_shape {a : Alternative} (h : ∀ t ∈ a.listed, t.Valid) (next : Nat) :
    (a.shape next).Valid := by
  refine valid_describe trivial fun e he => ?_
  rw [List.mem_singleton.1 he]
  cases a with
  | ofDatatype iri => exact valid_leaf trivial
  | ofClass iri => exact valid_leaf trivial
  | ofValues values => exact valid_collection h (next + 1)

theorem Alternative.valid_shapes {alternatives : List Alternative}
    (h : ∀ a ∈ alternatives, ∀ t ∈ a.listed, t.Valid) (next : Nat) :
    ∀ f ∈ shapes alternatives next, f.Valid := by
  induction alternatives generalizing next with
  | nil => simp [shapes]
  | cons a more ih =>
    obtain ⟨ha, hmore⟩ := List.forall_mem_cons.1 h
    exact List.forall_mem_cons.2 ⟨valid_shape ha next, ih hmore _⟩

/-- A disjunction is a list of shapes, with what describes them. -/
theorem Alternative.valid_disjunction {alternatives : List Alternative}
    (h : ∀ a ∈ alternatives, ∀ t ∈ a.listed, t.Valid) (next : Nat) :
    (disjunction alternatives next).Valid := by
  have hshapes := valid_shapes h next
  have hnodes : ∀ t ∈ (shapes alternatives next).map (·.node), t.Valid := by
    intro t ht
    obtain ⟨f, hf, rfl⟩ := List.mem_map.1 ht
    exact (hshapes f hf).node
  have hlist := valid_collection hnodes (next + shapesTaken alternatives)
  refine ⟨hlist.node, fun t ht => ?_⟩
  rcases List.mem_append.1 ht with ht | ht
  · exact hlist.triples t ht
  · obtain ⟨f, hf, ht⟩ := List.mem_flatMap.1 ht
    exact (hshapes f hf).triples t ht

theorem Constraint.valid_edges {c : Constraint} (h : ∀ t ∈ c.listed, t.Valid) (next : Nat) :
    ∀ e ∈ c.edges next, e.2.Valid := by
  have htwo : ∀ p q a b : Iri, ∀ e ∈ [(p, leaf (.iri a)), (q, leaf (.iri b))], e.2.Valid := by
    intro p q a b
    exact List.forall_mem_cons.2
      ⟨valid_leaf trivial, List.forall_mem_singleton.2 (valid_leaf trivial)⟩
  cases c with
  | ofDatatype p => exact htwo _ _ _ _
  | ofClass iri => exact htwo _ _ _ _
  | ofValues values => exact List.forall_mem_singleton.2 (valid_collection h next)
  | anyOf alternatives =>
    refine List.forall_mem_singleton.2 (Alternative.valid_disjunction (fun a ha t ht => ?_) next)
    exact h t (List.mem_flatMap.2 ⟨a, ha, ht⟩)

/-! ## Slots -/

/-- What holds of all that a function gives holds of an optional part. -/
theorem forall_of_eachOption {α β ε : Type} {f : α → Except ε β} {P : β → Prop}
    (hf : ∀ a b, f a = .ok b → P b) {o : Option α} {r : Option β} (h : eachOption f o = .ok r) :
    ∀ b ∈ r, P b := by
  intro b hb
  obtain ⟨a, -, ha⟩ := exists_of_eachOption h b hb
  exact hf a b ha

namespace Slot

variable {schema : Schema} {options : Options} {slot : Slot} {typing : Typing}
  {values : SlotValues} {order next : Nat}

theorem valid_encodeDefault {value : Scalar} {l : Literal}
    (h : slot.encodeDefault typing value = .ok l) : l.Valid := by
  unfold encodeDefault at h
  split at h
  · exact Primitive.encode_valid h
  · cases h
    exact Literal.valid_untyped _

theorem valid_encodeBound {value : Scalar} {l : Literal}
    (h : encodeBound typing value = .ok l) : l.Valid := by
  unfold encodeBound at h
  split at h
  · exact Primitive.encode_valid h
  · exact Scalar.encodeNaturally_valid h

/-- **The values of a slot** are valid literals: its default and its bounds. -/
theorem valid_values (h : slot.values typing = .ok values) :
    (∀ l ∈ values.default, l.Valid) ∧ (∀ l ∈ values.minimum, l.Valid) ∧
      ∀ l ∈ values.maximum, l.Valid := by
  obtain ⟨default, hd, h⟩ := bind_eq_ok.1 h
  obtain ⟨minimum, hl, h⟩ := bind_eq_ok.1 h
  obtain ⟨maximum, hu, h⟩ := bind_eq_ok.1 h
  cases h
  exact ⟨forall_of_eachOption (fun _ _ => valid_encodeDefault) hd,
    forall_of_eachOption (fun _ _ => valid_encodeBound) hl,
    forall_of_eachOption (fun _ _ => valid_encodeBound) hu⟩

theorem valid_literalEdge {predicate : Iri} {literal : Option Literal}
    (h : ∀ l ∈ literal, l.Valid) : ∀ e ∈ literalEdge predicate literal, e.2.Valid := by
  cases literal with
  | none => simp [literalEdge]
  | some l => exact List.forall_mem_singleton.2 (valid_leaf (h l rfl))

/-- Texts without a datatype are valid. -/
theorem valid_texts (text : Option String) : ∀ l ∈ text.map Literal.untyped, l.Valid := by
  intro l hl
  obtain ⟨s, -, rfl⟩ := Option.map_eq_some_iff.1 hl
  exact Literal.valid_untyped s

/-- Counts are valid. -/
theorem valid_counts (count : Option UInt64) :
    ∀ l ∈ count.map fun n => Literal.integer n.toNat, l.Valid := by
  intro l hl
  obtain ⟨n, -, rfl⟩ := Option.map_eq_some_iff.1 hl
  exact Literal.valid_integer n.toNat

theorem valid_metadataEdges (slot : Slot) (order : Nat) :
    ∀ e ∈ slot.metadataEdges order, e.2.Valid := by
  refine List.forall_mem_append.2 ⟨List.forall_mem_append.2 ⟨?_, ?_⟩, ?_⟩
  · exact valid_literalEdge (valid_texts (some slot.name))
  · exact valid_literalEdge (valid_texts slot.description)
  · refine valid_literalEdge fun l hl => ?_
    cases hl
    exact Literal.valid_integer order

/-- **The edges of a property shape** lead to valid literals. -/
theorem valid_propertyEdges (ht : slot.typing schema = .ok typing)
    (hv : slot.values typing = .ok values) :
    ∀ e ∈ slot.propertyEdges options order typing values next, e.2.Valid := by
  have hrange : ∀ e ∈ (typing.constraint.map fun c => c.edges next).getD [], e.2.Valid := by
    rcases eachOption_eq_ok.1 (typing_ok ht).1 with ⟨-, hc⟩ | ⟨range, c, -, hc, hcon⟩
    · simp [hc]
    · rw [hcon]
      exact c.valid_edges (Schema.constraint_valid hc) next
  have hmeta : ∀ e ∈ (if options.metadata then slot.metadataEdges order else []), e.2.Valid := by
    cases options.metadata with
    | false => simp
    | true => exact valid_metadataEdges slot order
  obtain ⟨hdefault, hminimum, hmaximum⟩ := valid_values hv
  simp only [propertyEdges, List.forall_mem_cons, List.forall_mem_append]
  exact ⟨valid_leaf trivial, ⟨⟨⟨⟨⟨⟨hmeta, valid_literalEdge (valid_counts _)⟩,
    valid_literalEdge (valid_counts _)⟩, hrange⟩, valid_literalEdge hdefault⟩,
    valid_literalEdge (valid_texts _)⟩, valid_literalEdge hminimum⟩, valid_literalEdge hmaximum⟩

end Slot

/-! ## Classes -/

theorem ClassDecl.valid_shapeEdges (options : Options) (decl : ClassDecl) (next : Nat) :
    ∀ e ∈ decl.shapeEdges options next, e.2.Valid := by
  have hlist : ∀ e ∈ (if options.closes decl then
      [(Sh.ignoredProperties, Fragment.collection ignoredProperties next)] else []),
      e.2.Valid := by
    cases options.closes decl with
    | false => simp
    | true =>
      refine List.forall_mem_singleton.2 (valid_collection (fun t ht => ?_) next)
      rw [List.mem_singleton.1 ht]
      trivial
  have hmeta : ∀ e ∈ (if options.metadata then
      Slot.literalEdge Sh.description (decl.description.map .untyped) else []), e.2.Valid := by
    cases options.metadata with
    | false => simp
    | true => exact Slot.valid_literalEdge (Slot.valid_texts decl.description)
  simp only [shapeEdges, List.forall_mem_cons, List.forall_mem_append]
  exact ⟨⟨⟨valid_leaf trivial, valid_leaf trivial, valid_leaf (Literal.valid_boolean _), by simp⟩,
    hlist⟩, hmeta⟩

namespace Schema

variable {schema : Schema} {options : Options} {g : Graph} {decl : ClassDecl} {next : Nat}
  {f : Fragment}

/-- **The shape of a class** has valid literals only. -/
theorem valid_nodeShape (h : (schema.nodeShape options decl next).outcome = .ok f) : f.Valid := by
  obtain ⟨properties, hp, rfl⟩ := nodeShape_ok h
  refine valid_describe trivial (List.forall_mem_append.2
    ⟨decl.valid_shapeEdges options next, fun e he => ?_⟩)
  obtain ⟨q, hq, rfl⟩ := List.mem_map.1 he
  obtain ⟨s, n, -, -, hrun⟩ := Run.exists_of_mem_traverse hp hq
  obtain ⟨typing, values, ht, hv, rfl, -⟩ := propertyShape_ok hrun
  exact valid_describe trivial (Slot.valid_propertyEdges ht hv)

/-- **Every literal of a graph of shapes is valid**: its text is one that its datatype admits,
whatever the schema says of defaults and bounds. -/
theorem compile_literals (h : schema.compile options = .ok g) :
    ∀ t ∈ g, ∀ l, t.subject = .literal l ∨ t.object = .literal l → l.Valid := by
  intro t ht l hl
  obtain ⟨shapes, hs, hg, -⟩ := compile_ok h
  rw [hg, Graph.mem_ofList, List.mem_flatMap] at ht
  obtain ⟨f, hf, ht⟩ := ht
  obtain ⟨decl, n, -, -, hrun⟩ := Run.exists_of_mem_traverse hs hf
  obtain ⟨hsubject, hobject⟩ := (valid_nodeShape hrun).triples t ht
  rcases hl with hl | hl
  · rw [hl] at hsubject
    exact hsubject
  · rw [hl] at hobject
    exact hobject

/-- A schema whose only slot has a default past every finite number. -/
def measured : Schema where
  name := "measured"
  id := "urn:measured"
  classes :=
    [{ name := "Person", iri := "urn:Person", description := none, closed := some false,
       slots :=
        [{ Slot.bare "height" "urn:height" with
            range := some (.only (.toType "float")), default := some (.text " -1e400 ")
            minimum := some (.text "+.5e1") }] }]
  enums := []
  types := []

theorem compile_literals_sample : ∃ g, measured.compile .standard = .ok g ∧
    (⟨.blank 0, Sh.defaultValue, .literal ⟨"-INF", some Xsd.float⟩⟩ : Triple) ∈ g ∧
    IsFloat "-INF" ∧
    (⟨.blank 0, Sh.minInclusive, .literal ⟨"5", some Xsd.float⟩⟩ : Triple) ∈ g ∧
    IsFloat "5" := by
  obtain ⟨g, h⟩ : ∃ g, measured.compile .standard = .ok g := ⟨_, rfl⟩
  obtain ⟨shapes, hs, hg, -⟩ := compile_ok h
  cases hs
  have hdefault :
      (⟨.blank 0, Sh.defaultValue, .literal ⟨"-INF", some Xsd.float⟩⟩ : Triple) ∈ g := by
    rw [hg, Graph.mem_ofList]
    decide +kernel
  have hminimum : (⟨.blank 0, Sh.minInclusive, .literal ⟨"5", some Xsd.float⟩⟩ : Triple) ∈ g := by
    rw [hg, Graph.mem_ofList]
    decide +kernel
  exact ⟨g, h, hdefault, compile_literals h _ hdefault _ (Or.inr rfl) .float rfl,
    hminimum, compile_literals h _ hminimum _ (Or.inr rfl) .float rfl⟩

end Schema

end SchemaShapes
