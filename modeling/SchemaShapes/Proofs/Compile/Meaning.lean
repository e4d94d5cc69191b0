import SchemaShapes.Proofs.Compile.Nodes

/-!
# What a graph of shapes says

Each slot of each class has a node of its own, that the shapes of the class lead to, and the edges
of this node are read off the slot, the schema and the options; so are those of the shape of a
class.

* `Schema.RangeEdges`, `Slot.Meaning`, `ClassDecl.Meaning`: the edges, from the declarations.
* `Slot.says_of_meaning`: what one edge of a slot says.
* `compile_meaning`: the graph of a schema has these edges and no others.
-/

namespace SchemaShapes

/-- An edge to something that may not be there. -/
def optionalEdge (predicate : Iri) (object : Option Term) : List Edge :=
  (object.map fun o => (predicate, o)).toList

/-- **What a range says of the values.** Lists start at a blank node. -/
inductive Schema.RangeEdges (schema : Schema) : Option Range → List Edge → Prop
  | free : RangeEdges schema none []
  | ofType {name : String} {p : Primitive} (h : schema.resolveType? name = some p) :
    RangeEdges schema (some (.only (.toType name)))
      [(Sh.datatype, .iri p.datatype), (Sh.nodeKind, .iri Sh.literalKind)]
  | ofClass {name : String} {decl : ClassDecl} (h : schema.findClass? name = some decl) :
    RangeEdges schema (some (.only (.toClass name)))
      [(Sh.classIri, .iri decl.iri), (Sh.nodeKind, .iri Sh.resourceKind)]
  | ofEnum {name : String} (head : Nat) :
    RangeEdges schema (some (.only (.toEnum name))) [(Sh.inList, .blank head)]
  | ofUnion {targets : List Reference} (head : Nat) :
    RangeEdges schema (some (.anyOf targets)) [(Sh.orList, .blank head)]

/-- **What the shape of a slot says**, edge by edge. -/
def Slot.Meaning (schema : Schema) (options : Options) (slot : Slot) (order : Nat)
    (edges : List Edge) : Prop :=
  ∃ range default minimum maximum,
    schema.RangeEdges slot.range range ∧
    eachOption (slot.defaultLiteral schema) slot.default = .ok default ∧
    eachOption (slot.boundLiteral schema) slot.minimum = .ok minimum ∧
    eachOption (slot.boundLiteral schema) slot.maximum = .ok maximum ∧
    edges = [(Sh.path, .iri slot.path)] ++
      (if options.metadata then
        [(Sh.name, .literal ⟨slot.name, none⟩)] ++
          optionalEdge Sh.description (slot.description.map fun d => .literal ⟨d, none⟩) ++
          [(Sh.order, .literal ⟨toString order, some Xsd.integer⟩)]
      else []) ++
      optionalEdge Sh.minCount
        (slot.minCount.map fun n => .literal ⟨toString n.toNat, some Xsd.integer⟩) ++
      optionalEdge Sh.maxCount
        (slot.maxCount.map fun n => .literal ⟨toString n.toNat, some Xsd.integer⟩) ++
      range ++
      optionalEdge Sh.defaultValue (default.map .literal) ++
      optionalEdge Sh.pattern (slot.pattern.map fun r => .literal ⟨r, none⟩) ++
      optionalEdge Sh.minInclusive (minimum.map .literal) ++
      optionalEdge Sh.maxInclusive (maximum.map .literal)

/-- **What the shape of a class says** besides its slots. The list of a closed shape starts at the
blank node `cell`. -/
def ClassDecl.Meaning (options : Options) (decl : ClassDecl) (cell : Nat) : List Edge :=
  [(Rdf.type, .iri Sh.nodeShape), (Sh.targetClass, .iri decl.iri),
    (Sh.closed, .literal
      ⟨if decl.closed.getD options.closed then "true" else "false", some Xsd.boolean⟩)] ++
  (if decl.closed.getD options.closed then [(Sh.ignoredProperties, .blank cell)] else []) ++
  (if options.metadata then
    optionalEdge Sh.description (decl.description.map fun d => .literal ⟨d, none⟩) else [])

/-! ## One edge of a slot -/

/-- The predicates of bounds. -/
def boundPredicates : List Iri := [Sh.minInclusive, Sh.maxInclusive]

namespace Slot

/-- The bounds of a slot. -/
def bounds (slot : Slot) : List Scalar := slot.minimum.toList ++ slot.maximum.toList

/-- **What one edge of a slot says**: its path, a text, a number, something of its range, its
default or a bound. -/
inductive Says (schema : Schema) (slot : Slot) : Iri → Term → Prop
  | path : Says schema slot Sh.path (.iri slot.path)
  | text {p : Iri} (hp : p ∈ [Sh.name, Sh.description, Sh.pattern]) (s : String) :
    Says schema slot p (.literal ⟨s, none⟩)
  | number {p : Iri} (hp : p ∈ [Sh.order, Sh.minCount, Sh.maxCount]) (n : Nat) :
    Says schema slot p (.literal ⟨toString n, some Xsd.integer⟩)
  | range {found : List Edge} {p : Iri} {o : Term} (h : schema.RangeEdges slot.range found)
    (he : (p, o) ∈ found) : Says schema slot p o
  | default {value : Scalar} {l : Literal} (hvalue : value ∈ slot.default)
    (h : slot.defaultLiteral schema value = .ok l) : Says schema slot Sh.defaultValue (.literal l)
  | bound {p : Iri} {value : Scalar} {l : Literal} (hp : p ∈ boundPredicates)
    (hvalue : value ∈ slot.bounds) (h : slot.boundLiteral schema value = .ok l) :
    Says schema slot p (.literal l)

variable {schema : Schema} {options : Options} {slot : Slot} {order : Nat} {edges : List Edge}
  {p : Iri} {o : Term}

theorem mem_optionalEdge {q : Iri} {object : Option Term} (h : (p, o) ∈ optionalEdge q object) :
    p = q ∧ object = some o := by
  cases object with
  | none => cases h
  | some o' =>
    cases List.mem_singleton.1 h
    exact ⟨rfl, rfl⟩

/-- An edge that may not be there says something if it is. -/
theorem says_of_optionalEdge {α : Type} {q : Iri} {value : Option α} {object : α → Term}
    (hobject : ∀ a ∈ value, slot.Says schema q (object a))
    (h : (p, o) ∈ optionalEdge q (value.map object)) : slot.Says schema p o := by
  obtain ⟨rfl, ho⟩ := mem_optionalEdge h
  obtain ⟨a, ha, rfl⟩ := Option.map_eq_some_iff.1 ho
  exact hobject a ha

/-- **What a slot means** is what its edges say one by one. -/
theorem says_of_meaning (h : slot.Meaning schema options order edges) (he : (p, o) ∈ edges) :
    slot.Says schema p o := by
  obtain ⟨range, default, minimum, maximum, hrange, hdefault, hminimum, hmaximum, rfl⟩ := h
  simp only [List.mem_append] at he
  rcases he with (((((((he | he) | he) | he) | he) | he) | he) | he) | he
  · cases List.mem_singleton.1 he
    exact .path
  · split at he
    · simp only [List.mem_append, List.mem_singleton] at he
      rcases he with (he | he) | he
      · cases he
        exact .text (by decide) _
      · exact says_of_optionalEdge (fun d _ => .text (by decide) d) he
      · cases he
        exact .number (by decide) _
    · cases he
  · exact says_of_optionalEdge (fun n _ => .number (by decide) n.toNat) he
  · exact says_of_optionalEdge (fun n _ => .number (by decide) n.toNat) he
  · exact .range hrange he
  · refine says_of_optionalEdge (fun l hl => ?_) he
    obtain ⟨value, hvalue, hl⟩ := exists_of_eachOption hdefault l hl
    exact .default hvalue hl
  · exact says_of_optionalEdge (fun r _ => .text (by decide) r) he
  · refine says_of_optionalEdge (fun l hl => ?_) he
    obtain ⟨value, hvalue, hl⟩ := exists_of_eachOption hminimum l hl
    exact .bound (by decide) (List.mem_append_left _ (Option.mem_toList.2 hvalue)) hl
  · refine says_of_optionalEdge (fun l hl => ?_) he
    obtain ⟨value, hvalue, hl⟩ := exists_of_eachOption hmaximum l hl
    exact .bound (by decide) (List.mem_append_right _ (Option.mem_toList.2 hvalue)) hl

end Slot

/-! ## The edges that are built -/

/-- An edge of a fragment, without what describes its object. -/
def Fragment.toEdge (e : Iri × Fragment) : Edge := (e.1, e.2.node)

theorem mem_map_toEdge {edges : List (Iri × Fragment)} {p : Iri} {o : Term} :
    (p, o) ∈ edges.map Fragment.toEdge ↔ ∃ e ∈ edges, e.1 = p ∧ e.2.node = o := by
  simp [Fragment.toEdge]

theorem Slot.map_literalEdge (p : Iri) (literal : Option Literal) :
    (Slot.literalEdge p literal).map Fragment.toEdge = optionalEdge p (literal.map .literal) := by
  cases literal <;> rfl

/-- The edges of a range that is understood are those the schema gives it. -/
theorem Schema.rangeEdges_of_ok {schema : Schema} {range : Option Range} {c : Option Constraint}
    (h : eachOption schema.constraint range = .ok c) (next : Nat) :
    schema.RangeEdges range
      (((c.map fun c => c.edges next).getD []).map Fragment.toEdge) := by
  rcases eachOption_eq_ok.1 h with ⟨rfl, rfl⟩ | ⟨range, c, rfl, hc, rfl⟩
  · exact .free
  · rcases constraint_ok hc with ⟨name, p, rfl, hp, rfl⟩ | ⟨name, decl, rfl, hd, rfl⟩ |
      ⟨name, decl, rfl, -, hne, rfl⟩ | ⟨targets, found, rfl, hne, hf, rfl⟩
    · exact .ofType hp
    · exact .ofClass hd
    · -- an enumeration has a value, and so its list has a cell
      have hhead : (Fragment.collection (decl.values.map EnumValue.term) next).node =
          .blank next := by
        obtain ⟨v, vs, hv⟩ := List.exists_cons_of_ne_nil hne
        simp [hv, Fragment.collection, Fragment.cellOrNil]
      have : [(Sh.inList, Fragment.collection (decl.values.map EnumValue.term) next)].map
          Fragment.toEdge = [(Sh.inList, .blank next)] := by
        simp [Fragment.toEdge, hhead]
      exact this ▸ .ofEnum next
    · have hlen : found.length = targets.length := (alternatives_ok hf).length_eq.symm
      have hpos : 0 < found.length := hlen ▸ List.length_pos_iff.2 hne
      have hhead : (Alternative.disjunction found next).node =
          .blank (next + Alternative.shapesTaken found) := by
        simp [Alternative.disjunction, Fragment.collection, Fragment.cellOrNil,
          Alternative.length_shapes, hpos]
      have : [(Sh.orList, Alternative.disjunction found next)].map Fragment.toEdge =
          [(Sh.orList, .blank (next + Alternative.shapesTaken found))] := by
        simp [Fragment.toEdge, hhead]
      exact this ▸ .ofUnion _

/-- **The edges of a property shape** are what the slot means. -/
theorem Slot.meaning_of_ok {schema : Schema} {options : Options} {slot : Slot} {order : Nat}
    {typing : Typing} {values : SlotValues} (ht : slot.typing schema = .ok typing)
    (hv : slot.values typing = .ok values) (next : Nat) :
    slot.Meaning schema options order
      ((slot.propertyEdges options order typing values next).map Fragment.toEdge) := by
  obtain ⟨hd, hl, hu⟩ := values_ok ht hv
  refine ⟨_, values.default, values.minimum, values.maximum,
    Schema.rangeEdges_of_ok (typing_ok ht).1 next, hd, hl, hu, ?_⟩
  have hmeta : (if options.metadata then slot.metadataEdges order else []).map Fragment.toEdge =
      if options.metadata then
        [(Sh.name, .literal ⟨slot.name, none⟩)] ++
          optionalEdge Sh.description (slot.description.map fun d => .literal ⟨d, none⟩) ++
          [(Sh.order, .literal ⟨toString order, some Xsd.integer⟩)]
      else [] := by
    cases options.metadata with
    | false => rfl
    | true =>
      simp only [if_true, metadataEdges, List.map_append, map_literalEdge, Option.map_map]
      rfl
  simp only [propertyEdges, List.map_cons, List.map_append, map_literalEdge, hmeta,
    Option.map_map, List.append_assoc, List.singleton_append]
  rfl

theorem ClassDecl.map_shapeEdges (options : Options) (decl : ClassDecl) (next : Nat) :
    (decl.shapeEdges options next).map Fragment.toEdge = decl.Meaning options next := by
  have hlist : (if options.closes decl then
      [(Sh.ignoredProperties, Fragment.collection ignoredProperties next)] else []).map
        Fragment.toEdge =
      if decl.closed.getD options.closed then [(Sh.ignoredProperties, .blank next)] else [] := by
    unfold Options.closes
    cases decl.closed.getD options.closed with
    | false => rfl
    | true => simp [Fragment.toEdge, Fragment.collection, Fragment.cellOrNil, ignoredProperties]
  have hmeta : (if options.metadata then
      Slot.literalEdge Sh.description (decl.description.map .untyped) else []).map
        Fragment.toEdge =
      if options.metadata then
        optionalEdge Sh.description (decl.description.map fun d => .literal ⟨d, none⟩) else [] := by
    cases options.metadata with
    | false => rfl
    | true =>
      simp only [if_true, Slot.map_literalEdge, Option.map_map]
      rfl
  simp only [shapeEdges, List.map_append, hlist, hmeta, Meaning]
  rfl

/-! ## The graph -/

namespace Schema

variable {schema : Schema} {options : Options} {g : Graph}

/-- The edges of the node of a slot. -/
theorem mem_propertyNode (h : schema.compile options = .ok g) {i j : Nat} {decl : ClassDecl}
    {slot : Slot} (hs : schema.SlotAt i j decl slot) :
    ∃ edges, slot.Meaning schema options j edges ∧ (edges.map (·.1)).Nodup ∧
      ∀ p o, (⟨.blank (schema.propertyNode options i j), p, o⟩ : Triple) ∈ g ↔ (p, o) ∈ edges := by
  obtain ⟨typing, values, ht, hv, hedges, -⟩ := compile_slot h hs
  refine ⟨_, Slot.meaning_of_ok ht hv (schema.propertyNode options i j + 1), ?_, fun p o => ?_⟩
  · rw [List.map_map]
    exact Slot.nodup_predicates options slot j typing values _
  · rw [mem_map_toEdge, hedges]

/-- **The exact meaning of the graph of a schema.** Slot `j` of class `i` has a node of its own. The
properties of an IRI are the nodes of the slots of the classes whose shapes it names, the edges of
such a node are what the slot means, each with its own predicate, and the other edges of an IRI are
what those classes mean. -/
theorem compile_meaning (h : schema.compile options = .ok g) :
    (∀ i j i' j' decl decl' slot slot', schema.SlotAt i j decl slot →
      schema.SlotAt i' j' decl' slot' →
      schema.propertyNode options i j = schema.propertyNode options i' j' → i = i' ∧ j = j') ∧
    (∀ x o, o ∈ g.objects (.iri x) Sh.property ↔
      ∃ i j decl slot, schema.SlotAt i j decl slot ∧ options.shapeIri decl = x ∧
        o = .blank (schema.propertyNode options i j)) ∧
    (∀ i j decl slot, schema.SlotAt i j decl slot →
      ∃ edges, slot.Meaning schema options j edges ∧ (edges.map (·.1)).Nodup ∧
        ∀ p o, (⟨.blank (schema.propertyNode options i j), p, o⟩ : Triple) ∈ g ↔ (p, o) ∈ edges) ∧
    ∀ x p o, p ≠ Sh.property → ((⟨.iri x, p, o⟩ : Triple) ∈ g ↔
      ∃ i decl, schema.classes[i]? = some decl ∧ options.shapeIri decl = x ∧
        (p, o) ∈ decl.Meaning options (schema.classStart options i)) := by
  refine ⟨fun i j i' j' decl decl' slot slot' hs hs' heq => propertyNode_injective h hs hs' heq,
    fun x o => ?_, fun i j decl slot hs => mem_propertyNode h hs, fun x p o hp => ?_⟩
  · rw [Graph.mem_objects, compile_iri h]
    constructor
    · rintro ⟨i, decl, hi, hx, ⟨e, he, hp, -⟩ | ⟨-, j, slot, hs, ho⟩⟩
      · exact absurd hp (ClassDecl.predicate_ne_property he)
      · exact ⟨i, j, decl, slot, hs, hx, ho⟩
    · rintro ⟨i, j, decl, slot, hs, hx, ho⟩
      exact ⟨i, decl, hs.classAt, hx, Or.inr ⟨rfl, j, slot, hs, ho⟩⟩
  · rw [compile_iri h]
    constructor
    · rintro ⟨i, decl, hi, hx, he | ⟨hprop, -⟩⟩
      · exact ⟨i, decl, hi, hx, decl.map_shapeEdges options _ ▸ mem_map_toEdge.2 he⟩
      · exact absurd hprop hp
    · rintro ⟨i, decl, hi, hx, he⟩
      rw [← decl.map_shapeEdges options] at he
      exact ⟨i, decl, hi, hx, Or.inl (mem_map_toEdge.1 he)⟩

theorem compile_meaning_sample : ∃ g, sample.compile .standard = .ok g ∧
    .blank 11 ∈ g.objects (.iri "urn:Person") Sh.property ∧
    ∀ p o, (⟨.blank 10, p, o⟩ : Triple) ∈ g ↔ (p, o) ∈
      [(Sh.path, .iri "urn:age"), (Sh.name, .literal ⟨"age", none⟩),
        (Sh.order, .literal ⟨"1", some Xsd.integer⟩),
        (Sh.minCount, .literal ⟨"1", some Xsd.integer⟩), (Sh.datatype, .iri Xsd.integer),
        (Sh.nodeKind, .iri Sh.literalKind),
        (Sh.minInclusive, .literal ⟨"0", some Xsd.integer⟩)] := by
  obtain ⟨g, h⟩ : ∃ g, sample.compile .standard = .ok g := ⟨_, rfl⟩
  obtain ⟨-, hproperties, hslots, -⟩ := compile_meaning h
  refine ⟨g, h, (hproperties _ _).2 ⟨1, 0, _, _, ⟨rfl, rfl⟩, rfl, rfl⟩, fun p o => ?_⟩
  obtain ⟨edges, ⟨range, default, minimum, maximum, hr, hd, hl, hu, rfl⟩, -, hiff⟩ :=
    hslots 0 1 _ _ ⟨rfl, rfl⟩
  cases hr with
  | @ofType name q hq =>
    cases (show some Primitive.integer = some q from hq)
    cases hd
    cases hl
    cases hu
    exact hiff p o

end Schema

end SchemaShapes
