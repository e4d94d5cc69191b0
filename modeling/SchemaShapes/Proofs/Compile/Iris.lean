import SchemaShapes.Proofs.Compile.Literals
import SchemaShapes.Proofs.Compile.Origin
import SchemaShapes.Proofs.Compile.Ownership
import SchemaShapes.Proofs.Output.Ids

/-!
# The IRIs of a graph of shapes

An IRI in a graph of shapes belongs to the vocabulary, or the schema writes it as it stands: as the
IRI of a class or of its shape, the path of a slot, or what a value means. All that a schema writes
is somewhere in the graph.

* `Vocabulary`: the IRIs that are not the schema's.
* `Schema.iris`: the IRIs that a schema writes.
* `Schema.subject_of_mem`, `Schema.vocabulary_predicate`, `Schema.object_of_mem`: the IRIs of a
  triple.
* `Schema.forall_iris_iff`: what holds of the vocabulary holds of a graph if it holds of the schema.
-/

namespace SchemaShapes

open Output

/-! ## The vocabulary -/

/-- **An IRI of the vocabulary**: a local name in one of the namespaces. -/
def Vocabulary (i : Iri) : Prop :=
  ∃ n ∈ namespaces, ∃ s : String, isLocalName s.toList = true ∧ i = n.2 ++ s

/-- Local names make IRIs of the vocabulary. -/
theorem vocabulary_map {space : Iri} (hspace : ∃ n ∈ namespaces, n.2 = space)
    {names : List String} (h : ∀ s ∈ names, isLocalName s.toList = true) :
    ∀ i ∈ names.map (space ++ ·), Vocabulary i := by
  obtain ⟨n, hn, rfl⟩ := hspace
  exact List.forall_mem_map.2 fun s hs => ⟨n, hn, s, h s hs, rfl⟩

theorem isSpace_sh : ∃ n ∈ namespaces, n.2 = Sh.space := by simp [namespaces]

theorem isSpace_rdf : ∃ n ∈ namespaces, n.2 = Rdf.space := by simp [namespaces]

theorem isSpace_xsd : ∃ n ∈ namespaces, n.2 = Xsd.space := by simp [namespaces]

theorem vocabulary_slotPredicates : ∀ p ∈ slotPredicates, Vocabulary p := by
  have hnames : slotPredicates = ["path", "name", "description", "order", "minCount", "maxCount",
    "datatype", "class", "nodeKind", "in", "or", "defaultValue", "pattern", "minInclusive",
    "maxInclusive"].map (Sh.space ++ ·) := rfl
  rw [hnames]
  exact vocabulary_map isSpace_sh (by decide)

theorem vocabulary_listPredicates : ∀ p ∈ listPredicates, Vocabulary p := by
  have hnames : listPredicates = ["first", "rest"].map (Rdf.space ++ ·) ++
    ["datatype", "class", "in"].map (Sh.space ++ ·) := rfl
  rw [hnames]
  exact List.forall_mem_append.2 ⟨vocabulary_map isSpace_rdf (by decide),
    vocabulary_map isSpace_sh (by decide)⟩

/-- The IRIs at the shapes of classes, and what the list of a closed shape is made of. -/
theorem vocabulary_shapes : ∀ i ∈ [Rdf.type, Rdf.nil, Sh.nodeShape, Sh.targetClass, Sh.closed,
    Sh.description, Sh.property, Sh.ignoredProperties, Sh.literalKind, Sh.resourceKind],
    Vocabulary i := by
  have hnames : [Rdf.type, Rdf.nil, Sh.nodeShape, Sh.targetClass, Sh.closed, Sh.description,
      Sh.property, Sh.ignoredProperties, Sh.literalKind, Sh.resourceKind] =
    ["type", "nil"].map (Rdf.space ++ ·) ++ ["NodeShape", "targetClass", "closed", "description",
      "property", "ignoredProperties", "Literal", "BlankNodeOrIRI"].map (Sh.space ++ ·) := rfl
  rw [hnames]
  exact List.forall_mem_append.2 ⟨vocabulary_map isSpace_rdf (by decide),
    vocabulary_map isSpace_sh (by decide)⟩

theorem vocabulary_datatype (p : Primitive) : Vocabulary p.datatype := by
  have hp : p ∈ Primitive.all := by cases p <;> decide
  have hnames : Primitive.all.map Primitive.datatype = ["string", "boolean", "integer", "decimal",
    "float", "double", "date", "dateTime", "time", "anyURI"].map (Xsd.space ++ ·) := rfl
  have hall : ∀ i ∈ Primitive.all.map Primitive.datatype, Vocabulary i := by
    rw [hnames]
    exact vocabulary_map isSpace_xsd (by decide)
  exact hall _ (List.mem_map_of_mem hp)

theorem isIriChar_of_isLocalChar {c : Char} (h : isLocalChar c = true) : isIriChar c = true := by
  have hpunctuation : ∀ d ∈ ['<', '>', '"', '\x7b', '\x7d', '|', '^', '\x60', '\\'],
      isLocalChar d = false := by simp [isLocalChar]
  have hmem : c ∉ ['<', '>', '"', '\x7b', '\x7d', '|', '^', '\x60', '\\'] := fun k => by
    rw [hpunctuation c k] at h
    cases h
  have hsize : 0x20 < c.toNat := by
    simp only [isLocalChar, Bool.or_eq_true, Bool.and_eq_true, decide_eq_true_eq, beq_iff_eq,
      Char.le_def, UInt32.le_iff_toNat_le] at h
    rcases h with ((h | h) | h) | rfl
    · exact Nat.lt_of_lt_of_le (by decide) h.1
    · exact Nat.lt_of_lt_of_le (by decide) h.1
    · exact Nat.lt_of_lt_of_le (by decide) h.1
    · decide
  simp [isIriChar, hsize, hmem]

/-- The vocabulary needs no escape. -/
theorem Vocabulary.plainIri {i : Iri} (h : Vocabulary i) : PlainIri i := by
  obtain ⟨n, hn, s, hs, rfl⟩ := h
  obtain ⟨-, -, -, -, hall⟩ := isLocalName_cases hs
  exact (plainIri_namespaces n hn).append fun c hc => isIriChar_of_isLocalChar (hall c hc)

/-- The vocabulary stands for itself. -/
theorem Vocabulary.plainName {i : Iri} (h : Vocabulary i) : PlainName i := by
  obtain ⟨n, hn, s, -, rfl⟩ := h
  exact JsonLd.plainName_namespace hn s

/-- A literal whose datatype is of the vocabulary, if it has one. -/
def Literal.Known (l : Literal) : Prop := ∀ d ∈ l.datatype, Vocabulary d

theorem Literal.known_untyped {l : Literal} (h : l.datatype = none) : l.Known := by
  simp [Known, h]

theorem Literal.known_typed (p : Primitive) (s : String) :
    Literal.Known ⟨s, some p.datatype⟩ := by
  intro d hd
  cases hd
  exact vocabulary_datatype p

theorem Primitive.known_encode {p : Primitive} {value : Scalar} {l : Literal}
    (h : p.encode value = .ok l) : l.Known := by
  obtain ⟨text, -, rfl⟩ := map_eq_ok.1 h
  exact Literal.known_typed p text

/-! ## What slots and classes say -/

namespace Slot

variable {schema : Schema} {options : Options} {slot : Slot} {order : Nat} {edges : List Edge}
  {p : Iri} {o : Term}

theorem known_defaultLiteral {value : Scalar} {l : Literal}
    (h : slot.defaultLiteral schema value = .ok l) : l.Known := by
  unfold defaultLiteral at h
  split at h
  · exact Primitive.known_encode h
  · cases h
    exact Literal.known_untyped rfl

theorem known_boundLiteral {value : Scalar} {l : Literal}
    (h : slot.boundLiteral schema value = .ok l) : l.Known := by
  unfold boundLiteral at h
  split at h
  · exact Primitive.known_encode h
  · cases value with
    | bool b => exact Primitive.known_encode h
    | integer n => exact Primitive.known_encode h
    | real x => exact Primitive.known_encode h
    | text s =>
      cases h
      exact Literal.known_untyped rfl

/-- **What an edge of a slot leads to.** -/
inductive Object (schema : Schema) (slot : Slot) (p : Iri) : Term → Prop
  | path : Object schema slot p (.iri slot.path)
  | range {o : Term} (h : (p, o) ∈ schema.rangeReadings slot) : Object schema slot p o
  | kind {i : Iri} (h : Vocabulary i) : Object schema slot p (.iri i)
  | list (n : Nat) : Object schema slot p (.blank n)
  | value {l : Literal} (h : l.Known) : Object schema slot p (.literal l)

theorem object_of_rangeEdges {range : List Edge} (h : schema.RangeEdges slot.range range)
    (he : (p, o) ∈ range) : p ∈ slotPredicates ∧ slot.Object schema p o := by
  cases hr : slot.range with
  | none =>
    rw [hr] at h
    cases h
    cases he
  | some r =>
    rw [hr] at h
    cases h with
    | @ofType name q hq =>
      have hread : (Sh.datatype, .iri q.datatype) ∈ schema.rangeReadings slot := by
        simp [Schema.rangeReadings, hr, Range.references, Schema.readings, hq]
      simp only [List.mem_cons, Prod.mk.injEq, List.not_mem_nil, or_false] at he
      rcases he with ⟨rfl, rfl⟩ | ⟨rfl, rfl⟩
      · exact ⟨by decide, .range hread⟩
      · exact ⟨by decide, .kind (vocabulary_shapes _ (by simp))⟩
    | @ofClass name decl hd =>
      have hread : (Sh.classIri, .iri decl.iri) ∈ schema.rangeReadings slot := by
        simp [Schema.rangeReadings, hr, Range.references, Schema.readings, hd]
      simp only [List.mem_cons, Prod.mk.injEq, List.not_mem_nil, or_false] at he
      rcases he with ⟨rfl, rfl⟩ | ⟨rfl, rfl⟩
      · exact ⟨by decide, .range hread⟩
      · exact ⟨by decide, .kind (vocabulary_shapes _ (by simp))⟩
    | ofEnum head =>
      cases List.mem_singleton.1 he
      exact ⟨by decide, .list head⟩
    | ofUnion head =>
      cases List.mem_singleton.1 he
      exact ⟨by decide, .list head⟩

/-- **What a slot says** has its predicates, and leads to such objects. -/
theorem object_of_meaning (h : slot.Meaning schema options order edges) (he : (p, o) ∈ edges) :
    p ∈ slotPredicates ∧ slot.Object schema p o := by
  have htext : ∀ q ∈ [Sh.name, Sh.description, Sh.pattern], q ∈ slotPredicates := by decide
  have hnumber : ∀ q ∈ [Sh.order, Sh.minCount, Sh.maxCount], q ∈ slotPredicates := by decide
  have hbound : ∀ q ∈ boundPredicates, q ∈ slotPredicates := by decide
  cases says_of_meaning h he with
  | path => exact ⟨by decide, .path⟩
  | text hp s => exact ⟨htext p hp, .value (Literal.known_untyped rfl)⟩
  | number hp n => exact ⟨hnumber p hp, .value (Literal.known_typed .integer _)⟩
  | range hrange he => exact object_of_rangeEdges hrange he
  | default _ hl => exact ⟨by decide, .value (known_defaultLiteral hl)⟩
  | bound hp _ hl => exact ⟨hbound p hp, .value (known_boundLiteral hl)⟩

end Slot

namespace Schema

/-- The IRIs that a schema writes of a slot: its path, and what the names in its range mean. -/
def slotIris (schema : Schema) (slot : Slot) : List Iri :=
  slot.path :: (schema.rangeReadings slot).flatMap fun e => e.2.iris

/-- **The IRIs that a schema writes**: of each class its own, that of its shape, and those of its
slots. -/
def iris (schema : Schema) (options : Options) : List Iri :=
  schema.classes.flatMap fun decl =>
    options.shapeIri decl :: decl.iri :: decl.slots.flatMap schema.slotIris

/-- **An object of a graph of shapes.** -/
inductive Object (schema : Schema) (options : Options) : Term → Prop
  | blank (n : Nat) : Object schema options (.blank n)
  | literal {l : Literal} (h : l.Known) : Object schema options (.literal l)
  | vocabulary {i : Iri} (h : Vocabulary i) : Object schema options (.iri i)
  | written {i : Iri} (h : i ∈ schema.iris options) : Object schema options (.iri i)

variable {schema : Schema} {options : Options} {g : Graph} {i j : Nat} {decl : ClassDecl}
  {slot : Slot} {p x : Iri} {o : Term} {t : Triple}

theorem mem_iris_of_decl (hdecl : decl ∈ schema.classes)
    (hx : x ∈ options.shapeIri decl :: decl.iri :: decl.slots.flatMap schema.slotIris) :
    x ∈ schema.iris options :=
  List.mem_flatMap.2 ⟨decl, hdecl, hx⟩

theorem SlotAt.mem_iris (hs : schema.SlotAt i j decl slot) (hx : x ∈ schema.slotIris slot) :
    x ∈ schema.iris options :=
  mem_iris_of_decl (List.mem_of_getElem? hs.classAt) (List.mem_cons_of_mem _ (List.mem_cons_of_mem _
    (List.mem_flatMap.2 ⟨slot, List.mem_of_getElem? hs.slotAt, hx⟩)))

/-- What a name in a range stands for is a text, or an IRI that the schema writes. -/
theorem SlotAt.object_of_reading (hs : schema.SlotAt i j decl slot)
    (h : (p, o) ∈ schema.rangeReadings slot) : schema.Object options o := by
  have hiris : ∀ x ∈ o.iris, x ∈ schema.iris options := fun x hx =>
    hs.mem_iris (List.mem_cons_of_mem _ (List.mem_flatMap.2 ⟨_, h, hx⟩))
  cases o with
  | iri x => exact .written (hiris x List.mem_cons_self)
  | blank n => exact .blank n
  | literal l => exact .literal (Literal.known_untyped (untyped_of_mem_rangeReadings h))

theorem object_of_classMeaning {cell : Nat} (hdecl : decl ∈ schema.classes)
    (h : (p, o) ∈ decl.Meaning options cell) : Vocabulary p ∧ schema.Object options o := by
  have hiri : decl.iri ∈ schema.iris options := mem_iris_of_decl hdecl (by simp)
  simp only [ClassDecl.Meaning, List.mem_append, List.mem_cons, List.not_mem_nil, or_false,
    Prod.mk.injEq] at h
  rcases h with ((⟨rfl, rfl⟩ | ⟨rfl, rfl⟩ | ⟨rfl, rfl⟩) | h) | h
  · exact ⟨vocabulary_shapes _ (by simp), .vocabulary (vocabulary_shapes _ (by simp))⟩
  · exact ⟨vocabulary_shapes _ (by simp), .written hiri⟩
  · exact ⟨vocabulary_shapes _ (by simp), .literal (Literal.known_typed .boolean _)⟩
  · split at h
    · cases List.mem_singleton.1 h
      exact ⟨vocabulary_shapes _ (by simp), .blank cell⟩
    · cases h
  · split at h
    · obtain ⟨rfl, ho⟩ := Slot.mem_optionalEdge h
      obtain ⟨d, -, rfl⟩ := Option.map_eq_some_iff.1 ho
      exact ⟨vocabulary_shapes _ (by simp), .literal (Literal.known_untyped rfl)⟩
    · cases h

theorem predicate_of_reading (h : (p, o) ∈ schema.rangeReadings slot) : p ∈ listPredicates := by
  obtain ⟨r, -, hr⟩ := List.mem_flatMap.1 h
  cases r with
  | toType name =>
    obtain ⟨q, -, heq⟩ := List.mem_map.1 hr
    cases heq
    decide
  | toClass name =>
    obtain ⟨d, -, heq⟩ := List.mem_map.1 hr
    cases heq
    decide
  | toEnum name =>
    obtain ⟨v, -, heq⟩ := List.mem_map.1 hr
    cases heq
    decide

/-- **Predicates and objects by their origin.** -/
theorem Origin.object (h : schema.Origin options t) :
    Vocabulary t.predicate ∧ schema.Object options t.object := by
  cases h with
  | shape hi he => exact object_of_classMeaning (List.mem_of_getElem? hi) he
  | property hs => exact ⟨vocabulary_shapes _ (by simp), .blank _⟩
  | slot hs hm he =>
    obtain ⟨hp, ho⟩ := Slot.object_of_meaning hm he
    refine ⟨vocabulary_slotPredicates _ hp, ?_⟩
    cases ho with
    | path => exact .written (hs.mem_iris List.mem_cons_self)
    | range hread => exact hs.object_of_reading hread
    | kind hk => exact .vocabulary hk
    | list n => exact .blank n
    | value hl => exact .literal hl
  | ignored ho =>
    rw [List.mem_singleton.1 ho]
    exact ⟨vocabulary_listPredicates _ (by simp [listPredicates]),
      .vocabulary (vocabulary_shapes _ (by simp))⟩
  | listed hs he =>
    exact ⟨vocabulary_listPredicates _ (predicate_of_reading he), hs.object_of_reading he⟩
  | link hp ho =>
    refine ⟨vocabulary_listPredicates _ hp, ?_⟩
    rcases ho with ⟨n, rfl⟩ | rfl
    · exact .blank n
    · exact .vocabulary (vocabulary_shapes _ (by simp))

/-! ## Graphs -/

theorem vocabulary_predicate (h : schema.compile options = .ok g) (ht : t ∈ g) :
    Vocabulary t.predicate :=
  (compile_origin h ht).object.1

theorem object_of_mem (h : schema.compile options = .ok g) (ht : t ∈ g) :
    schema.Object options t.object :=
  (compile_origin h ht).object.2

/-- **An IRI that is a subject** is that of the shape of a class, and said to be one. -/
theorem subject_of_mem (h : schema.compile options = .ok g)
    (ht : (⟨.iri x, p, o⟩ : Triple) ∈ g) :
    x ∈ schema.iris options ∧ (⟨.iri x, Rdf.type, .iri Sh.nodeShape⟩ : Triple) ∈ g := by
  obtain ⟨i, decl, hi, rfl, -⟩ := (compile_iri h).1 ht
  refine ⟨mem_iris_of_decl (List.mem_of_getElem? hi) List.mem_cons_self, ?_⟩
  exact (compile_iri h).2 ⟨i, decl, hi, rfl,
    Or.inl ⟨(Rdf.type, .leaf (.iri Sh.nodeShape)), by simp [ClassDecl.shapeEdges], rfl, rfl⟩⟩

/-- The object of a slot's path. -/
theorem path_mem (h : schema.compile options = .ok g) (hs : schema.SlotAt i j decl slot) :
    (⟨.blank (schema.propertyNode options i j), Sh.path, .iri slot.path⟩ : Triple) ∈ g := by
  obtain ⟨edges, ⟨_, _, _, _, -, -, -, -, rfl⟩, -, hiff⟩ := mem_propertyNode h hs
  exact (hiff _ _).2 (by simp)

/-- **All that a schema writes is in the graph**, as a subject or an object. -/
theorem exists_of_mem_iris (h : schema.compile options = .ok g) (hx : x ∈ schema.iris options) :
    ∃ t ∈ g, t.subject = .iri x ∨ t.object = .iri x := by
  obtain ⟨decl, hdecl, hx⟩ := List.mem_flatMap.1 hx
  obtain ⟨i, hi⟩ := List.mem_iff_getElem?.1 hdecl
  have hshape : ∀ e ∈ decl.shapeEdges options (schema.classStart options i),
      (⟨.iri (options.shapeIri decl), e.1, e.2.node⟩ : Triple) ∈ g := fun e he =>
    (compile_iri h).2 ⟨i, decl, hi, rfl, Or.inl ⟨e, he, rfl, rfl⟩⟩
  have htarget : (Sh.targetClass, Fragment.leaf (.iri decl.iri)) ∈
      decl.shapeEdges options (schema.classStart options i) := by simp [ClassDecl.shapeEdges]
  -- the edge of a shape to its class has both, and the slots have the others
  rcases List.mem_cons.1 hx with rfl | hx
  · exact ⟨_, hshape _ htarget, Or.inl rfl⟩
  rcases List.mem_cons.1 hx with rfl | hx
  · exact ⟨_, hshape _ htarget, Or.inr rfl⟩
  obtain ⟨slot, hslot, hx⟩ := List.mem_flatMap.1 hx
  obtain ⟨j, hj⟩ := List.mem_iff_getElem?.1 hslot
  have hs : schema.SlotAt i j decl slot := ⟨hi, hj⟩
  rcases List.mem_cons.1 hx with rfl | hx
  · exact ⟨_, path_mem h hs, Or.inr rfl⟩
  · obtain ⟨⟨p, o⟩, hread, hx⟩ := List.mem_flatMap.1 hx
    obtain ⟨n, hn⟩ := exists_mem_of_mem_rangeReadings h hs hread
    cases o with
    | iri y =>
      obtain rfl := List.mem_singleton.1 hx
      exact ⟨_, hn, Or.inr rfl⟩
    | blank n => cases hx
    | literal l =>
      have hnone := untyped_of_mem_rangeReadings hread
      simp [Term.iris, hnone] at hx

/-- **What holds of the vocabulary** holds of all IRIs of a graph exactly if it holds of those that
the schema writes. -/
theorem forall_iris_iff (h : schema.compile options = .ok g) {P : Iri → Prop}
    (hP : ∀ x, Vocabulary x → P x) :
    (∀ t ∈ g, ∀ x ∈ t.iris, P x) ↔ ∀ x ∈ schema.iris options, P x := by
  constructor
  · intro hall x hx
    obtain ⟨t, ht, hsubject | hobject⟩ := exists_of_mem_iris h hx
    · exact hall t ht x (by simp [Triple.iris, Term.iris, hsubject])
    · exact hall t ht x (by simp [Triple.iris, Term.iris, hobject])
  · rintro hall ⟨s, p, o⟩ ht x hx
    rcases List.mem_append.1 hx with hx | hx
    · cases s with
      | iri y =>
        obtain rfl := List.mem_singleton.1 hx
        exact hall x (subject_of_mem h ht).1
      | blank n => cases hx
      | literal l => exact absurd rfl ((compile_ownership h).subjects _ ht l)
    · rcases List.mem_cons.1 hx with rfl | hx
      · exact hP _ (vocabulary_predicate h ht)
      · cases object_of_mem h ht with
        | blank n => cases hx
        | literal hl => exact hP x (hl x (by simpa [Term.iris] using hx))
        | vocabulary hv => exact List.mem_singleton.1 hx ▸ hP _ hv
        | written hw => exact List.mem_singleton.1 hx ▸ hall _ hw

end Schema

end SchemaShapes
