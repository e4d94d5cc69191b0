import SchemaShapes.Proofs.Rdf.Index
import SchemaShapes.Proofs.Shape.Layout
import SchemaShapes.Proofs.Shape.Predicates

/-!
# The node of each slot

A class and a slot are told by their indices. The shape of a slot has the blank node that is next
when the slots before it are built, and the graph says of this node what its property shape says.
The list of a closed shape starts where the class does; lists and slots are the **sites** of a
schema.

* `Schema.propertyNode`: the number of the node of a slot.
* `Schema.compile_class`, `Schema.compile_slot`: what the graph holds of a class and of a slot.
* `Schema.compile_sites`: the blank nodes that IRIs lead to.
* `Schema.siteNode_injective`, `Schema.propertyNode_injective`: each site has a node of its own.
-/

namespace SchemaShapes.Schema

open Fragment

/-- The number of blank nodes taken before a class. -/
def classStart (schema : Schema) (options : Options) (i : Nat) : Nat :=
  Run.startOf (schema.nodeShape options) schema.classes 0 i

/-- **The node of a slot**: slot `j` of class `i`. -/
def propertyNode (schema : Schema) (options : Options) (i j : Nat) : Nat :=
  match schema.classes[i]? with
  | none => 0
  | some decl =>
    Run.startOf (fun s next => schema.propertyShape options decl s.1 s.2 next) decl.slots.zipIdx
      (schema.classStart options i + decl.taken options) j

/-- A schema whose two classes share their name and their shape. -/
def sample : Schema where
  name := "sample"
  id := "urn:sample"
  classes :=
    [{ name := "Person", iri := "urn:Person", description := some "A person.", closed := none,
       slots :=
        [{ Slot.bare "status" "urn:status" with
            range := some (.anyOf [.toType "age", .toEnum "Status", .toClass "Person"])
            default := some (.text "7"), defaultType := some "integer" },
         { Slot.bare "age" "urn:age" with
            range := some (.only (.toType "age")), minimum := some (.integer 0),
            minCount := some 1 }] },
     { name := "Person", iri := "urn:Person", description := none, closed := some false,
       slots :=
        [{ Slot.bare "state" "urn:status" with range := some (.only (.toEnum "Status")) }] }]
  enums := [⟨"Status", [⟨"active", some "urn:active"⟩, ⟨"other", none⟩]⟩]
  types := [⟨"age", some "integer", none⟩]

example : sample.propertyNode .standard 1 0 = 11 := by decide

/-- Slot `j` of class `i`. -/
structure SlotAt (schema : Schema) (i j : Nat) (decl : ClassDecl) (slot : Slot) : Prop where
  classAt : schema.classes[i]? = some decl
  slotAt : decl.slots[j]? = some slot

variable {schema : Schema} {options : Options} {g : Graph}

variable {shapes properties : List Fragment} {i j : Nat} {decl : ClassDecl} {slot : Slot}

/-- **What is built of a class**: its node shape, from the shapes of its slots. -/
structure Built (schema : Schema) (options : Options) (shapes : List Fragment) (i : Nat)
    (decl : ClassDecl) (properties : List Fragment) : Prop where
  built : (schema.propertyShapes options decl
    (schema.classStart options i + decl.taken options)).outcome = .ok properties
  shape : shapes[i]? = some (.describe (.iri (options.shapeIri decl))
    (decl.nodeEdges options (schema.classStart options i) properties))
  branches : ∀ e ∈ decl.nodeEdges options (schema.classStart options i) properties, e.2.Branch

/-- **The node shapes of a graph**: one that is built for each class, and no others. -/
theorem compile_shapes (h : schema.compile options = .ok g) :
    ∃ shapes, g.Forest shapes (schema.compileRun options).taken ∧
      (∀ i decl, schema.classes[i]? = some decl →
        ∃ properties, schema.Built options shapes i decl properties) ∧
      ∀ f ∈ shapes, ∃ i decl properties, schema.classes[i]? = some decl ∧
        schema.Built options shapes i decl properties ∧
        f = .describe (.iri (options.shapeIri decl))
          (decl.nodeEdges options (schema.classStart options i) properties) := by
  obtain ⟨shapes, hs, -, -⟩ := compile_ok h
  have hbuilt : ∀ i decl, schema.classes[i]? = some decl →
      ∃ properties, schema.Built options shapes i decl properties := by
    intro i decl hi
    obtain ⟨f, hf, hrun⟩ := Run.getElem?_traverse hs hi
    obtain ⟨properties, hp, rfl⟩ := nodeShape_ok hrun
    exact ⟨properties, hp, hf, fun e he => (spans_nodeEdges hp).branch_of_mem he⟩
  refine ⟨shapes, compile_forest h hs, hbuilt, fun f hf => ?_⟩
  obtain ⟨i, decl, hi, hfi, -⟩ := Run.exists_of_mem_traverse hs hf
  obtain ⟨properties, hb⟩ := hbuilt i decl hi
  exact ⟨i, decl, properties, hi, hb, Option.some.inj (hfi.symm.trans hb.shape)⟩

theorem Built.mem_shapes (h : schema.Built options shapes i decl properties) :
    .describe (.iri (options.shapeIri decl))
      (decl.nodeEdges options (schema.classStart options i) properties) ∈ shapes :=
  List.mem_of_getElem? h.shape

/-- A slot of a class that is built has a property shape, at its node. -/
theorem Built.propertyShape (h : schema.Built options shapes i decl properties)
    (hs : schema.SlotAt i j decl slot) :
    ∃ f, properties[j]? = some f ∧ (schema.propertyShape options decl slot j
      (schema.propertyNode options i j)).outcome = .ok f := by
  have hz : decl.slots.zipIdx[j]? = some (slot, j) := by simp [hs.slotAt]
  obtain ⟨f, hf, hrun⟩ := Run.getElem?_traverse h.built hz
  refine ⟨f, hf, ?_⟩
  rw [propertyNode, hs.classAt]
  exact hrun

theorem Built.node_eq (h : schema.Built options shapes i decl properties)
    (hs : schema.SlotAt i j decl slot) {f : Fragment} (hf : properties[j]? = some f) :
    f.node = .blank (schema.propertyNode options i j) := by
  obtain ⟨f', hf', hrun⟩ := h.propertyShape hs
  rw [hf, Option.some.injEq] at hf'
  subst hf'
  obtain ⟨typing, values, -, -, rfl, -⟩ := propertyShape_ok hrun
  rfl

/-- The slots of a class have their shapes in order. -/
theorem Built.exists_slot (h : schema.Built options shapes i decl properties)
    (hi : schema.classes[i]? = some decl) {f : Fragment} (hf : properties[j]? = some f) :
    ∃ slot, schema.SlotAt i j decl slot := by
  obtain ⟨⟨slot, k⟩, hz, -⟩ := Run.exists_of_getElem?_traverse h.built hf
  have hj : decl.slots[j]? = some slot := by
    rw [List.getElem?_zipIdx, Option.map_eq_some_iff] at hz
    obtain ⟨s, hs, he⟩ := hz
    cases he
    exact hs
  exact ⟨slot, hi, hj⟩

/-- **The edges of an IRI** are those of the classes whose shapes it names. -/
theorem compile_iri (h : schema.compile options = .ok g) {x p : Iri} {o : Term} :
    (⟨.iri x, p, o⟩ : Triple) ∈ g ↔
      ∃ i decl, schema.classes[i]? = some decl ∧ options.shapeIri decl = x ∧
        ((∃ e ∈ decl.shapeEdges options (schema.classStart options i), e.1 = p ∧ e.2.node = o) ∨
          p = Sh.property ∧ ∃ j slot, schema.SlotAt i j decl slot ∧
            o = .blank (schema.propertyNode options i j)) := by
  obtain ⟨shapes, hforest, hbuilt, hshapes⟩ := compile_shapes h
  rw [hforest.mem_iff]
  constructor
  · rintro ⟨f, hf, ht⟩
    obtain ⟨i, decl, properties, hdecl, hb, rfl⟩ := hshapes f hf
    obtain ⟨hx, e, he, hp, ho⟩ := (mem_describe_of_iri hb.branches).1 ht
    refine ⟨i, _, hdecl, hx, ?_⟩
    rcases List.mem_append.1 he with he | he
    · exact Or.inl ⟨e, he, hp, ho⟩
    · obtain ⟨q, hq, rfl⟩ := List.mem_map.1 he
      obtain ⟨j, hj⟩ := List.mem_iff_getElem?.1 hq
      obtain ⟨slot, hs⟩ := hb.exists_slot hdecl hj
      exact Or.inr ⟨hp.symm, j, slot, hs, ho.symm.trans (hb.node_eq hs hj)⟩
  · rintro ⟨i, decl, hdecl, hx, hedge⟩
    obtain ⟨properties, hb⟩ := hbuilt i decl hdecl
    refine ⟨_, hb.mem_shapes, (mem_describe_of_iri hb.branches).2 ⟨hx, ?_⟩⟩
    rcases hedge with ⟨e, he, hp, ho⟩ | ⟨rfl, j, slot, hs, rfl⟩
    · exact ⟨e, List.mem_append_left _ he, hp, ho⟩
    · obtain ⟨q, hq, -⟩ := hb.propertyShape hs
      exact ⟨(Sh.property, q), List.mem_append_right _
        (List.mem_map_of_mem (List.mem_of_getElem? hq)), rfl, hb.node_eq hs hq⟩

/-- **What is said of shapes only.** A predicate that is used neither for a slot nor in or below the
shape of one is that of an edge of the shape of a class, or is in its list. -/
theorem compile_shapeEdge (h : schema.compile options = .ok g) {s o : Term} {p : Iri}
    (ht : (⟨s, p, o⟩ : Triple) ∈ g) (hproperty : p ≠ Sh.property) (hslot : p ∉ slotPredicates)
    (hlist : p ∉ listPredicates) :
    ∃ i decl e, schema.classes[i]? = some decl ∧
      e ∈ decl.shapeEdges options (schema.classStart options i) ∧
      s = .iri (options.shapeIri decl) ∧ e.1 = p ∧ e.2.node = o := by
  obtain ⟨shapes, hforest, -, hshapes⟩ := compile_shapes h
  obtain ⟨f, hf, htf⟩ := hforest.mem_iff.1 ht
  obtain ⟨i, decl, properties, hi, hb, rfl⟩ := hshapes f hf
  obtain ⟨e, he, hte⟩ := mem_describe.1 htf
  -- an edge of the shape itself, or a triple below one of its slots
  rcases List.mem_append.1 he with he | he
  · rcases hte with heq | hte
    · obtain ⟨hs, hp, ho⟩ := Triple.mk.inj heq
      exact ⟨i, decl, e, hi, he, hs, hp.symm, ho.symm⟩
    · rcases ClassDecl.mem_shapeEdges_cases he with ⟨-, hnil⟩ | ⟨-, rfl⟩
      · simp [hnil] at hte
      · exact absurd (predicate_of_mem_cells hte) hlist
  · obtain ⟨q, hq, rfl⟩ := List.mem_map.1 he
    rcases hte with heq | hte
    · exact absurd (Triple.mk.inj heq).2.1 hproperty
    · obtain ⟨_, _, -, -, hrun⟩ := Run.exists_of_mem_traverse hb.built hq
      obtain ⟨typing, values, -, -, rfl, -⟩ := propertyShape_ok hrun
      exact absurd (Slot.predicate_of_mem hte) (by simp [hslot, hlist])

/-- **What the graph holds of a slot**: at its node the edges of its property shape, and what these
lead to. -/
theorem compile_slot (h : schema.compile options = .ok g) (hs : schema.SlotAt i j decl slot) :
    ∃ typing values, slot.typing schema = .ok typing ∧ slot.values typing = .ok values ∧
      (∀ p o, (⟨.blank (schema.propertyNode options i j), p, o⟩ : Triple) ∈ g ↔
        ∃ e ∈ slot.propertyEdges options j typing values (schema.propertyNode options i j + 1),
          e.1 = p ∧ e.2.node = o) ∧
      ∀ e ∈ slot.propertyEdges options j typing values (schema.propertyNode options i j + 1),
        g.Embeds e.2 := by
  obtain ⟨shapes, hforest, hbuilt, -⟩ := compile_shapes h
  obtain ⟨properties, hb⟩ := hbuilt i decl hs.classAt
  -- the graph embeds the shape of the class, and with it that of the slot
  obtain ⟨f, hf, hrun⟩ := hb.propertyShape hs
  have hedge : (Sh.property, f) ∈ decl.nodeEdges options (schema.classStart options i) properties :=
    List.mem_append_right _ (List.mem_map_of_mem (List.mem_of_getElem? hf))
  have hembeds := (hforest.embeds hb.mem_shapes).edge (hforest.nodup_owned hb.mem_shapes)
    hb.branches hedge
  have hnodup := (spans_propertyShape hrun).nodup_owned
  obtain ⟨typing, values, ht, hv, rfl, -⟩ := propertyShape_ok hrun
  have hbranches : ∀ e ∈ slot.propertyEdges options j typing values
      (schema.propertyNode options i j + 1), e.2.Branch := fun e he =>
    (Slot.spans_propertyEdges options slot j values (typing_ground ht) _).branch_of_mem he
  exact ⟨typing, values, ht, hv, fun p o => hembeds.mem_iff hnodup hbranches,
    fun e he => hembeds.edge hnodup hbranches he⟩

/-! ## Sites -/

/-- **A site of a schema**: the list of the shape of class `i`, or its slot `j`. -/
inductive Site where
  | list (i : Nat)
  | slot (i j : Nat)
deriving DecidableEq

/-- The class of a site. -/
def Site.index : Site → Nat
  | .list i => i
  | .slot i _ => i

/-- The predicate that leads to a site. -/
def Site.predicate : Site → Iri
  | .list _ => Sh.ignoredProperties
  | .slot _ _ => Sh.property

/-- The sites that a schema has. Only closed shapes have a list. -/
def HasSite (schema : Schema) (options : Options) : Site → Prop
  | .list i => ∃ decl, schema.classes[i]? = some decl ∧ options.closes decl = true
  | .slot i j => ∃ decl slot, schema.SlotAt i j decl slot

/-- **The number of the node of a site.** -/
def siteNode (schema : Schema) (options : Options) : Site → Nat
  | .list i => schema.classStart options i
  | .slot i j => schema.propertyNode options i j

theorem HasSite.exists_class {site : Site} (h : schema.HasSite options site) :
    ∃ decl, schema.classes[site.index]? = some decl := by
  cases site with
  | list i =>
    obtain ⟨decl, hi, -⟩ := h
    exact ⟨decl, hi⟩
  | slot i j =>
    obtain ⟨decl, slot, hs⟩ := h
    exact ⟨decl, hs.classAt⟩

theorem HasSite.closes (h : schema.HasSite options (.list i))
    (hi : schema.classes[i]? = some decl) : options.closes decl = true := by
  obtain ⟨decl', hi', hc⟩ := h
  rw [hi, Option.some.injEq] at hi'
  exact hi' ▸ hc

theorem HasSite.exists_slot (h : schema.HasSite options (.slot i j))
    (hi : schema.classes[i]? = some decl) : ∃ slot, schema.SlotAt i j decl slot := by
  obtain ⟨decl', slot, hs⟩ := h
  have hd := hs.classAt
  rw [hi, Option.some.injEq] at hd
  exact ⟨slot, hd ▸ hs⟩

theorem list_mem_shapeEdges (h : options.closes decl = true) (next : Nat) :
    (Sh.ignoredProperties, collection ignoredProperties next) ∈ decl.shapeEdges options next := by
  simp [ClassDecl.shapeEdges, h]

theorem node_ignoredProperties (next : Nat) :
    (collection ignoredProperties next).node = .blank next := by
  simp [collection, cellOrNil, ignoredProperties]

theorem Built.nodup_edges (h : schema.Built options shapes i decl properties) :
    ((decl.nodeEdges options (schema.classStart options i) properties).flatMap
      fun e => e.2.owned).Nodup := by
  have hnodup := (spans_nodeEdges h.built).nodup
  rwa [List.flatMap_map] at hnodup

/-- The shape of a class has an edge to each site of the class. -/
theorem Built.exists_edge {site : Site}
    (hb : schema.Built options shapes site.index decl properties)
    (hi : schema.classes[site.index]? = some decl) (h : schema.HasSite options site) :
    ∃ e ∈ decl.nodeEdges options (schema.classStart options site.index) properties,
      e.1 = site.predicate ∧ e.2.node = .blank (schema.siteNode options site) := by
  cases site with
  | list i =>
    exact ⟨_, List.mem_append_left _ (list_mem_shapeEdges (h.closes hi) _), rfl,
      node_ignoredProperties _⟩
  | slot i j =>
    obtain ⟨slot, hs⟩ := h.exists_slot hi
    obtain ⟨f, hf, -⟩ := hb.propertyShape hs
    exact ⟨(Sh.property, f), List.mem_append_right _
      (List.mem_map_of_mem (List.mem_of_getElem? hf)), rfl, hb.node_eq hs hf⟩

/-- **The blank nodes that IRIs lead to** are those of the sites of the classes they name. -/
theorem compile_sites (h : schema.compile options = .ok g) {x p : Iri} {n : Nat} :
    (⟨.iri x, p, .blank n⟩ : Triple) ∈ g ↔
      ∃ site decl, schema.HasSite options site ∧ schema.classes[site.index]? = some decl ∧
        options.shapeIri decl = x ∧ p = site.predicate ∧ n = schema.siteNode options site := by
  rw [compile_iri h]
  constructor
  · rintro ⟨i, decl, hi, hx, ⟨e, he, rfl, hn⟩ | ⟨rfl, j, slot, hs, hn⟩⟩
    · rcases ClassDecl.mem_shapeEdges_cases he with ⟨-, hnil⟩ | ⟨hc, rfl⟩
      · -- an edge to a blank node leads to what describes it
        have hb := (spans_shapeEdges options decl (schema.classStart options i)).branch_of_mem he
        obtain ⟨t, ht, -⟩ := hb.described n (mem_owned.2 (Or.inl hn))
        simp [hnil] at ht
      · rw [node_ignoredProperties, Term.blank.injEq] at hn
        exact ⟨.list i, decl, ⟨decl, hi, hc⟩, hi, hx, rfl, hn.symm⟩
    · rw [Term.blank.injEq] at hn
      exact ⟨.slot i j, decl, ⟨decl, slot, hs⟩, hi, hx, rfl, hn⟩
  · rintro ⟨site, decl, hsite, hi, hx, rfl, rfl⟩
    refine ⟨site.index, decl, hi, hx, ?_⟩
    cases site with
    | list i =>
      exact Or.inl ⟨_, list_mem_shapeEdges (hsite.closes hi) _, rfl, node_ignoredProperties _⟩
    | slot i j =>
      obtain ⟨slot, hs⟩ := hsite.exists_slot hi
      exact Or.inr ⟨rfl, j, slot, hs, rfl⟩

/-- The slots of one class have different nodes. -/
theorem Built.slot_eq {j' : Nat} {slot' : Slot}
    (h : schema.Built options shapes i decl properties) (hs : schema.SlotAt i j decl slot)
    (hs' : schema.SlotAt i j' decl slot')
    (heq : schema.propertyNode options i j = schema.propertyNode options i j') : j = j' := by
  obtain ⟨f, hf, -⟩ := h.propertyShape hs
  obtain ⟨f', hf', -⟩ := h.propertyShape hs'
  exact index_eq_of_mem_flatMap (spans_propertyShapes h.built).nodup hf hf'
    (mem_owned.2 (Or.inl (h.node_eq hs hf))) (mem_owned.2 (Or.inl (heq ▸ h.node_eq hs' hf')))

/-- **Different sites have different nodes.** -/
theorem siteNode_injective (h : schema.compile options = .ok g) {a b : Site}
    (ha : schema.HasSite options a) (hb : schema.HasSite options b)
    (heq : schema.siteNode options a = schema.siteNode options b) : a = b := by
  obtain ⟨shapes, hforest, hbuilt, -⟩ := compile_shapes h
  obtain ⟨decl, hi⟩ := ha.exists_class
  obtain ⟨decl', hi'⟩ := hb.exists_class
  obtain ⟨properties, hp⟩ := hbuilt _ decl hi
  obtain ⟨properties', hp'⟩ := hbuilt _ decl' hi'
  obtain ⟨e, he, hpred, hnode⟩ := hp.exists_edge hi ha
  obtain ⟨e', he', hpred', hnode'⟩ := hp'.exists_edge hi' hb
  rw [← heq] at hnode'
  have hown := mem_owned.2 (Or.inl hnode)
  have hown' := mem_owned.2 (Or.inl hnode')
  -- no two shapes own one node, and no two edges of a shape lead to it
  have hindex : a.index = b.index := index_eq_of_mem_flatMap hforest.nodup hp.shape hp'.shape
    (mem_owned.2 (Or.inr (mem_linked_describe.2 ⟨e, he, hown⟩)))
    (mem_owned.2 (Or.inr (mem_linked_describe.2 ⟨e', he', hown'⟩)))
  rw [← hindex] at hi' hp' he'
  have hd := hi.symm.trans hi'
  cases hd
  have hprop := hp.built.symm.trans hp'.built
  cases hprop
  have hsame : a.predicate = b.predicate := by
    rw [← hpred, ← hpred', eq_of_mem_flatMap hp.nodup_edges he he' hown hown']
  cases a with
  | list i =>
    cases b with
    | list i' => rw [show i = i' from hindex]
    | slot i' j' => exact absurd hsame (by decide : Sh.ignoredProperties ≠ Sh.property)
  | slot i j =>
    cases b with
    | list i' => exact absurd hsame (by decide : Sh.property ≠ Sh.ignoredProperties)
    | slot i' j' =>
      cases (show i = i' from hindex)
      obtain ⟨slot, hs⟩ := ha.exists_slot hi
      obtain ⟨slot', hs'⟩ := hb.exists_slot hi
      rw [hp.slot_eq hs hs' heq]

/-- **Different slots have different nodes.** -/
theorem propertyNode_injective (h : schema.compile options = .ok g) {i' j' : Nat}
    {decl' : ClassDecl} {slot' : Slot} (hs : schema.SlotAt i j decl slot)
    (hs' : schema.SlotAt i' j' decl' slot')
    (heq : schema.propertyNode options i j = schema.propertyNode options i' j') :
    i = i' ∧ j = j' := by
  have hsite : Site.slot i j = Site.slot i' j' :=
    siteNode_injective h ⟨decl, slot, hs⟩ ⟨decl', slot', hs'⟩ heq
  exact Site.slot.inj hsite

end SchemaShapes.Schema
