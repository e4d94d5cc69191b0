import Mathlib.Data.List.Dedup
import SchemaShapes.Proofs.Compile.Lists
import SchemaShapes.Proofs.Compile.Size

/-!
# The shapes of classes

The subjects that a graph calls node shapes are the IRIs of the shapes of its classes. Classes that
share their IRI share their shape too, which then says what each of them says; a class whose IRI is
its own has a shape of its own.

* `Schema.sharing`: the classes of one IRI.
* `Schema.mem_everyShape`: what the shape of every class says.
* `Schema.perm_nodeShapes`: which subjects are node shapes.
* `Schema.length_ignored`: how many lists the shape of a class has.
* `Schema.compile_nodeShapes`: the node shapes of a graph, and those that are not shared.
-/

namespace SchemaShapes.Schema

open Fragment

/-- **The classes of one IRI**, which share the shape of that IRI. -/
def sharing (schema : Schema) (iri : Iri) : List ClassDecl :=
  schema.classes.filter fun decl => decl.iri == iri

variable {schema : Schema} {options : Options} {g : Graph} {decl : ClassDecl}

theorem mem_sharing {iri : Iri} :
    decl ∈ schema.sharing iri ↔ decl ∈ schema.classes ∧ decl.iri = iri := by
  simp [sharing]

/-- A class whose IRI is its own shares it with no other. -/
theorem sharing_eq_singleton (hiris : (schema.classes.map (·.iri)).Nodup)
    (hdecl : decl ∈ schema.classes) : schema.sharing decl.iri = [decl] := by
  have hnodup : (schema.sharing decl.iri).Nodup := hiris.of_map.filter _
  refine List.perm_singleton.1 ((List.perm_ext_iff_of_nodup hnodup (List.nodup_singleton _)).2 ?_)
  intro other
  rw [mem_sharing, List.mem_singleton]
  constructor
  · rintro ⟨hother, heq⟩
    exact List.inj_on_of_nodup_map hiris hother hdecl heq
  · rintro rfl
    exact ⟨hdecl, rfl⟩

theorem shapeIri_inj {a b : ClassDecl} : options.shapeIri a = options.shapeIri b ↔ a.iri = b.iri :=
  String.append_left_inj _

/-! ## What every shape says -/

/-- **What the shape of every class says** with some predicate. The IRI of a shape has these edges
of the classes that share it, and no others. -/
theorem mem_everyShape (h : schema.compile options = .ok g) {p : Iri} (object : ClassDecl → Term)
    (hall : ∀ decl next, (p, leaf (object decl)) ∈ decl.shapeEdges options next) {o : Term} :
    (⟨.iri (options.shapeIri decl), p, o⟩ : Triple) ∈ g ↔
      ∃ other ∈ schema.sharing decl.iri, o = object other := by
  rw [compile_iri h]
  constructor
  · rintro ⟨i, other, hi, hx, ⟨e, he, hp, rfl⟩ | ⟨hprop, -⟩⟩
    · -- the edges of a shape are told by their predicates
      have heq := List.inj_on_of_nodup_map (ClassDecl.nodup_predicates options other _) he
        (hall other _) hp
      exact ⟨other, mem_sharing.2 ⟨List.mem_of_getElem? hi, shapeIri_inj.1 hx⟩, by rw [heq]; rfl⟩
    · exact absurd hprop (ClassDecl.predicate_ne_property (hall other 0))
  · rintro ⟨other, hother, rfl⟩
    obtain ⟨hmem, hiri⟩ := mem_sharing.1 hother
    obtain ⟨i, hi⟩ := List.mem_iff_getElem?.1 hmem
    exact ⟨i, other, hi, shapeIri_inj.2 hiri, Or.inl ⟨_, hall other _, rfl, rfl⟩⟩

/-- The shape of a class targets the class alone. -/
theorem objects_targetClass (h : schema.compile options = .ok g) (hdecl : decl ∈ schema.classes) :
    g.objects (.iri (options.shapeIri decl)) Sh.targetClass = [.iri decl.iri] := by
  have hall : ∀ (c : ClassDecl) (next : Nat),
      (Sh.targetClass, leaf (.iri c.iri)) ∈ c.shapeEdges options next := by
    intro c next
    simp [ClassDecl.shapeEdges]
  refine Graph.objects_eq_singleton fun o => ?_
  rw [mem_everyShape h (fun c => .iri c.iri) hall]
  constructor
  · rintro ⟨other, hother, rfl⟩
    rw [(mem_sharing.1 hother).2]
  · rintro rfl
    exact ⟨decl, mem_sharing.2 ⟨hdecl, rfl⟩, rfl⟩

/-- The shape of a class says of each class that shares it whether it is closed. -/
theorem mem_closed (h : schema.compile options = .ok g) (decl : ClassDecl) {o : Term} :
    (⟨.iri (options.shapeIri decl), Sh.closed, o⟩ : Triple) ∈ g ↔
      ∃ other ∈ schema.sharing decl.iri, o = .literal (.boolean (options.closes other)) := by
  have hall : ∀ (c : ClassDecl) (next : Nat),
      (Sh.closed, leaf (.literal (.boolean (options.closes c)))) ∈ c.shapeEdges options next := by
    intro c next
    simp [ClassDecl.shapeEdges]
  exact mem_everyShape h (fun c => .literal (.boolean (options.closes c))) hall

/-- **The node shapes of a graph** are the shapes of its classes. -/
theorem perm_nodeShapes (h : schema.compile options = .ok g) :
    (g.subjects Rdf.type (.iri Sh.nodeShape)).Perm
      (schema.classes.map fun decl => Term.iri (options.shapeIri decl)).dedup := by
  refine (List.perm_ext_iff_of_nodup (g.nodup_subjectsWith _ _) (List.nodup_dedup _)).2 fun s => ?_
  rw [Graph.mem_subjectsWith, List.mem_dedup, List.mem_map]
  constructor
  · intro ht
    obtain ⟨i, decl, e, hi, -, hs, -⟩ := compile_shapeEdge h ht (by decide) (by decide) (by decide)
    exact ⟨decl, List.mem_of_getElem? hi, hs.symm⟩
  · rintro ⟨decl, hdecl, rfl⟩
    obtain ⟨i, hi⟩ := List.mem_iff_getElem?.1 hdecl
    exact (compile_iri h).2 ⟨i, decl, hi, rfl,
      Or.inl ⟨(Rdf.type, leaf (.iri Sh.nodeShape)), by simp [ClassDecl.shapeEdges], rfl, rfl⟩⟩

/-! ## Lists of shapes -/

/-- The nodes of the lists of the closed classes of an IRI. -/
def listNodes (schema : Schema) (options : Options) (iri : Iri) : List Term :=
  (schema.classes.zipIdx.filter fun c => c.1.iri == iri && options.closes c.1).map
    fun c => .blank (schema.classStart options c.2)

theorem mem_listNodes {iri : Iri} {o : Term} :
    o ∈ schema.listNodes options iri ↔ ∃ i decl, schema.classes[i]? = some decl ∧
      decl.iri = iri ∧ options.closes decl = true ∧ o = .blank (schema.classStart options i) := by
  simp only [listNodes, List.mem_map, List.mem_filter, Bool.and_eq_true, beq_iff_eq, Prod.exists,
    List.mem_zipIdx_iff_getElem?]
  constructor
  · rintro ⟨decl, i, ⟨hi, hiri, hc⟩, rfl⟩
    exact ⟨i, decl, hi, hiri, hc, rfl⟩
  · rintro ⟨i, decl, hi, hiri, hc, rfl⟩
    exact ⟨decl, i, ⟨hi, hiri, hc⟩, rfl⟩

theorem length_listNodes (iri : Iri) :
    (schema.listNodes options iri).length = (schema.sharing iri).countP options.closes := by
  have hfst : schema.classes = schema.classes.zipIdx.map (·.1) :=
    (List.zipIdx_map_fst 0 schema.classes).symm
  have hboth : (fun c : ClassDecl => options.closes c && c.iri == iri) =
      fun c => c.iri == iri && options.closes c := by
    funext c
    exact Bool.and_comm _ _
  rw [listNodes, List.length_map, sharing, List.countP_filter, hboth]
  conv_rhs => rw [hfst, List.countP_map]
  exact List.countP_eq_length_filter.symm

/-- The lists of different classes start at different nodes. -/
theorem nodup_listNodes (h : schema.compile options = .ok g) (iri : Iri) :
    (schema.listNodes options iri).Nodup := by
  have hzip : schema.classes.zipIdx.Nodup := by
    refine List.Nodup.of_map (·.2) ?_
    rw [List.zipIdx_map_snd]
    exact List.nodup_range'
  refine List.Nodup.map_on ?_ (hzip.filter _)
  rintro ⟨a, i⟩ ha ⟨b, j⟩ hb heq
  simp only [List.mem_filter, List.mem_zipIdx_iff_getElem?, Bool.and_eq_true] at ha hb
  obtain ⟨hi, -, hca⟩ := ha
  obtain ⟨hj, -, hcb⟩ := hb
  have hsite : Site.list i = Site.list j :=
    siteNode_injective h ⟨a, hi, hca⟩ ⟨b, hj, hcb⟩ (Term.blank.inj heq)
  cases hsite
  cases hi.symm.trans hj
  rfl

/-- **How many lists the shape of a class has**: one for each closed class that shares it. -/
theorem length_ignored (h : schema.compile options = .ok g) (decl : ClassDecl) :
    (g.objects (.iri (options.shapeIri decl)) Sh.ignoredProperties).length =
      (schema.sharing decl.iri).countP options.closes := by
  rw [← length_listNodes]
  refine List.Perm.length_eq ((List.perm_ext_iff_of_nodup (g.nodup_objects _ _)
    (nodup_listNodes h _)).2 fun o => ?_)
  rw [Graph.mem_objects, mem_listNodes]
  constructor
  · intro ht
    obtain ⟨i, other, e, hi, he, hs, hp, rfl⟩ :=
      compile_shapeEdge h ht (by decide) (by decide) (by decide)
    rcases ClassDecl.mem_shapeEdges_cases he with ⟨hclass, -⟩ | ⟨hc, rfl⟩
    · exact absurd hp (classPredicates_ne hclass).2
    · exact ⟨i, other, hi, (shapeIri_inj.1 (Term.iri.inj hs)).symm, hc, node_ignoredProperties _⟩
  · rintro ⟨i, other, hi, hiri, hc, rfl⟩
    exact (compile_iri h).2 ⟨i, other, hi, shapeIri_inj.2 hiri,
      Or.inl ⟨_, list_mem_shapeEdges hc _, rfl, node_ignoredProperties _⟩⟩

/-! ## Node shapes -/

/-- **The node shapes of a graph.** They are the shapes of the classes, one for each IRI. The shape
of a class targets the IRI of the class, and says of each class that shares it whether this is
closed, with a list for each of them that is. If no two classes share an IRI, there are as many
shapes as classes, and the shape of a class says once whether the class is closed, with one list if
it is and none if it is not. -/
theorem compile_nodeShapes (h : schema.compile options = .ok g) :
    (g.subjects Rdf.type (.iri Sh.nodeShape)).Perm
      (schema.classes.map fun decl => Term.iri (options.shapeIri decl)).dedup ∧
    (∀ decl ∈ schema.classes,
      g.objects (.iri (options.shapeIri decl)) Sh.targetClass = [.iri decl.iri] ∧
      (∀ o, o ∈ g.objects (.iri (options.shapeIri decl)) Sh.closed ↔
        ∃ other ∈ schema.sharing decl.iri, o = .literal (.boolean (options.closes other))) ∧
      (g.objects (.iri (options.shapeIri decl)) Sh.ignoredProperties).length =
        (schema.sharing decl.iri).countP options.closes) ∧
    ((schema.classes.map (·.iri)).Nodup →
      (g.subjects Rdf.type (.iri Sh.nodeShape)).length = schema.classes.length ∧
      ∀ decl ∈ schema.classes,
        g.objects (.iri (options.shapeIri decl)) Sh.targetClass = [.iri decl.iri] ∧
        g.objects (.iri (options.shapeIri decl)) Sh.closed =
          [.literal (.boolean (options.closes decl))] ∧
        (g.objects (.iri (options.shapeIri decl)) Sh.ignoredProperties).length =
          if options.closes decl then 1 else 0) := by
  refine ⟨perm_nodeShapes h, fun decl hdecl => ⟨objects_targetClass h hdecl, fun o => ?_,
    length_ignored h decl⟩, fun hiris => ⟨?_, fun decl hdecl =>
    ⟨objects_targetClass h hdecl, ?_, ?_⟩⟩⟩
  · rw [Graph.mem_objects, mem_closed h decl]
  · have hperm := perm_nodeShapes h
    rw [(nodup_shapeIris options hiris).dedup] at hperm
    rw [hperm.length_eq, List.length_map]
  · refine Graph.objects_eq_singleton fun o => ?_
    rw [mem_closed h decl, sharing_eq_singleton hiris hdecl]
    simp
  · rw [length_ignored h, sharing_eq_singleton hiris hdecl]
    cases hc : options.closes decl <;> simp [hc]

theorem compile_nodeShapes_sample : ∃ g, apart.compile .standard = .ok g ∧
    (apart.classes.map (·.iri)).Nodup ∧
    (g.subjects Rdf.type (.iri Sh.nodeShape)).length = 2 ∧
    g.objects (.iri "urn:Person") Sh.closed = [.literal (.boolean true)] ∧
    (g.objects (.iri "urn:State") Sh.ignoredProperties).length = 0 := by
  obtain ⟨g, h⟩ : ∃ g, apart.compile .standard = .ok g := ⟨_, rfl⟩
  have hiris : (apart.classes.map (·.iri)).Nodup := by decide
  obtain ⟨-, -, hown⟩ := compile_nodeShapes h
  obtain ⟨hlength, hclasses⟩ := hown hiris
  have hperson : apart.classes[0] ∈ apart.classes := List.getElem_mem _
  have hstate : apart.classes[1] ∈ apart.classes := List.getElem_mem _
  obtain ⟨-, hclosed, -⟩ := hclasses _ hperson
  obtain ⟨-, -, hignored⟩ := hclasses _ hstate
  exact ⟨g, h, hiris, hlength, hclosed, hignored⟩

/-- The sample with another name for its second class, which keeps its IRI. -/
def shared : Schema :=
  { sample with classes := sample.classes.modify 1 fun decl => { decl with name := "State" } }

/-- **Names do not keep shapes apart.** Two classes with different names and one IRI have one shape,
which says that it is closed and that it is not. -/
theorem shared_nodeShapes : ∃ g, shared.compile .standard = .ok g ∧
    (shared.classes.map (·.name)).Nodup ∧ shared.classes.length = 2 ∧
    (g.subjects Rdf.type (.iri Sh.nodeShape)).length = 1 ∧
    ∀ closed, .literal (.boolean closed) ∈ g.objects (.iri "urn:Person") Sh.closed := by
  obtain ⟨g, h⟩ : ∃ g, shared.compile .standard = .ok g := ⟨_, rfl⟩
  refine ⟨g, h, by decide, rfl, ?_, fun closed => ?_⟩
  · rw [(perm_nodeShapes h).length_eq]
    rfl
  · have hflags : (shared.sharing "urn:Person").map Options.standard.closes = [true, false] := rfl
    have hflag : closed ∈ (shared.sharing "urn:Person").map Options.standard.closes := by
      rw [hflags]
      cases closed <;> simp
    obtain ⟨other, hother, rfl⟩ := List.mem_map.1 hflag
    obtain ⟨hmem, hiri⟩ := mem_sharing.1 hother
    have hshape : Options.standard.shapeIri other = "urn:Person" := by
      rw [Options.shapeIri, hiri]
      rfl
    rw [Graph.mem_objects, ← hshape]
    exact (mem_closed h other).2 ⟨other, mem_sharing.2 ⟨hmem, rfl⟩, rfl⟩

end SchemaShapes.Schema
