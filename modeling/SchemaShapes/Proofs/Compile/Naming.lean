import Mathlib.Logic.Equiv.Basic
import SchemaShapes.Proofs.Compile.Nodes

/-!
# Declared names

The names of classes, enumerations and types only tie references to declarations: they are written
nowhere. So a schema whose names are changed, each in all its places and no two to one, has the same
graph, and its faults are told with the new names.

* `NameChange`: a change of names.
* `Schema.typeOf_withNames`, `Schema.classOf_withNames`, `Schema.valuesOf_withNames`: a new name
  stands for what the old one stands for.
* `Schema.nodeShape_withNames`: the run that builds a node shape.
* `Schema.compile_withNames`: the graph of a schema with other names.
-/

namespace SchemaShapes

/-- **A change of names** of classes, enumerations and types. It brings no two names together and
leaves those of built-in types. -/
structure NameChange where
  ofClass : String → String
  ofEnum : String → String
  ofType : String → String
  injective_ofClass : Function.Injective ofClass
  injective_ofEnum : Function.Injective ofEnum
  injective_ofType : Function.Injective ofType
  builtIn : ∀ name p, Primitive.ofName? name = some p → ofType name = name

variable (ν : NameChange)

/-! ## Declarations and references -/

/-- A reference by the new name. -/
def Reference.withNames : Reference → Reference
  | .toType name => .toType (ν.ofType name)
  | .toClass name => .toClass (ν.ofClass name)
  | .toEnum name => .toEnum (ν.ofEnum name)

/-- A range by new names. -/
def Range.withNames : Range → Range
  | .only target => .only (target.withNames ν)
  | .anyOf targets => .anyOf (targets.map (Reference.withNames ν))

/-- A slot that refers by new names. Its own name stays. -/
def Slot.withNames (slot : Slot) : Slot :=
  { slot with
    range := slot.range.map (Range.withNames ν), defaultType := slot.defaultType.map ν.ofType }

/-- A class by its new name. -/
def ClassDecl.withNames (decl : ClassDecl) : ClassDecl :=
  { decl with name := ν.ofClass decl.name, slots := decl.slots.map (Slot.withNames ν) }

/-- An enumeration by its new name. -/
def EnumDecl.withNames (decl : EnumDecl) : EnumDecl :=
  { decl with name := ν.ofEnum decl.name }

/-- A type by its new name, and with that of its parent. -/
def TypeDecl.withNames (decl : TypeDecl) : TypeDecl :=
  { decl with name := ν.ofType decl.name, parent := decl.parent.map ν.ofType }

/-- **A schema with other names**, in all declarations and references. -/
def Schema.withNames (schema : Schema) : Schema :=
  { schema with
    classes := schema.classes.map (ClassDecl.withNames ν)
    enums := schema.enums.map (EnumDecl.withNames ν)
    types := schema.types.map (TypeDecl.withNames ν) }

/-! ## Faults and events -/

/-- What is wrong with a range, told with new names. -/
def RangeFault.withNames : RangeFault → RangeFault
  | .noAlternatives => .noAlternatives
  | .unknownClass name => .unknownClass (ν.ofClass name)
  | .unknownEnum name => .unknownEnum (ν.ofEnum name)
  | .noValues name => .noValues (ν.ofEnum name)

/-- What is wrong with a slot, told with new names. -/
def SlotFault.withNames : SlotFault → SlotFault
  | .unsupportedType name => .unsupportedType (ν.ofType name)
  | .malformedRange fault => .malformedRange (fault.withNames ν)
  | .unencodable fault => .unencodable fault

/-- **A fault told with new names.** -/
def CompileFault.withNames (fault : CompileFault) : CompileFault :=
  ⟨ν.ofClass fault.className, fault.slotName, fault.cause.withNames ν⟩

/-- An event told with new names. -/
def Event.withNames : Event → Event
  | .nodeShape className closed slots => .nodeShape (ν.ofClass className) closed slots
  | .propertyShape className slotName => .propertyShape (ν.ofClass className) slotName
  | .untypedDefault className slotName => .untypedDefault (ν.ofClass className) slotName
  | .compiled schemaName classes slots triples => .compiled schemaName classes slots triples

/-- **A run told with new names.** -/
def Run.withNames {α : Type} (run : Run α) : Run α :=
  ⟨run.outcome.mapError (CompileFault.withNames ν), run.taken, run.events.map (Event.withNames ν)⟩

variable {ν} in
/-- **Builders that tell the same with new names**, one after the other. -/
theorem Run.traverse_withNames {α β : Type} {f g : α → Nat → Run β}
    (step : ∀ a n, g a n = (f a n).withNames ν) (as : List α) (next : Nat) :
    traverse g as next = (traverse f as next).withNames ν := by
  induction as generalizing next with
  | nil => rfl
  | cons a as ih =>
    rw [traverse, traverse, step]
    cases hb : (f a next).outcome with
    | error fault => simp [withNames, hb, Except.mapError]
    | ok b =>
      cases hmore : (traverse f as (f a next).taken).outcome <;>
        simp [withNames, hb, hmore, ih, Except.mapError, Except.map]

/-! ## What names stand for -/

/-- A name is built in if the new one is. -/
theorem NameChange.ofName?_ofType (name : String) :
    Primitive.ofName? (ν.ofType name) = Primitive.ofName? name := by
  cases h : Primitive.ofName? name with
  | some p => rw [ν.builtIn name p h, h]
  | none =>
    -- a built-in name stays, and no other name is brought together with it
    cases h' : Primitive.ofName? (ν.ofType name) with
    | none => rfl
    | some p =>
      have hname : ν.ofType name = name := ν.injective_ofType (ν.builtIn _ p h')
      rw [hname, h] at h'
      cases h'

namespace Schema

variable (schema : Schema)

theorem findClass?_withNames (name : String) : (schema.withNames ν).findClass? (ν.ofClass name) =
    (schema.findClass? name).map (ClassDecl.withNames ν) :=
  find?_map_of_injective ClassDecl.name ν.injective_ofClass (fun _ => rfl) schema.classes name

theorem findEnum?_withNames (name : String) : (schema.withNames ν).findEnum? (ν.ofEnum name) =
    (schema.findEnum? name).map (EnumDecl.withNames ν) :=
  find?_map_of_injective EnumDecl.name ν.injective_ofEnum (fun _ => rfl) schema.enums name

theorem findType?_withNames (name : String) : (schema.withNames ν).findType? (ν.ofType name) =
    (schema.findType? name).map (TypeDecl.withNames ν) :=
  find?_map_of_injective TypeDecl.name ν.injective_ofType (fun _ => rfl) schema.types name

/-- **A chain of types** leads to the same end over the new names. -/
theorem primitive?_withNames (steps : Nat) (name : String) :
    (schema.withNames ν).primitive? steps (ν.ofType name) = schema.primitive? steps name := by
  induction steps generalizing name with
  | zero => rfl
  | succ steps ih =>
    rw [primitive?, primitive?, ν.ofName?_ofType, findType?_withNames]
    cases Primitive.ofName? name with
    | some p => rfl
    | none =>
      cases schema.findType? name with
      | none => rfl
      | some decl =>
        cases hparent : decl.parent with
        | some parent => simp [TypeDecl.withNames, hparent, ih]
        | none =>
          cases hdatatype : decl.datatype <;> simp [TypeDecl.withNames, hparent, hdatatype]

theorem typeOf_withNames (name : String) : (schema.withNames ν).typeOf (ν.ofType name) =
    (schema.typeOf name).mapError (SlotFault.withNames ν) := by
  rw [typeOf, typeOf, resolveType?, resolveType?, primitive?_withNames]
  cases schema.primitive? maxTypeDepth name <;> rfl

theorem classOf_withNames (name : String) : (schema.withNames ν).classOf (ν.ofClass name) =
    (schema.classOf name).mapError (SlotFault.withNames ν) := by
  rw [classOf, classOf, findClass?_withNames]
  cases schema.findClass? name <;> rfl

theorem valuesOf_withNames (name : String) : (schema.withNames ν).valuesOf (ν.ofEnum name) =
    (schema.valuesOf name).mapError (SlotFault.withNames ν) := by
  rw [valuesOf, valuesOf, findEnum?_withNames]
  cases schema.findEnum? name with
  | none => rfl
  | some decl =>
    have hvalues : (decl.withNames ν).values = decl.values := rfl
    simp only [Option.map_some, hvalues]
    cases decl.values.isEmpty <;> rfl

theorem alternative_withNames (r : Reference) : (schema.withNames ν).alternative (r.withNames ν) =
    (schema.alternative r).mapError (SlotFault.withNames ν) := by
  cases r with
  | toType name => rw [Reference.withNames, alternative, alternative, typeOf_withNames, mapError_map]
  | toClass name =>
    rw [Reference.withNames, alternative, alternative, classOf_withNames, mapError_map]
  | toEnum name =>
    rw [Reference.withNames, alternative, alternative, valuesOf_withNames, mapError_map]

theorem alternatives_withNames (targets : List Reference) :
    (schema.withNames ν).alternatives (targets.map (Reference.withNames ν)) =
      (schema.alternatives targets).mapError (SlotFault.withNames ν) := by
  induction targets with
  | nil => rfl
  | cons r rest ih =>
    rw [List.map_cons, alternatives, alternatives, alternative_withNames, ih, mapError_bind]
    simp only [mapError_bind]
    rfl

/-- **A range asks for the same** by new names. -/
theorem constraint_withNames (range : Range) :
    (schema.withNames ν).constraint (range.withNames ν) =
      (schema.constraint range).mapError (SlotFault.withNames ν) := by
  cases range with
  | only r =>
    cases r with
    | toType name =>
      rw [Range.withNames, Reference.withNames, constraint, constraint, typeOf_withNames,
        mapError_map]
    | toClass name =>
      rw [Range.withNames, Reference.withNames, constraint, constraint, classOf_withNames,
        mapError_map]
    | toEnum name =>
      rw [Range.withNames, Reference.withNames, constraint, constraint, valuesOf_withNames,
        mapError_map]
  | anyOf targets =>
    rw [Range.withNames, constraint, constraint, List.isEmpty_map, alternatives_withNames]
    cases targets.isEmpty with
    | false => exact (mapError_map _ _ _).symm
    | true => rfl

/-- **A slot is understood in the same way** by new names. -/
theorem typing_withNames (slot : Slot) : (slot.withNames ν).typing (schema.withNames ν) =
    (slot.typing schema).mapError (SlotFault.withNames ν) := by
  have hrange : eachOption (schema.withNames ν).constraint (slot.range.map (Range.withNames ν)) =
      (eachOption schema.constraint slot.range).mapError (SlotFault.withNames ν) := by
    cases slot.range with
    | none => rfl
    | some range =>
      rw [Option.map_some, eachOption, eachOption, constraint_withNames, mapError_map]
  have hnamed : eachOption (schema.withNames ν).typeOf (slot.defaultType.map ν.ofType) =
      (eachOption schema.typeOf slot.defaultType).mapError (SlotFault.withNames ν) := by
    cases slot.defaultType with
    | none => rfl
    | some name => rw [Option.map_some, eachOption, eachOption, typeOf_withNames, mapError_map]
  have hfields : (slot.withNames ν).range = slot.range.map (Range.withNames ν) ∧
      (slot.withNames ν).defaultType = slot.defaultType.map ν.ofType := ⟨rfl, rfl⟩
  rw [Slot.typing, Slot.typing, hfields.1, hfields.2, hrange, hnamed, mapError_bind]
  simp only [mapError_bind]
  rfl

/-! ## Shapes -/

variable (options : Options) (decl : ClassDecl)

/-- **A property shape** is the same by new names. -/
theorem propertyShape_withNames (slot : Slot) (order next : Nat) :
    (schema.withNames ν).propertyShape options (decl.withNames ν) (slot.withNames ν) order next =
      (schema.propertyShape options decl slot order next).withNames ν := by
  have hevents : ∀ typing, (slot.withNames ν).defaultEvents (decl.withNames ν) typing =
      (slot.defaultEvents decl typing).map (Event.withNames ν) := by
    intro typing
    have huntyped : (slot.withNames ν).hasUntypedDefault typing = slot.hasUntypedDefault typing := rfl
    rw [Slot.defaultEvents, Slot.defaultEvents, huntyped]
    cases slot.hasUntypedDefault typing <;> rfl
  have hvalues : ∀ typing, (slot.withNames ν).values typing = slot.values typing := fun typing => rfl
  simp only [propertyShape, Run.after, typing_withNames]
  cases slot.typing schema with
  | error cause => rfl
  | ok typing =>
    simp only [Except.mapError, hvalues, hevents]
    cases slot.values typing <;> rfl

/-- **A node shape** is the same by new names. -/
theorem nodeShape_withNames (next : Nat) :
    (schema.withNames ν).nodeShape options (decl.withNames ν) next =
      (schema.nodeShape options decl next).withNames ν := by
  have hslots : (decl.withNames ν).slots.zipIdx =
      decl.slots.zipIdx.map fun s => (s.1.withNames ν, s.2) := List.zipIdx_map
  have hproperties : ∀ n, (schema.withNames ν).propertyShapes options (decl.withNames ν) n =
      (schema.propertyShapes options decl n).withNames ν := by
    intro n
    rw [propertyShapes, hslots, Run.traverse_map]
    exact Run.traverse_withNames
      (fun (s : Slot × Nat) n => schema.propertyShape_withNames ν options decl s.1 s.2 n) _ n
  have hlength : (decl.withNames ν).slots.length = decl.slots.length := List.length_map ..
  have htaken : (decl.withNames ν).taken options = decl.taken options := rfl
  rw [nodeShape, hproperties, hlength, htaken, nodeShape, Run.after, Run.after]
  simp only [Run.map, Run.withNames, mapError_map, List.map_cons]
  rfl

/-- **A compile** is the same by new names, and a fault is told with them. -/
theorem compile_withNames : (schema.withNames ν).compile options =
    (schema.compile options).mapError (CompileFault.withNames ν) := by
  have hshapes : (schema.withNames ν).nodeShapes options =
      (schema.nodeShapes options).withNames ν := by
    rw [nodeShapes, withNames, Run.traverse_map]
    exact Run.traverse_withNames (fun decl n => schema.nodeShape_withNames ν options decl n) _ 0
  rw [compile_eq_map, compile_eq_map, hshapes, mapError_map]
  rfl

/-- **Declared names are only binders.** A schema with other names compiles if and only if it does
with its own, and then to the same graph; otherwise its fault is told with the new names. -/
theorem compile_renamed (schema : Schema) (options : Options) :
    (∀ g, (schema.withNames ν).compile options = .ok g ↔ schema.compile options = .ok g) ∧
    ∀ fault, schema.compile options = .error fault →
      (schema.withNames ν).compile options = .error (fault.withNames ν) := by
  rw [compile_withNames]
  refine ⟨fun g => mapError_eq_ok, fun fault hfault => ?_⟩
  rw [hfault]
  rfl

/-- Each name of the sample trades places with another. -/
def tradedNames : NameChange where
  ofClass := Equiv.swap "Person" "Human"
  ofEnum := Equiv.swap "Status" "State"
  ofType := Equiv.swap "age" "years"
  injective_ofClass := Equiv.injective _
  injective_ofEnum := Equiv.injective _
  injective_ofType := Equiv.injective _
  builtIn := by
    intro name p h
    refine Equiv.swap_apply_of_ne_of_ne ?_ ?_
    · rintro rfl
      cases h
    · rintro rfl
      cases h

theorem compile_renamed_sample : (sample.withNames tradedNames).classes.map (·.name) =
      ["Human", "Human"] ∧
    ∃ g, sample.compile .standard = .ok g ∧
      (sample.withNames tradedNames).compile .standard = .ok g := by
  obtain ⟨g, h⟩ : ∃ g, sample.compile .standard = .ok g := ⟨_, rfl⟩
  obtain ⟨hgraph, -⟩ := compile_renamed tradedNames sample .standard
  exact ⟨by decide, g, h, (hgraph g).2 h⟩

end Schema

end SchemaShapes
