import SchemaShapes.Compile
import SchemaShapes.Proofs.Shape.Check
import SchemaShapes.Proofs.Shape.Traverse

/-!
# The faults of a schema

A schema compiles if all its slots are well formed. Otherwise the fault is that of the first check,
of the first slot, of the first class, whatever the options are.

* `Schema.FirstFault`: the first fault of a schema.
* `Schema.faultOf_compile`: the fault of a compile, slot by slot.
* `Schema.compile_faults`: when a schema compiles, and how it fails.
-/

namespace SchemaShapes

/-- **The first fault of a slot**: that of a check before which no other finds anything. -/
def Slot.FirstFault (schema : Schema) (slot : Slot) (cause : SlotFault) : Prop :=
  ∃ passed check rest, Check.all = passed ++ check :: rest ∧
    (∀ c ∈ passed, c.fault? schema slot = none) ∧ check.fault? schema slot = some cause

theorem Slot.firstFault_iff {schema : Schema} {slot : Slot} {cause : SlotFault} :
    slot.fault? schema = some cause ↔ slot.FirstFault schema cause := by
  rw [Slot.fault?, List.findSome?_eq_some_iff]
  constructor
  · rintro ⟨passed, check, rest, hall, hcheck, hpassed⟩
    exact ⟨passed, check, rest, hall, hpassed, hcheck⟩
  · rintro ⟨passed, check, rest, hall, hpassed, hcheck⟩
    exact ⟨passed, check, rest, hall, hcheck, hpassed⟩

namespace Schema

/-- **The first fault of a schema**: that of a slot before which all slots, of its class and of the
classes before it, are well formed. -/
def FirstFault (schema : Schema) (fault : CompileFault) : Prop :=
  ∃ before decl after earlier slot later,
    schema.classes = before ++ decl :: after ∧
    (∀ c ∈ before, ∀ s ∈ c.slots, s.WellFormed schema) ∧
    decl.slots = earlier ++ slot :: later ∧
    (∀ s ∈ earlier, s.WellFormed schema) ∧
    slot.FirstFault schema fault.cause ∧
    fault.className = decl.name ∧ fault.slotName = slot.name

variable {schema : Schema}

/-! ## The faults of shapes -/

/-- The fault of a slot of a class. -/
def slotFault? (schema : Schema) (decl : ClassDecl) (slot : Slot) : Option CompileFault :=
  (slot.fault? schema).map fun cause => ⟨decl.name, slot.name, cause⟩

/-- The first fault of a class. -/
def classFault? (schema : Schema) (decl : ClassDecl) : Option CompileFault :=
  decl.slots.findSome? (schema.slotFault? decl)

/-- **A property shape fails** as its slot does. -/
theorem faultOf_propertyShape (options : Options) (decl : ClassDecl) (slot : Slot)
    (order next : Nat) :
    faultOf (schema.propertyShape options decl slot order next).outcome =
      schema.slotFault? decl slot := by
  rw [slotFault?, Slot.fault?_eq_or]
  simp only [propertyShape, Run.after]
  cases ht : slot.typing schema with
  | error cause => rfl
  | ok typing =>
    rw [← Slot.faultOf_values ht]
    cases hv : slot.values typing with
    | error cause => simp [hv]
    | ok values => simp [hv]

/-- **A node shape fails** with the fault of the first slot that has one. -/
theorem faultOf_nodeShape (options : Options) (decl : ClassDecl) (next : Nat) :
    faultOf (schema.nodeShape options decl next).outcome = schema.classFault? decl := by
  have hslots : faultOf (schema.propertyShapes options decl (next + decl.taken options)).outcome =
      decl.slots.zipIdx.findSome? fun s => schema.slotFault? decl s.1 :=
    Run.faultOf_traverse (fun s n => faultOf_propertyShape options decl s.1 s.2 n) _ _
  have hnode : faultOf (schema.nodeShape options decl next).outcome =
      faultOf (schema.propertyShapes options decl (next + decl.taken options)).outcome :=
    faultOf_map _ _
  -- the fault of a slot does not depend on its order
  rw [hnode, hslots, classFault?]
  conv_rhs => rw [← List.zipIdx_map_fst 0 decl.slots, List.findSome?_map]
  rfl

/-- **A compile fails** with the fault of the first class that has one. -/
theorem faultOf_compile (options : Options) :
    faultOf (schema.compile options) = schema.classes.findSome? schema.classFault? := by
  have hshapes : faultOf (schema.nodeShapes options).outcome =
      schema.classes.findSome? schema.classFault? :=
    Run.faultOf_traverse (faultOf_nodeShape options) schema.classes 0
  rw [← hshapes, compile, compileRun]
  cases (schema.nodeShapes options).outcome <;> rfl

/-! ## The first fault -/

theorem slotFault?_eq_none {decl : ClassDecl} {slot : Slot} :
    schema.slotFault? decl slot = none ↔ slot.WellFormed schema := by
  rw [slotFault?, Option.map_eq_none_iff, Slot.wellFormed_iff]

theorem classFault?_eq_none {decl : ClassDecl} :
    schema.classFault? decl = none ↔ ∀ slot ∈ decl.slots, slot.WellFormed schema := by
  simp only [classFault?, List.findSome?_eq_none_iff, slotFault?_eq_none]

theorem slotFault?_eq_some {decl : ClassDecl} {slot : Slot} {fault : CompileFault} :
    schema.slotFault? decl slot = some fault ↔
      slot.FirstFault schema fault.cause ∧ fault.className = decl.name ∧
        fault.slotName = slot.name := by
  rw [slotFault?, Option.map_eq_some_iff]
  constructor
  · rintro ⟨cause, hc, rfl⟩
    exact ⟨Slot.firstFault_iff.1 hc, rfl, rfl⟩
  · rintro ⟨hc, hclass, hslot⟩
    exact ⟨fault.cause, Slot.firstFault_iff.2 hc, by rw [← hclass, ← hslot]⟩

/-- **The first fault** is that of the first class and slot that have one. -/
theorem firstFault_iff {fault : CompileFault} :
    schema.classes.findSome? schema.classFault? = some fault ↔ schema.FirstFault fault := by
  rw [List.findSome?_eq_some_iff]
  constructor
  · rintro ⟨before, decl, after, hclasses, hfault, hbefore⟩
    obtain ⟨earlier, slot, later, hslots, hslot, hearlier⟩ := List.findSome?_eq_some_iff.1 hfault
    exact ⟨before, decl, after, earlier, slot, later, hclasses,
      fun c hc => classFault?_eq_none.1 (hbefore c hc), hslots,
      fun s hs => slotFault?_eq_none.1 (hearlier s hs), slotFault?_eq_some.1 hslot⟩
  · rintro ⟨before, decl, after, earlier, slot, later, hclasses, hbefore, hslots, hearlier, hslot⟩
    refine ⟨before, decl, after, hclasses, ?_, fun c hc => classFault?_eq_none.2 (hbefore c hc)⟩
    exact List.findSome?_eq_some_iff.2 ⟨earlier, slot, later, hslots, slotFault?_eq_some.2 hslot,
      fun s hs => slotFault?_eq_none.2 (hearlier s hs)⟩

/-- **When a schema compiles**: exactly if all its slots are well formed. Otherwise it has the first
fault. -/
theorem compile_faults (schema : Schema) (options : Options) :
    ((∃ g, schema.compile options = .ok g) ↔
      ∀ decl ∈ schema.classes, ∀ slot ∈ decl.slots, slot.WellFormed schema) ∧
    ∀ fault, schema.compile options = .error fault ↔ schema.FirstFault fault := by
  constructor
  · rw [← faultOf_eq_none, faultOf_compile, List.findSome?_eq_none_iff]
    simp only [classFault?_eq_none]
  · intro fault
    rw [← faultOf_eq_some, faultOf_compile, firstFault_iff]

end Schema

end SchemaShapes
