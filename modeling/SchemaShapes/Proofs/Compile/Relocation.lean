import SchemaShapes.Proofs.Shape.Placement

/-!
# Builders that start further on

A builder that starts `n` blank nodes further on runs as it does from zero: it writes the same
triples in the same order with every number greater by `n`, or fails with the same fault, takes as
many numbers and tells the same. So each class may be built on its own, and its shape put behind
those of the classes before it.

* `Run.moved`: a run further on.
* `Run.Relocatable.traverse`: builders one after the other start further on together.
* `Run.Relocatable.outcome_traverse`: what they build is what each builds from zero, further on.
* `Schema.compile_relocates`: builders that start further on, and a compile class by class.
-/

namespace SchemaShapes

namespace Run

variable {α β γ : Type}

/-- **A run further on**: the numbers of what is built and of those taken are greater by `n`. -/
def moved (rename : (Nat → Nat) → β → β) (n : Nat) (run : Run β) : Run β :=
  ⟨run.outcome.map (rename (· + n)), run.taken + n, run.events⟩

/-- **A relocatable builder** runs further on as it does here, also where it fails. -/
def Relocatable (rename : (Nat → Nat) → β → β) (f : Nat → Run β) : Prop :=
  ∀ first n, f (first + n) = (f first).moved rename n

namespace Relocatable

variable {rename : (Nat → Nat) → β → β} {f : α → Nat → Run β}

/-- What a builder does from zero, it does from everywhere. -/
theorem from_zero {f : Nat → Run β} (h : Relocatable rename f) (n : Nat) :
    f n = (f 0).moved rename n := by
  have hn := h 0 n
  rwa [Nat.zero_add] at hn

/-- **Relocatable builders one after the other** are relocatable. -/
theorem traverse {as : List α} (h : ∀ a ∈ as, Relocatable rename (f a)) :
    Relocatable (fun σ => List.map (rename σ)) (Run.traverse f as) := by
  induction as with
  | nil => exact fun first n => rfl
  | cons a as ih =>
    intro first n
    have hhead := h a List.mem_cons_self first n
    have htail := ih (fun c hc => h c (List.mem_cons_of_mem _ hc)) (f a first).taken n
    rw [Run.traverse, Run.traverse, hhead]
    cases hb : (f a first).outcome with
    | error fault => simp [moved, hb, Except.map]
    | ok b =>
      -- the rest starts where the first builder stops, which is further on as well
      simp only [moved, hb, Except.map] at htail ⊢
      rw [htail]
      cases (Run.traverse f as (f a first).taken).outcome <;> rfl

/-- **What relocatable builders build one after the other** is what each builds from zero, put
behind what is built before it. They fail with the first fault. -/
theorem outcome_traverse {as : List α} (h : ∀ a ∈ as, Relocatable rename (f a)) (next : Nat) :
    (Run.traverse f as next).outcome = (as.mapM fun a => (f a 0).outcome).map fun bs =>
      List.zipWith (fun b n => rename (· + n) b) bs
        ((as.map fun a => (f a 0).taken).scanl (· + ·) next) := by
  induction as generalizing next with
  | nil => rfl
  | cons a as ih =>
    have hhead := (h a List.mem_cons_self).from_zero next
    have htail := ih (fun c hc => h c (List.mem_cons_of_mem _ hc)) ((f a 0).taken + next)
    rw [Run.traverse, List.mapM_cons, hhead, List.map_cons, List.scanl_cons,
      Nat.add_comm next (f a 0).taken]
    cases hb : (f a 0).outcome with
    | error fault => simp [moved, hb, Except.map, bind, Except.bind]
    | ok b =>
      simp only [moved, hb, Except.map, htail]
      cases as.mapM fun a => (f a 0).outcome <;> rfl

end Relocatable

end Run

namespace Schema

variable (schema : Schema) (options : Options) (decl : ClassDecl)

theorem relocatable_propertyShape (slot : Slot) (order : Nat) :
    Run.Relocatable Fragment.rename (schema.propertyShape options decl slot order) := by
  intro first n
  have hmoves : ∀ taken, Moves (· + n) (first + 1) (first + n + 1) taken := by
    intro taken k _
    show first + 1 + k + n = first + n + 1 + k
    omega
  have hstart : first + n + 1 = first + 1 + n := by omega
  simp only [propertyShape, Run.after, Run.moved]
  cases ht : slot.typing schema with
  | error cause => simp [Except.map, hstart]
  | ok typing =>
    cases hv : slot.values typing with
    | error cause =>
      simp only [hv, Except.map]
      congr 1
      omega
    | ok values =>
      have hedges := Slot.rename_propertyEdges options slot order values (typing_ground ht)
        (hmoves typing.taken)
      simp only [hv, Except.map, Fragment.rename_describe, hedges]
      congr 1
      omega

theorem relocatable_propertyShapes :
    Run.Relocatable (fun σ => List.map (Fragment.rename σ)) (schema.propertyShapes options decl) :=
  Run.Relocatable.traverse fun s _ => schema.relocatable_propertyShape options decl s.1 s.2

theorem relocatable_nodeShape :
    Run.Relocatable Fragment.rename (schema.nodeShape options decl) := by
  intro first n
  have hmoves : Moves (· + n) first (first + n) (decl.taken options) := by
    intro k _
    show first + k + n = first + n + k
    omega
  have hedges := rename_shapeEdges options decl hmoves
  have hstart : first + n + decl.taken options = first + decl.taken options + n := by omega
  have hslots := schema.relocatable_propertyShapes options decl (first + decl.taken options) n
  rw [nodeShape, nodeShape, hstart, hslots]
  cases hp : (schema.propertyShapes options decl (first + decl.taken options)).outcome with
  | error fault => simp [Run.after, Run.map, Run.moved, hp, Except.map]
  | ok properties =>
    simp only [Run.after, Run.map, Run.moved, hp, Except.map, Fragment.rename_describe,
      Fragment.renameEdges_append, hedges, Fragment.renameEdges_map]
    rfl

/-- How many blank nodes are taken before each class, and after the last, if each is built on its
own from zero. -/
def classStarts : List Nat :=
  (schema.classes.map fun decl => (schema.nodeShape options decl 0).taken).scanl (· + ·) 0

/-- **A compile class by class.** It is the union of the node shapes that each class has on its
own, each put behind those before it, or it fails with the first fault of a class on its own. -/
theorem compile_eq_mapM :
    schema.compile options =
      (schema.classes.mapM fun decl => (schema.nodeShape options decl 0).outcome).map fun shapes =>
        Graph.ofList ((List.zipWith (fun shape n => shape.rename (· + n)) shapes
          (schema.classStarts options)).flatMap Fragment.triples) := by
  have houtcome := Run.Relocatable.outcome_traverse
    (fun decl (_ : decl ∈ schema.classes) => schema.relocatable_nodeShape options decl) 0
  rw [compile_eq_map, nodeShapes, houtcome]
  cases schema.classes.mapM fun decl => (schema.nodeShape options decl 0).outcome <;> rfl

/-- **Builders do not depend on where they start.** From the blank node `n` on, a property shape and
a node shape are what they are from zero with every number greater by `n`, triple by triple. They
fail with the same fault, and in each case as many numbers are taken and the same is told. So a
compile is the union of the shapes that its classes have on their own, each put behind those before
it. -/
theorem compile_relocates :
    (∀ decl slot order n,
      (schema.propertyShape options decl slot order n).outcome =
          (schema.propertyShape options decl slot order 0).outcome.map (Fragment.rename (· + n)) ∧
        (schema.propertyShape options decl slot order n).taken =
          n + (schema.propertyShape options decl slot order 0).taken ∧
        (schema.propertyShape options decl slot order n).events =
          (schema.propertyShape options decl slot order 0).events) ∧
    (∀ decl n,
      (schema.nodeShape options decl n).outcome =
          (schema.nodeShape options decl 0).outcome.map (Fragment.rename (· + n)) ∧
        (schema.nodeShape options decl n).taken = n + (schema.nodeShape options decl 0).taken ∧
        (schema.nodeShape options decl n).events = (schema.nodeShape options decl 0).events) ∧
    schema.compile options =
      (schema.classes.mapM fun decl => (schema.nodeShape options decl 0).outcome).map fun shapes =>
        Graph.ofList ((List.zipWith (fun shape n => shape.rename (· + n)) shapes
          (schema.classStarts options)).flatMap Fragment.triples) := by
  refine ⟨fun decl slot order n => ?_, fun decl n => ?_, schema.compile_eq_mapM options⟩
  · rw [(schema.relocatable_propertyShape options decl slot order).from_zero n]
    exact ⟨rfl, Nat.add_comm _ _, rfl⟩
  · rw [(schema.relocatable_nodeShape options decl).from_zero n]
    exact ⟨rfl, Nat.add_comm _ _, rfl⟩

end Schema

end SchemaShapes
