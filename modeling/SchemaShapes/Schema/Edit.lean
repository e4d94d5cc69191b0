import SchemaShapes.Schema.Basic

/-!
# Building schemas

Declarations are added at the end; a change goes to the first declaration of a name.

* `Schema.addSlot`, `Schema.updateSlot`: slots of a class.
-/

namespace SchemaShapes

/-- A list with its first element of a kind changed. -/
def updateFirst {α : Type} (p : α → Bool) (f : α → α) : List α → List α
  | [] => []
  | a :: rest => if p a then f a :: rest else a :: updateFirst p f rest

namespace Schema

/-- One more class. -/
def addClass (schema : Schema) (decl : ClassDecl) : Schema :=
  ⟨schema.name, schema.id, schema.classes ++ [decl], schema.enums, schema.types⟩

/-- One more enumeration. -/
def addEnum (schema : Schema) (decl : EnumDecl) : Schema :=
  ⟨schema.name, schema.id, schema.classes, schema.enums ++ [decl], schema.types⟩

/-- One more type. -/
def addType (schema : Schema) (decl : TypeDecl) : Schema :=
  ⟨schema.name, schema.id, schema.classes, schema.enums, schema.types ++ [decl]⟩

/-- A change to the first class of a name. -/
def updateClass (schema : Schema) (name : String) (f : ClassDecl → ClassDecl) : Schema :=
  ⟨schema.name, schema.id, updateFirst (fun c => c.name == name) f schema.classes, schema.enums,
    schema.types⟩

/-- One more slot in the first class of a name. -/
def addSlot (schema : Schema) (className : String) (slot : Slot) : Schema :=
  schema.updateClass className fun c => { c with slots := c.slots ++ [slot] }

/-- A change to the first slot of a name in the first class of a name. -/
def updateSlot (schema : Schema) (className slotName : String) (f : Slot → Slot) : Schema :=
  schema.updateClass className fun c =>
    { c with slots := updateFirst (fun s => s.name == slotName) f c.slots }

end Schema

end SchemaShapes
