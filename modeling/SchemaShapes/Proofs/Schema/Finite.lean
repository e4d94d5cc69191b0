import SchemaShapes.Proofs.Json.InRange
import SchemaShapes.Proofs.Number.Range
import SchemaShapes.Schema.Reader

/-!
# Schemas from documents have finite numbers

Numbers of documents are finite, and a whole number too great for its kind becomes a finite double.
What a reader gives of each part of a document carries over to the whole: a record keeps what each
of its fields keeps, and a list has what each item has.

* `Gives`: what holds of everything that a reader makes of drafts in range.
* `Record.read_gives`, `readList_gives`, `readOptional_gives`: readers of containers.
* `Schema.FromDocument`: a schema read from some document.
* `Schema.FromDocument.isFinite`: its numbers are finite.
-/

namespace SchemaShapes

namespace Json

variable {α β : Type} {P : α → Prop} {Q : β → Prop}

/-! ## Readers of drafts in range -/

/-- **What a reader gives** whenever it succeeds on a draft in range. -/
def Gives (P : α → Prop) (read : Draft → Except ReadFault α) : Prop :=
  ∀ d a, d.InRange → read d = .ok a → P a

/-- **A field keeps a property** of the record it is read into. -/
def RecordField.Keeps (P : α → Prop) (f : RecordField α) : Prop :=
  ∀ record, P record → Gives P fun d => f.read d record

theorem gives_true (read : Draft → Except ReadFault α) : Gives (fun _ => True) read :=
  fun _ _ _ _ => trivial

/-- A field keeps what its value, once set, cannot break. -/
theorem RecordField.Keeps.of {name : String} {required : Bool} {read : Draft → Except ReadFault β}
    {set : α → β → α} (hread : Gives Q read)
    (hset : ∀ record b, P record → Q b → P (set record b)) :
    (RecordField.of name required read set).Keeps P := by
  intro record hrecord d a hd h
  obtain ⟨b, hb, rfl⟩ := map_eq_ok.1 h
  exact hset record b hrecord (hread d b hd hb)

/-- A field that the property does not speak of. -/
theorem RecordField.Keeps.other {name : String} {required : Bool}
    {read : Draft → Except ReadFault β} {set : α → β → α}
    (hset : ∀ record b, P record → P (set record b)) :
    (RecordField.of name required read set).Keeps P :=
  of (gives_true read) fun record b hrecord _ => hset record b hrecord

theorem readOptional_gives {read : Draft → Except ReadFault α} (h : Gives P read) :
    Gives (fun o => ∀ a ∈ o, P a) (readOptional read) := by
  intro d o hd ho a ha
  have hsome : ∀ {d' : Draft}, d'.InRange → (read d').map some = .ok o → P a := by
    intro d' hd' hread
    obtain ⟨b, hb, rfl⟩ := map_eq_ok.1 hread
    cases ha
    exact h d' a hd' hb
  cases d with
  | null =>
    cases ho
    cases ha
  | _ => exact hsome hd ho

/-- Items of a list are read one by one. -/
theorem readList_gives {read : Draft → Except ReadFault α} (h : Gives P read) :
    Gives (fun as => ∀ a ∈ as, P a) (readList read) := by
  have hitems : ∀ {items : List Draft} {as : List α}, (∀ d ∈ items, d.InRange) →
      items.mapM read = .ok as → ∀ a ∈ as, P a := by
    intro items
    induction items with
    | nil =>
      intro as _ has
      cases has
      simp
    | cons d items ih =>
      intro as hin has
      obtain ⟨hd, hmore⟩ := List.forall_mem_cons.1 hin
      rw [List.mapM_cons] at has
      obtain ⟨a, ha, has⟩ := bind_eq_ok.1 has
      obtain ⟨more, hread, has⟩ := bind_eq_ok.1 has
      cases has
      exact List.forall_mem_cons.2 ⟨h d a hd ha, ih hmore hread⟩
  intro d as hd has
  cases hd with
  | array hin =>
    obtain ⟨values, hvalues, hclosed⟩ := bind_eq_ok.1 has
    split at hclosed
    · cases hclosed
      exact hitems hin hvalues
    · cases hclosed
  | _ => cases has

namespace Record

variable {fields : List (RecordField α)}

theorem readEntries_gives (hfields : ∀ f ∈ fields, f.Keeps P) {entries : List (DraftKey × Draft)}
    (hentries : ∀ e ∈ entries, e.2.InRange) {seen seen' : List String} {record record' : α}
    (hrecord : P record) (h : readEntries fields entries seen record = .ok (seen', record')) :
    P record' := by
  induction entries generalizing seen record with
  | nil =>
    cases h
    exact hrecord
  | cons e entries ih =>
    obtain ⟨k, d⟩ := e
    obtain ⟨hd, hmore⟩ := List.forall_mem_cons.1 hentries
    cases k with
    | unusable => cases h
    | text key =>
      rw [readEntries] at h
      split at h
      · split at h
        · exact ih hmore hrecord h
        · cases h
      · rename_i f hf
        split at h
        · cases h
        · split at h
          · cases h
          · rename_i next hread
            have hkeep := hfields f (List.mem_of_find?_eq_some hf)
            exact ih hmore (hkeep record hrecord d next hd hread) h

theorem readItems_gives (hfields : ∀ f ∈ fields, f.Keeps P) {items : List Draft}
    (hitems : ∀ d ∈ items, d.InRange) {record record' : α} (hrecord : P record)
    (h : readItems fields items record = .ok record') : P record' := by
  induction fields generalizing items record with
  | nil =>
    cases h
    exact hrecord
  | cons f fields ih =>
    obtain ⟨hf, hfields⟩ := List.forall_mem_cons.1 hfields
    cases items with
    | nil =>
      cases h
      exact hrecord
    | cons d items =>
      obtain ⟨hd, hitems⟩ := List.forall_mem_cons.1 hitems
      rw [readItems] at h
      split at h
      · cases h
      · rename_i next hread
        exact ih hfields hitems (hf record hrecord d next hd hread) h

/-- **A record** has what it has at the start and each of its fields keeps. -/
theorem read_gives {origin : Origin} {title : String} {start : α}
    (hfields : ∀ f ∈ fields, f.Keeps P) (hstart : P start) :
    Gives P (read origin title fields start) := by
  intro d a hd h
  cases hd with
  | object hentries =>
    obtain ⟨⟨seen, record⟩, hread, hend⟩ := bind_eq_ok.1 h
    have hrecord := readEntries_gives hfields hentries hstart hread
    simp only at hend
    split at hend
    · split at hend
      · cases hend
      · cases hend
        exact hrecord
    · cases hend
  | array hitems =>
    obtain ⟨record, hread, hend⟩ := bind_eq_ok.1 h
    have hrecord := readItems_gives hfields hitems hstart hread
    split at hend
    · cases hend
    · split at hend
      · split at hend
        · cases hend
        · cases hend
      · split at hend
        · cases hend
        · cases hend
          exact hrecord
  | _ => cases h

end Record

end Json

open Json

/-! ## Schemas -/

/-- A value that is no infinite number and no not-a-number. -/
def Scalar.IsFinite : Scalar → Prop
  | .real x => x.isFinite = true
  | _ => True

/-- A slot without infinite numbers. -/
structure Slot.IsFinite (s : Slot) : Prop where
  default : ∀ value ∈ s.default, value.IsFinite
  minimum : ∀ value ∈ s.minimum, value.IsFinite
  maximum : ∀ value ∈ s.maximum, value.IsFinite

/-- **A schema without infinite numbers.** -/
def Schema.IsFinite (s : Schema) : Prop :=
  ∀ c ∈ s.classes, ∀ slot ∈ c.slots, slot.IsFinite

/-- A whole number that is not kept whole becomes a finite double. -/
theorem Scalar.read_gives : Gives Scalar.IsFinite Scalar.read := by
  intro d value hd h
  unfold Scalar.read at h
  split at h
  · cases h
    trivial
  · rename_i n
    cases h
    split
    · trivial
    · obtain ⟨hlow, hhigh⟩ : IsLong n := by
        cases hd
        assumption
      have hmin : Int64.minValue.toInt = -2 ^ 63 := by decide
      have hsize : n < 2 ^ 64 := hhigh
      exact Number.Binary64.isFinite_ofInt (by omega)
  · cases hd with
    | real hx =>
      cases h
      exact hx
  · cases h
    trivial
  · split at h
    · cases h
    · cases h

theorem Slot.read_gives (origin : Origin) : Gives Slot.IsFinite (Slot.read origin) := by
  have hstart : Slot.IsFinite (.bare "" "") := by
    constructor <;> simp [Slot.bare]
  have hscalar : Gives (fun o => ∀ value ∈ o, value.IsFinite) (readOptional Scalar.read) :=
    readOptional_gives Scalar.read_gives
  have hdefault : (RecordField.of "default" false (readOptional Scalar.read)
      fun (s : Slot) v => { s with default := v }).Keeps Slot.IsFinite :=
    RecordField.Keeps.of hscalar fun s v hs hv => ⟨hv, hs.minimum, hs.maximum⟩
  have hminimum : (RecordField.of "minimum_value" false (readOptional Scalar.read)
      fun (s : Slot) v => { s with minimum := v }).Keeps Slot.IsFinite :=
    RecordField.Keeps.of hscalar fun s v hs hv => ⟨hs.default, hv, hs.maximum⟩
  have hmaximum : (RecordField.of "maximum_value" false (readOptional Scalar.read)
      fun (s : Slot) v => { s with maximum := v }).Keeps Slot.IsFinite :=
    RecordField.Keeps.of hscalar fun s v hs hv => ⟨hs.default, hs.minimum, hv⟩
  refine Record.read_gives ?_ hstart
  simp only [fields, List.forall_mem_cons, List.not_mem_nil, false_imp_iff, implies_true, and_true]
  refine ⟨.other ?_, .other ?_, .other ?_, .other ?_, .other ?_, hdefault, .other ?_, .other ?_,
    .other ?_, .other ?_, hminimum, hmaximum⟩
  all_goals exact fun s v hs => ⟨hs.default, hs.minimum, hs.maximum⟩

theorem ClassDecl.read_gives (origin : Origin) :
    Gives (fun c => ∀ slot ∈ c.slots, slot.IsFinite) (ClassDecl.read origin) := by
  refine Record.read_gives ?_ (by simp)
  simp only [fields, List.forall_mem_cons, List.not_mem_nil, false_imp_iff, implies_true, and_true]
  have hslots := readList_gives (Slot.read_gives origin)
  refine ⟨.other ?_, .other ?_, .other ?_, .other ?_, .of hslots fun _ _ _ h => h⟩
  all_goals exact fun _ _ h => h

namespace Schema

theorem read_gives (origin : Origin) : Gives IsFinite (Schema.read origin) := by
  have hstart : IsFinite .empty := by
    intro c hc
    cases hc
  refine Record.read_gives ?_ hstart
  simp only [List.forall_mem_cons, List.not_mem_nil, false_imp_iff, implies_true, and_true]
  have hclasses := readList_gives (ClassDecl.read_gives origin)
  refine ⟨.other ?_, .other ?_, .of hclasses fun _ _ _ h => h, .other ?_, .other ?_⟩
  all_goals exact fun _ _ h => h

/-- **A schema read from a document**, be it a value or a text. -/
def FromDocument (s : Schema) : Prop :=
  (∃ j : Json, j.InRange ∧ Schema.ofJson j = .ok s) ∨ ∃ text, Schema.ofText text = .ok s

/-- **What is read from a document** has finite numbers only. -/
theorem FromDocument.isFinite {s : Schema} (h : s.FromDocument) : s.IsFinite := by
  rcases h with ⟨j, hj, hread⟩ | ⟨text, hread⟩
  · exact read_gives .value _ s hj.ofJson_sorted hread
  · obtain ⟨a, ha, hend⟩ := bind_eq_ok.1 hread
    have hfinite := read_gives .text _ a (Draft.inRange_ofText text) ha
    split at hend
    · cases hend
      exact hfinite
    · cases hend

end Schema

end SchemaShapes
