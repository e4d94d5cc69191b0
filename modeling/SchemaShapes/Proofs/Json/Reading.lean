import Mathlib.Data.List.Forall2
import Mathlib.Data.List.Pairwise
import Mathlib.Data.List.Perm.Basic
import SchemaShapes.Proofs.Json.Entries
import SchemaShapes.Schema.Reader
import SchemaShapes.Schema.Writer

/-!
# What written values are read as

A value is read as something whether its objects are taken as they stand or as maps. For a record
this asks that its entries may be read in any order, which holds since each field is set by itself.

* `ReadsAs`: what a value is read as.
* `RecordField.Independent`: fields that may be set one after the other in either order.
* `Record.read_object`: a record from entries that each set a field of their own.
* `readsAs_record`, `readsAs_list`, `readsAs_optional`, `readsAs_choice`: what containers are read
  as, from their parts.
-/

namespace SchemaShapes.Json

open List (Forall₂)

variable {α β : Type}

theorem sortedItems_eq (items : List Json) : sortedItems items = items.map sorted := by
  induction items with
  | nil => rfl
  | cons j items ih => rw [sortedItems, ih, List.map_cons]

theorem sortedEntries_eq (entries : List (String × Json)) :
    sortedEntries entries = entries.map fun e => (e.1, e.2.sorted) := by
  induction entries with
  | nil => rfl
  | cons e entries ih =>
    obtain ⟨k, j⟩ := e
    rw [sortedEntries, ih, List.map_cons]

theorem Draft.ofItems_eq (items : List Json) : Draft.ofItems items = items.map Draft.ofJson := by
  induction items with
  | nil => rfl
  | cons j items ih => rw [ofItems, ih, List.map_cons]

/-- **What a value is read as**, with its objects as they stand and with its objects as maps. -/
structure ReadsAs (read : Draft → Except ReadFault α) (j : Json) (a : α) : Prop where
  plain : read (.ofJson j) = .ok a
  asMap : read (.ofJson j.sorted) = .ok a

/-! ## Fields -/

/-- **What an entry does to a record**: the name of a field, and how the record is changed. -/
abbrev Assignment (α : Type) := String × (α → α)

/-- A draft under a key is read into the field of an assignment, whatever the record is before. -/
def Sets (fields : List (RecordField α)) (key : String) (d : Draft) (a : Assignment α) : Prop :=
  ∃ f, fields.find? (fun f => f.isNamed key) = some f ∧ f.name = a.1 ∧
    ∀ record, f.read d record = .ok (a.2 record)

/-- **An entry is read as an assignment**, whether its value is taken as it stands or as a map. -/
def Assigns (fields : List (RecordField α)) (e : String × Json) (a : Assignment α) : Prop :=
  Sets fields e.1 (.ofJson e.2) a ∧ Sets fields e.1 (.ofJson e.2.sorted) a

/-- The record after some assignments. -/
def assignAll (assignments : List (Assignment α)) (record : α) : α :=
  assignments.foldl (fun record a => a.2 record) record

/-- **Fields that are set in either order**: what one of them changes is not what the other
does. -/
def RecordField.Independent (f g : RecordField α) : Prop :=
  ∀ (d d' : Draft) (set set' : α → α), (∀ record, f.read d record = .ok (set record)) →
    (∀ record, g.read d' record = .ok (set' record)) →
    ∀ record, set' (set record) = set (set' record)

instance : Std.Symm (RecordField.Independent (α := α)) where
  symm _ _ h d d' set set' hset hset' record := (h d' d set' set hset' hset record).symm

/-- Fields that set different parts of a record are independent. -/
theorem RecordField.independent_of {γ : Type} {f g : RecordField α}
    {readF : Draft → Except ReadFault β} {readG : Draft → Except ReadFault γ} {setF : α → β → α}
    {setG : α → γ → α} (hf : ∀ d record, f.read d record = (readF d).map (setF record))
    (hg : ∀ d record, g.read d record = (readG d).map (setG record))
    (h : ∀ record b c, setG (setF record b) c = setF (setG record c) b) : f.Independent g := by
  intro d d' set set' hset hset' record
  obtain ⟨b, hb, -⟩ := map_eq_ok.1 ((hf d record).symm.trans (hset record))
  obtain ⟨c, hc, -⟩ := map_eq_ok.1 ((hg d' record).symm.trans (hset' record))
  have hf' : ∀ r, set r = setF r b := by
    intro r
    have heq := (hf d r).symm.trans (hset r)
    rw [hb] at heq
    exact (Except.ok.inj heq).symm
  have hg' : ∀ r, set' r = setG r c := by
    intro r
    have heq := (hg d' r).symm.trans (hset' r)
    rw [hc] at heq
    exact (Except.ok.inj heq).symm
  rw [hf', hg', hg', hf', h]

/-! ## Records -/

namespace Record

variable {fields : List (RecordField α)} {entries : List (String × Json)}
  {assignments : List (Assignment α)}

/-- Entries that set different fields are read one by one. -/
theorem readEntries_ok
    (h : Forall₂ (fun e a => Sets fields e.1 (.ofJson e.2) a) entries assignments)
    {seen : List String} (hnames : (assignments.map Prod.fst).Nodup)
    (hseen : ∀ a ∈ assignments, a.1 ∉ seen) (record : α) :
    readEntries fields (Draft.ofEntries entries) seen record =
      .ok ((assignments.map Prod.fst).reverse ++ seen, assignAll assignments record) := by
  induction h generalizing seen record with
  | nil => rfl
  | @cons e a entries assignments hset _ ih =>
    obtain ⟨key, j⟩ := e
    obtain ⟨name, update⟩ := a
    obtain ⟨f, hfind, rfl, hread⟩ := hset
    obtain ⟨hnew, hmore⟩ := List.nodup_cons.1 hnames
    have hfresh : seen.contains f.name = false := by
      rw [List.contains_eq_mem, decide_eq_false_iff_not]
      exact hseen _ List.mem_cons_self
    have hrest : ∀ b ∈ assignments, b.1 ∉ f.name :: seen := by
      intro b hb hmem
      rcases List.mem_cons.1 hmem with heq | hmem
      · exact hnew (List.mem_map.2 ⟨b, hb, heq⟩)
      · exact hseen b (List.mem_cons_of_mem _ hb) hmem
    simp only at hfind
    simp only [Draft.ofEntries, readEntries, hfind, hfresh, Bool.false_eq_true, if_false, hread,
      ih hmore hrest, assignAll, List.map_cons, List.reverse_cons, List.append_assoc,
      List.singleton_append, List.foldl_cons]

/-- **A record from an object** whose entries set different fields, and all that are required. -/
theorem read_object {origin : Origin} {title : String} {start : α}
    (h : Forall₂ (fun e a => Sets fields e.1 (.ofJson e.2) a) entries assignments)
    (hnames : (assignments.map Prod.fst).Nodup)
    (hrequired : ∀ f ∈ fields, f.required = true → f.name ∈ assignments.map Prod.fst) :
    read origin title fields start (.ofJson (.object entries)) =
      .ok (assignAll assignments start) := by
  have hread : readEntries fields (Draft.ofEntries entries) [] start =
      .ok ((assignments.map Prod.fst).reverse ++ [], assignAll assignments start) :=
    readEntries_ok h hnames (by simp) start
  have hnone : (fields.find? fun f => f.required &&
      !((assignments.map Prod.fst).reverse ++ []).contains f.name) = none := by
    refine List.find?_eq_none.2 fun f hf => ?_
    cases hr : f.required with
    | false => simp
    | true => simpa using hrequired f hf hr
  simp only [Draft.ofJson, read, hread, bind, Except.bind, if_true, hnone]
  rfl

/-- Each assignment is what some entry is read as. -/
theorem exists_sets (h : Forall₂ (fun e a => Sets fields e.1 (.ofJson e.2) a) entries assignments) :
    ∀ a ∈ assignments, ∃ key d, Sets fields key d a := by
  induction h with
  | nil => simp
  | @cons e a _ _ hset _ ih => exact List.forall_mem_cons.2 ⟨⟨e.1, .ofJson e.2, hset⟩, ih⟩

theorem exists_assignment
    (h : Forall₂ (fun e a => Sets fields e.1 (.ofJson e.2) a) entries assignments) {key : String}
    (hkey : key ∈ keys entries) : ∃ a ∈ assignments, ∃ d, Sets fields key d a := by
  induction h with
  | nil => cases hkey
  | @cons e a _ _ hset _ ih =>
    rcases List.mem_cons.1 hkey with rfl | hkey
    · exact ⟨a, List.mem_cons_self, .ofJson e.2, hset⟩
    · obtain ⟨b, hb, hsetB⟩ := ih hkey
      exact ⟨b, List.mem_cons_of_mem _ hb, hsetB⟩

/-- Entries that set different fields have different keys. -/
theorem nodup_keys (h : Forall₂ (fun e a => Sets fields e.1 (.ofJson e.2) a) entries assignments)
    (hnames : (assignments.map Prod.fst).Nodup) : (keys entries).Nodup := by
  induction h with
  | nil => exact List.nodup_nil
  | @cons e a entries assignments hset hmore ih =>
    obtain ⟨hnew, hrest⟩ := List.nodup_cons.1 hnames
    refine List.nodup_cons.2 ⟨fun hkey => ?_, ih hrest⟩
    -- two entries of one key are read into one field
    obtain ⟨f, hfind, hname, -⟩ := hset
    obtain ⟨b, hb, _, g, hfind', hname', -⟩ := exists_assignment hmore hkey
    rw [hfind, Option.some.injEq] at hfind'
    exact hnew (List.mem_map.2 ⟨b, hb, by rw [← hname', ← hfind', hname]⟩)

/-- **Assignments to different fields** may be made in any order. -/
theorem assignAll_perm {assignments' : List (Assignment α)}
    (h : Forall₂ (fun e a => Sets fields e.1 (.ofJson e.2) a) entries assignments)
    (hperm : assignments.Perm assignments') (hindependent : fields.Pairwise RecordField.Independent)
    (hnames : (assignments.map Prod.fst).Nodup) (record : α) :
    assignAll assignments record = assignAll assignments' record := by
  refine hperm.foldl_eq' (fun a ha b hb z => ?_) record
  obtain ⟨_, d, f, hf, hfa, hsetA⟩ := exists_sets h a ha
  obtain ⟨_, d', g, hg, hgb, hsetB⟩ := exists_sets h b hb
  by_cases hab : a = b
  · rw [hab]
  · have hne : f ≠ g := by
      rintro rfl
      exact hab (List.inj_on_of_nodup_map hnames ha hb (hfa.symm.trans hgb))
    exact hindependent.forall (List.mem_of_find?_eq_some hf) (List.mem_of_find?_eq_some hg) hne
      d d' a.2 b.2 hsetA hsetB z

end Record

/-! ## What containers are read as -/

/-- **A record that is written** as entries which set different fields, and all that are required,
is read as what they make of it. -/
theorem readsAs_record {fields : List (RecordField α)} {entries : List (String × Json)}
    {assignments : List (Assignment α)} {origin : Origin} {title : String} {start a : α}
    (h : Forall₂ (Assigns fields) entries assignments)
    (hnames : (assignments.map Prod.fst).Nodup)
    (hrequired : ∀ f ∈ fields, f.required = true → f.name ∈ assignments.map Prod.fst)
    (hindependent : fields.Pairwise RecordField.Independent)
    (hmade : assignAll assignments start = a) :
    ReadsAs (Record.read origin title fields start) (.object entries) a where
  plain := hmade ▸ Record.read_object (h.imp fun _ _ he => he.1) hnames hrequired
  asMap := by
    have hkeys := Record.nodup_keys (h.imp fun _ _ he => he.1) hnames
    have hsorted : Forall₂ (fun e a => Sets fields e.1 (.ofJson e.2) a) (sortedEntries entries)
        assignments := by
      rw [sortedEntries_eq]
      exact List.forall₂_map_left_iff.2 (h.imp fun _ _ he => he.2)
    have hperm : (sortEntries (sortedEntries entries)).Perm (sortedEntries entries) := by
      refine sortEntries_perm ?_
      rw [sortedEntries_eq, keys, List.map_map]
      exact hkeys
    -- the assignments of a map are the same ones in another order
    obtain ⟨assignments', hset, hassign⟩ := List.perm_comp_forall₂ hperm hsorted
    have hnames' : (assignments'.map Prod.fst).Nodup := (hassign.map _).nodup_iff.2 hnames
    have hrequired' : ∀ f ∈ fields, f.required = true → f.name ∈ assignments'.map Prod.fst :=
      fun f hf hr => (hassign.map _).mem_iff.2 (hrequired f hf hr)
    rw [← hmade, ← Record.assignAll_perm hset hassign hindependent hnames' start]
    exact Record.read_object hset hnames' hrequired'

/-- Steps that succeed item by item succeed together. -/
theorem mapM_eq_ok {γ ε : Type} {f : β → Except ε γ} {bs : List β} {cs : List γ}
    (h : Forall₂ (fun b c => f b = .ok c) bs cs) : bs.mapM f = .ok cs := by
  induction h with
  | nil => rfl
  | cons hb _ ih =>
    rw [List.mapM_cons, hb, ih]
    rfl

/-- **A list** is read item by item. -/
theorem readsAs_list {read : Draft → Except ReadFault α} {items : List Json} {as : List α}
    (h : Forall₂ (ReadsAs read) items as) : ReadsAs (readList read) (.array items) as := by
  have hlist : ∀ {js : List Json}, Forall₂ (fun j a => read (.ofJson j) = .ok a) js as →
      readList read (.ofJson (.array js)) = .ok as := by
    intro js hjs
    rw [Draft.ofJson, Draft.ofItems_eq, readList, mapM_eq_ok (List.forall₂_map_left_iff.2 hjs)]
    rfl
  constructor
  · exact hlist (h.imp fun _ _ hj => hj.plain)
  · rw [sorted, sortedItems_eq]
    exact hlist (List.forall₂_map_left_iff.2 (h.imp fun _ _ hj => hj.asMap))

/-- A value that is there, and is not null. -/
theorem readsAs_optional {read : Draft → Except ReadFault α} {j : Json} {a : α}
    (h : ReadsAs read j a) (hnull : j ≠ .null) : ReadsAs (readOptional read) j (some a) := by
  have hsome : ∀ {d : Draft}, d ≠ .null → read d = .ok a → readOptional read d = .ok (some a) := by
    intro d hd hread
    have hmap : readOptional read d = (read d).map some := by
      cases d with
      | null => exact absurd rfl hd
      | _ => rfl
    rw [hmap, hread]
    rfl
  constructor
  · refine hsome ?_ h.plain
    cases j <;> simp_all [Draft.ofJson]
  · refine hsome ?_ h.asMap
    cases j <;> simp_all [Draft.ofJson, sorted]

/-- **One of several names** with what belongs to it. -/
theorem readsAs_choice {origin : Origin} {known : List String}
    {read : String → Option (Draft → Except ReadFault α)} {readKey : Draft → Except ReadFault α}
    {key : String} {j : Json} {a : α} (hkey : read key = some readKey) (h : ReadsAs readKey j a) :
    ReadsAs (readChoice origin known read) (.object [(key, j)]) a := by
  have hchoice : ∀ {j' : Json}, readKey (.ofJson j') = .ok a →
      readChoice origin known read (.ofJson (.object [(key, j')])) = .ok a := by
    intro j' hread
    simp [Draft.ofJson, Draft.ofEntries, readChoice, hkey, hread, bind, Except.bind, pure,
      Except.pure]
  have hsorted : (object [(key, j)]).sorted = .object [(key, j.sorted)] := by
    simp [sorted, sortedEntries, sortEntries]
  exact ⟨hchoice h.plain, hsorted ▸ hchoice h.asMap⟩

theorem readsAs_string (s : String) : ReadsAs readString (.string s) s := ⟨rfl, rfl⟩

theorem readsAs_bool (b : Bool) : ReadsAs readBool (.bool b) b := ⟨rfl, rfl⟩

/-! ## What fields are read as -/

/-- **A field** is assigned what its value is read as. -/
theorem assigns_field {fields : List (RecordField α)} {key name : String} {f : RecordField α}
    {read : Draft → Except ReadFault β} {set : α → β → α} {update : α → α} {j : Json} {b : β}
    (hfind : fields.find? (fun f => f.isNamed key) = some f) (hname : f.name = name)
    (hread : ∀ d record, f.read d record = (read d).map (set record)) (h : ReadsAs read j b)
    (hupdate : ∀ record, set record b = update record) :
    Assigns fields (key, j) (name, update) := by
  have hset : ∀ {d : Draft}, read d = .ok b → Sets fields key d (name, update) := by
    intro d hd
    refine ⟨f, hfind, hname, fun record => ?_⟩
    rw [hread, hd]
    exact congrArg Except.ok (hupdate record)
  exact ⟨hset h.plain, hset h.asMap⟩

@[simp] theorem assignAll_nil (record : α) : assignAll [] record = record := rfl

@[simp] theorem assignAll_cons (a : Assignment α) (more : List (Assignment α)) (record : α) :
    assignAll (a :: more) record = assignAll more (a.2 record) := rfl

@[simp] theorem assignAll_append (first more : List (Assignment α)) (record : α) :
    assignAll (first ++ more) record = assignAll more (assignAll first record) :=
  List.foldl_append

/-- The assignment of a field that is there if its value is. -/
def optionalAssignment (name : String) (set : α → Option β → α) (value : Option β) :
    List (Assignment α) :=
  (value.map fun b => (name, fun record => set record (some b))).toList

theorem assigns_optional {fields : List (RecordField α)} {key name : String} {f : RecordField α}
    {read : Draft → Except ReadFault β} {set : α → Option β → α} {toJson : β → Json}
    {value : Option β} (hfind : fields.find? (fun f => f.isNamed key) = some f)
    (hname : f.name = name)
    (hread : ∀ d record, f.read d record = (readOptional read d).map (set record))
    (h : ∀ b ∈ value, ReadsAs read (toJson b) b ∧ toJson b ≠ .null) :
    Forall₂ (Assigns fields) (optionalField key toJson value)
      (optionalAssignment name set value) := by
  cases value with
  | none => exact .nil
  | some b =>
    obtain ⟨hb, hnull⟩ := h b rfl
    exact .cons (assigns_field hfind hname hread (readsAs_optional hb hnull) fun _ => rfl) .nil

/-- A field that is not there stays as it is. -/
theorem assignAll_optional {name : String} {set : α → Option β → α} {value : Option β} {record : α}
    (h : set record none = record) :
    assignAll (optionalAssignment name set value) record = set record value := by
  cases value with
  | none => exact h.symm
  | some b => rfl

theorem names_optional (name : String) (set : α → Option β → α) (value : Option β) :
    ((optionalAssignment name set value).map Prod.fst).Sublist [name] := by
  cases value with
  | none => exact List.nil_sublist _
  | some b => exact List.Sublist.refl _

end SchemaShapes.Json
