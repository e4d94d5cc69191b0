import SchemaShapes.Proofs.Number.Integers
import SchemaShapes.Proofs.Schema.Finite
import SchemaShapes.Schema.Writer

/-!
# Schemas written and read

A schema without infinite numbers is read back from what is written of it, whatever is stated and
whatever is left out. Each kind of record has its entries, and what they set; together they make the
record again, in any order and also where a default stands under its other name.

* `Schema.IsFinite`: a schema without infinite numbers.
* `Slot.readsAs`, `ClassDecl.readsAs`, `Schema.readsAs`: records are read as what was written.
* `Json.renameDefaults`: the JSON of a schema with other names for some of its defaults.
* `Schema.readsAs_renameDefaults`: what it is read as.
-/

namespace SchemaShapes

open Json
open List (Forall₂)

/-! ## Values -/

theorem readsAs_text (s : String) : ReadsAs readString (.string s) s ∧ Json.string s ≠ .null :=
  ⟨readsAs_string s, Json.noConfusion⟩

theorem readsAs_count (n : UInt64) : ReadsAs readCount (countJson n) n ∧ countJson n ≠ .null := by
  have hread : readCount (.integer n.toNat) = .ok n := by
    have hsize : ((n.toNat : Int) < UInt64.size) := by exact_mod_cast n.toNat_lt
    rw [readCount, if_neg (by omega), if_pos hsize, Int.toNat_natCast, UInt64.ofNat_toNat]
  exact ⟨⟨hread, hread⟩, Json.noConfusion⟩

/-- **A value keeps its kind.** A whole number stays whole, and a double stays a double. -/
theorem Scalar.readsAs {value : Scalar} (h : value.IsFinite) :
    ReadsAs Scalar.read value.toJson value ∧ value.toJson ≠ .null := by
  cases value with
  | bool b => exact ⟨⟨rfl, rfl⟩, Json.noConfusion⟩
  | integer n =>
    have hread : Scalar.read (.integer n.toInt) = .ok (.integer n) := by
      rw [Scalar.read, if_pos (Number.fitsInt64_toInt n), Int64.ofInt_toInt]
    exact ⟨⟨hread, hread⟩, Json.noConfusion⟩
  | real x =>
    have hjson : toJson (.real x) = .real x := if_pos h
    rw [hjson]
    exact ⟨⟨rfl, rfl⟩, Json.noConfusion⟩
  | text s => exact ⟨⟨rfl, rfl⟩, Json.noConfusion⟩

/-! ## Ranges -/

theorem Reference.readsAs (origin : Origin) (r : Reference) :
    ReadsAs (Reference.read origin) r.toJson r := by
  have hname : ∀ (make : String → Reference) (name : String),
      ReadsAs (fun d => (readString d).map make) (.string name) (make name) :=
    fun make name => ⟨rfl, rfl⟩
  cases r with
  | toType name => exact readsAs_choice rfl (hname .toType name)
  | toClass name => exact readsAs_choice rfl (hname .toClass name)
  | toEnum name => exact readsAs_choice rfl (hname .toEnum name)

/-- **A range**, also one of several things. -/
theorem Range.readsAs (origin : Origin) (r : Range) :
    ReadsAs (Range.read origin) r.toJson r ∧ r.toJson ≠ .null := by
  have hname : ∀ (make : String → Reference) (name : String),
      ReadsAs (fun d => (readString d).map fun n => Range.only (make n)) (.string name)
        (.only (make name)) := fun make name => ⟨rfl, rfl⟩
  cases r with
  | only target =>
    cases target with
    | toType name => exact ⟨readsAs_choice rfl (hname .toType name), Json.noConfusion⟩
    | toClass name => exact ⟨readsAs_choice rfl (hname .toClass name), Json.noConfusion⟩
    | toEnum name => exact ⟨readsAs_choice rfl (hname .toEnum name), Json.noConfusion⟩
  | anyOf targets =>
    have htargets : Forall₂ (ReadsAs (Reference.read origin)) (targets.map Reference.toJson)
        targets :=
      List.forall₂_map_left_iff.2 (List.forall₂_same.2 fun r _ => r.readsAs origin)
    obtain ⟨hplain, hmap⟩ := readsAs_list htargets
    refine ⟨readsAs_choice rfl ⟨?_, ?_⟩, Json.noConfusion⟩
    · rw [hplain]
      rfl
    · rw [hmap]
      rfl

/-! ## Slots -/

namespace Slot

/-- The entries of a slot, with its default under some key. -/
def entries (defaultKey : String) (s : Slot) : List (String × Json) :=
  [("name", .string s.name), ("path", .string s.path)] ++
    optionalField "range" Range.toJson s.range ++
    optionalField "min_count" countJson s.minCount ++
    optionalField "max_count" countJson s.maxCount ++
    optionalField defaultKey Scalar.toJson s.default ++
    optionalField "default_type" .string s.defaultType ++
    [("typed_default", .bool s.typedDefault)] ++
    optionalField "description" .string s.description ++
    optionalField "pattern" .string s.pattern ++
    optionalField "minimum_value" Scalar.toJson s.minimum ++
    optionalField "maximum_value" Scalar.toJson s.maximum

/-- What the entries of a slot set. -/
def assignments (s : Slot) : List (Assignment Slot) :=
  [("name", fun r => { r with name := s.name }), ("path", fun r => { r with path := s.path })] ++
    optionalAssignment "range" (fun r v => { r with range := v }) s.range ++
    optionalAssignment "min_count" (fun r v => { r with minCount := v }) s.minCount ++
    optionalAssignment "max_count" (fun r v => { r with maxCount := v }) s.maxCount ++
    optionalAssignment "default" (fun r v => { r with default := v }) s.default ++
    optionalAssignment "default_type" (fun r v => { r with defaultType := v }) s.defaultType ++
    [("typed_default", fun r => { r with typedDefault := s.typedDefault })] ++
    optionalAssignment "description" (fun r v => { r with description := v }) s.description ++
    optionalAssignment "pattern" (fun r v => { r with pattern := v }) s.pattern ++
    optionalAssignment "minimum_value" (fun r v => { r with minimum := v }) s.minimum ++
    optionalAssignment "maximum_value" (fun r v => { r with maximum := v }) s.maximum

theorem fields_independent (origin : Origin) :
    (fields origin).Pairwise RecordField.Independent := by
  simp only [fields, List.pairwise_cons, List.forall_mem_cons, List.not_mem_nil, false_imp_iff,
    implies_true, List.Pairwise.nil, and_true]
  repeat' apply And.intro
  all_goals exact RecordField.independent_of (fun _ _ => rfl) (fun _ _ => rfl) fun _ _ _ => rfl

/-- Each entry of a slot sets its field, that of the default under both its names. -/
theorem assigns (origin : Origin) {s : Slot} (hs : s.IsFinite) {defaultKey : String}
    (hkey : defaultKey ∈ ["default", "ifabsent"]) :
    Forall₂ (Assigns (fields origin)) (s.entries defaultKey) s.assignments := by
  unfold entries assignments
  refine List.rel_append (List.rel_append (List.rel_append (List.rel_append (List.rel_append
    (List.rel_append (List.rel_append (List.rel_append (List.rel_append (List.rel_append
    (.cons ?_ (.cons ?_ .nil)) ?_) ?_) ?_) ?_) ?_) (.cons ?_ .nil)) ?_) ?_) ?_) ?_
  · exact assigns_field rfl rfl (fun _ _ => rfl) (readsAs_string s.name) fun _ => rfl
  · exact assigns_field rfl rfl (fun _ _ => rfl) (readsAs_string s.path) fun _ => rfl
  · exact assigns_optional rfl rfl (fun _ _ => rfl) fun r _ => r.readsAs origin
  · exact assigns_optional rfl rfl (fun _ _ => rfl) fun n _ => readsAs_count n
  · exact assigns_optional rfl rfl (fun _ _ => rfl) fun n _ => readsAs_count n
  · rcases List.mem_pair.1 hkey with rfl | rfl
    · exact assigns_optional rfl rfl (fun _ _ => rfl) fun v hv => Scalar.readsAs (hs.default v hv)
    · exact assigns_optional rfl rfl (fun _ _ => rfl) fun v hv => Scalar.readsAs (hs.default v hv)
  · exact assigns_optional rfl rfl (fun _ _ => rfl) fun t _ => readsAs_text t
  · exact assigns_field rfl rfl (fun _ _ => rfl) (readsAs_bool s.typedDefault) fun _ => rfl
  · exact assigns_optional rfl rfl (fun _ _ => rfl) fun t _ => readsAs_text t
  · exact assigns_optional rfl rfl (fun _ _ => rfl) fun t _ => readsAs_text t
  · exact assigns_optional rfl rfl (fun _ _ => rfl) fun v hv => Scalar.readsAs (hs.minimum v hv)
  · exact assigns_optional rfl rfl (fun _ _ => rfl) fun v hv => Scalar.readsAs (hs.maximum v hv)

theorem nodup_names (s : Slot) : (s.assignments.map Prod.fst).Nodup := by
  have hsub : (s.assignments.map Prod.fst).Sublist (["name", "path"] ++ ["range"] ++
      ["min_count"] ++ ["max_count"] ++ ["default"] ++ ["default_type"] ++ ["typed_default"] ++
      ["description"] ++ ["pattern"] ++ ["minimum_value"] ++ ["maximum_value"]) := by
    simp only [assignments, List.map_append]
    refine List.Sublist.append (List.Sublist.append (List.Sublist.append (List.Sublist.append
      (List.Sublist.append (List.Sublist.append (List.Sublist.append (List.Sublist.append
      (List.Sublist.append (List.Sublist.append (List.Sublist.refl _) ?_) ?_) ?_) ?_) ?_)
      (List.Sublist.refl _)) ?_) ?_) ?_) ?_
    all_goals exact names_optional _ _ _
  exact hsub.nodup (by decide)

/-- The entries of a slot make the slot. -/
theorem assignAll_assignments (s : Slot) : assignAll s.assignments (bare "" "") = s := by
  simp (disch := rfl) only [assignments, bare, assignAll_append, assignAll_cons, assignAll_nil,
    assignAll_optional]

/-- **A slot is read as what was written**, also with its default under the other name. -/
theorem readsAs (origin : Origin) {s : Slot} (hs : s.IsFinite) {defaultKey : String}
    (hkey : defaultKey ∈ ["default", "ifabsent"]) :
    ReadsAs (Slot.read origin) (.object (s.entries defaultKey)) s := by
  have hrequired : ∀ f ∈ fields origin, f.required = true → f.name ∈ ["name", "path"] := by
    simp [fields, RecordField.of]
  refine readsAs_record (assigns origin hs hkey) s.nodup_names (fun f hf hr => ?_)
    (fields_independent origin) s.assignAll_assignments
  simp only [assignments, List.map_append]
  repeat apply List.mem_append_left
  exact hrequired f hf hr

end Slot

/-! ## Enumerations and types -/

/-- What the entries of a value of an enumeration set. -/
def EnumValue.assignments (e : EnumValue) : List (Assignment EnumValue) :=
  [("text", fun r => { r with text := e.text })] ++
    optionalAssignment "meaning" (fun r v => { r with meaning := v }) e.meaning

theorem EnumValue.readsAs (origin : Origin) (e : EnumValue) :
    ReadsAs (EnumValue.read origin) e.toJson e := by
  have hsub : (e.assignments.map Prod.fst).Sublist (["text"] ++ ["meaning"]) := by
    rw [assignments, List.map_append]
    exact (List.Sublist.refl _).append (names_optional _ _ _)
  refine readsAs_record (List.rel_append (.cons ?_ .nil) ?_ : Forall₂ _ _ e.assignments)
    (hsub.nodup (by decide)) ?_ ?_ ?_
  · exact assigns_field rfl rfl (fun _ _ => rfl) (readsAs_string e.text) fun _ => rfl
  · exact assigns_optional rfl rfl (fun _ _ => rfl) fun t _ => readsAs_text t
  · simp [RecordField.of]
  · simp only [List.pairwise_cons, List.forall_mem_cons, List.not_mem_nil, false_imp_iff,
      implies_true, List.Pairwise.nil, and_true]
    exact RecordField.independent_of (fun _ _ => rfl) (fun _ _ => rfl) fun _ _ _ => rfl
  · simp [assignAll_optional]

theorem EnumDecl.readsAs (origin : Origin) (e : EnumDecl) :
    ReadsAs (EnumDecl.read origin) e.toJson e := by
  have hvalues : Forall₂ (ReadsAs (EnumValue.read origin)) (e.values.map EnumValue.toJson)
      e.values :=
    List.forall₂_map_left_iff.2 (List.forall₂_same.2 fun v _ => v.readsAs origin)
  have hnames : ["name", "permissible_values"].Nodup := by decide
  refine readsAs_record (.cons (assigns_field rfl rfl (fun _ _ => rfl) (readsAs_string e.name)
    fun _ => rfl) (.cons (assigns_field rfl rfl (fun _ _ => rfl) (readsAs_list hvalues)
    fun _ => rfl) .nil)) hnames ?_ ?_ rfl
  · simp [RecordField.of]
  · simp only [List.pairwise_cons, List.forall_mem_cons, List.not_mem_nil, false_imp_iff,
      implies_true, List.Pairwise.nil, and_true]
    exact RecordField.independent_of (fun _ _ => rfl) (fun _ _ => rfl) fun _ _ _ => rfl

/-- What the entries of a type set. -/
def TypeDecl.assignments (t : TypeDecl) : List (Assignment TypeDecl) :=
  [("name", fun r => { r with name := t.name })] ++
    optionalAssignment "typeof" (fun r v => { r with parent := v }) t.parent ++
    optionalAssignment "uri" (fun r v => { r with datatype := v }) t.datatype

theorem TypeDecl.readsAs (origin : Origin) (t : TypeDecl) :
    ReadsAs (TypeDecl.read origin) t.toJson t := by
  have hsub : (t.assignments.map Prod.fst).Sublist (["name"] ++ ["typeof"] ++ ["uri"]) := by
    rw [assignments, List.map_append, List.map_append]
    exact ((List.Sublist.refl _).append (names_optional _ _ _)).append (names_optional _ _ _)
  refine readsAs_record (List.rel_append (List.rel_append (.cons ?_ .nil) ?_) ?_ :
    Forall₂ _ _ t.assignments) (hsub.nodup (by decide)) ?_ ?_ ?_
  · exact assigns_field rfl rfl (fun _ _ => rfl) (readsAs_string t.name) fun _ => rfl
  · exact assigns_optional rfl rfl (fun _ _ => rfl) fun n _ => readsAs_text n
  · exact assigns_optional rfl rfl (fun _ _ => rfl) fun n _ => readsAs_text n
  · simp [RecordField.of]
  · simp only [List.pairwise_cons, List.forall_mem_cons, List.not_mem_nil, false_imp_iff,
      implies_true, List.Pairwise.nil, and_true]
    repeat' apply And.intro
    all_goals exact RecordField.independent_of (fun _ _ => rfl) (fun _ _ => rfl) fun _ _ _ => rfl
  · simp [assignAll_optional]

/-! ## Classes and schemas -/

/-- The entries of a class, with some JSON for its slots. -/
def ClassDecl.entries (slots : Json) (c : ClassDecl) : List (String × Json) :=
  [("name", .string c.name), ("uri", .string c.iri)] ++
    optionalField "description" .string c.description ++
    optionalField "closed" .bool c.closed ++
    [("slots", slots)]

/-- What the entries of a class set. -/
def ClassDecl.assignments (c : ClassDecl) : List (Assignment ClassDecl) :=
  [("name", fun r => { r with name := c.name }), ("uri", fun r => { r with iri := c.iri })] ++
    optionalAssignment "description" (fun r v => { r with description := v }) c.description ++
    optionalAssignment "closed" (fun r v => { r with closed := v }) c.closed ++
    [("slots", fun r => { r with slots := c.slots })]

/-- **A class is read as what was written**, if its slots are. -/
theorem ClassDecl.readsAs (origin : Origin) {c : ClassDecl} {slots : List Json}
    (h : Forall₂ (ReadsAs (Slot.read origin)) slots c.slots) :
    ReadsAs (ClassDecl.read origin) (.object (c.entries (.array slots))) c := by
  have hsub : (c.assignments.map Prod.fst).Sublist (["name", "uri"] ++ ["description"] ++
      ["closed"] ++ ["slots"]) := by
    simp only [assignments, List.map_append]
    exact (((List.Sublist.refl _).append (names_optional _ _ _)).append
      (names_optional _ _ _)).append (List.Sublist.refl _)
  refine readsAs_record (List.rel_append (List.rel_append (List.rel_append
    (.cons ?_ (.cons ?_ .nil)) ?_) ?_) (.cons ?_ .nil) : Forall₂ _ _ c.assignments)
    (hsub.nodup (by decide)) ?_ ?_ ?_
  · exact assigns_field rfl rfl (fun _ _ => rfl) (readsAs_string c.name) fun _ => rfl
  · exact assigns_field rfl rfl (fun _ _ => rfl) (readsAs_string c.iri) fun _ => rfl
  · exact assigns_optional rfl rfl (fun _ _ => rfl) fun t _ => readsAs_text t
  · exact assigns_optional rfl rfl (fun _ _ => rfl)
      fun b _ => ⟨readsAs_bool b, Json.noConfusion⟩
  · exact assigns_field rfl rfl (fun _ _ => rfl) (readsAs_list h) fun _ => rfl
  · simp [fields, RecordField.of]
  · simp only [fields, List.pairwise_cons, List.forall_mem_cons, List.not_mem_nil, false_imp_iff,
      implies_true, List.Pairwise.nil, and_true]
    repeat' apply And.intro
    all_goals exact RecordField.independent_of (fun _ _ => rfl) (fun _ _ => rfl) fun _ _ _ => rfl
  · simp [assignAll_optional]

namespace Schema

/-- The entries of a schema, with some JSON for its classes. -/
def entries (classes : Json) (s : Schema) : List (String × Json) :=
  [("name", .string s.name), ("id", .string s.id), ("classes", classes),
    ("enums", .array (s.enums.map EnumDecl.toJson)),
    ("types", .array (s.types.map TypeDecl.toJson))]

/-- **A schema is read as what was written**, if its classes are. -/
theorem readsAs (origin : Origin) {s : Schema} {classes : List Json}
    (h : Forall₂ (ReadsAs (ClassDecl.read origin)) classes s.classes) :
    ReadsAs (Schema.read origin) (.object (s.entries (.array classes))) s := by
  have henums : Forall₂ (ReadsAs (EnumDecl.read origin)) (s.enums.map EnumDecl.toJson) s.enums :=
    List.forall₂_map_left_iff.2 (List.forall₂_same.2 fun e _ => e.readsAs origin)
  have htypes : Forall₂ (ReadsAs (TypeDecl.read origin)) (s.types.map TypeDecl.toJson) s.types :=
    List.forall₂_map_left_iff.2 (List.forall₂_same.2 fun t _ => t.readsAs origin)
  have hnames : ["name", "id", "classes", "enums", "types"].Nodup := by decide
  refine readsAs_record (.cons ?_ (.cons ?_ (.cons ?_ (.cons ?_ (.cons ?_ .nil)))) :
    Forall₂ _ _ [("name", fun r => { r with name := s.name }),
      ("id", fun r => { r with id := s.id }), ("classes", fun r => { r with classes := s.classes }),
      ("enums", fun r => { r with enums := s.enums }),
      ("types", fun r => { r with types := s.types })]) hnames ?_ ?_ rfl
  · exact assigns_field rfl rfl (fun _ _ => rfl) (readsAs_string s.name) fun _ => rfl
  · exact assigns_field rfl rfl (fun _ _ => rfl) (readsAs_string s.id) fun _ => rfl
  · exact assigns_field rfl rfl (fun _ _ => rfl) (readsAs_list h) fun _ => rfl
  · exact assigns_field rfl rfl (fun _ _ => rfl) (readsAs_list henums) fun _ => rfl
  · exact assigns_field rfl rfl (fun _ _ => rfl) (readsAs_list htypes) fun _ => rfl
  · simp [RecordField.of]
  · simp only [List.pairwise_cons, List.forall_mem_cons, List.not_mem_nil, false_imp_iff,
      implies_true, List.Pairwise.nil, and_true]
    repeat' apply And.intro
    all_goals exact RecordField.independent_of (fun _ _ => rfl) (fun _ _ => rfl) fun _ _ _ => rfl

end Schema

/-! ## Defaults under their other name -/

namespace Json

/-- An object with another name for one of its keys. -/
def renameKey (old new : String) : Json → Json
  | .object entries => .object (entries.map fun e => if e.1 = old then (new, e.2) else e)
  | j => j

/-- An object with the value of one of its keys changed. -/
def atKey (key : String) (f : Json → Json) : Json → Json
  | .object entries => .object (entries.map fun e => if e.1 = key then (e.1, f e.2) else e)
  | j => j

/-- An array with each of its items changed, as its index says. -/
def atItems (f : Nat → Json → Json) : Json → Json
  | .array items => .array (items.mapIdx f)
  | j => j

/-- **The JSON of a schema with other names for some of its defaults**: those of the slots that are
chosen, by the indices of the class and of the slot. -/
def renameDefaults (chosen : Nat → Nat → Bool) : Json → Json :=
  atKey "classes" <| atItems fun i => atKey "slots" <| atItems fun k slot =>
    if chosen i k then slot.renameKey "default" "ifabsent" else slot

end Json

/-- An entry whose key is another one is left as it is. -/
theorem map_optionalField {α : Type} {f : String × Json → String × Json} {key : String}
    {toJson : α → Json} {value : Option α} (h : ∀ j, f (key, j) = (key, j)) :
    (optionalField key toJson value).map f = optionalField key toJson value := by
  cases value with
  | none => rfl
  | some v => exact congrArg (fun e => [e]) (h (toJson v))

theorem Slot.renameKey_toJson (s : Slot) :
    s.toJson.renameKey "default" "ifabsent" = .object (s.entries "ifabsent") := by
  have hdefault : (optionalField "default" Scalar.toJson s.default).map
      (fun e => if e.1 = "default" then ("ifabsent", e.2) else e) =
      optionalField "ifabsent" Scalar.toJson s.default := by
    cases s.default <;> rfl
  have hother : ∀ {α : Type} {key : String} {toJson : α → Json} {value : Option α},
      key ≠ "default" → (optionalField key toJson value).map
        (fun e => if e.1 = "default" then ("ifabsent", e.2) else e) =
        optionalField key toJson value :=
    fun hkey => map_optionalField fun _ => if_neg hkey
  simp only [toJson, renameKey, entries, List.map_append, hdefault]
  repeat rw [hother (by decide)]
  rfl

theorem ClassDecl.atKey_toJson (f : Json → Json) (c : ClassDecl) :
    c.toJson.atKey "slots" f = .object (c.entries (f (.array (c.slots.map Slot.toJson)))) := by
  have hother : ∀ {α : Type} {key : String} {toJson : α → Json} {value : Option α},
      key ≠ "slots" → (optionalField key toJson value).map
        (fun e => if e.1 = "slots" then (e.1, f e.2) else e) = optionalField key toJson value :=
    fun hkey => map_optionalField fun _ => if_neg hkey
  simp only [toJson, atKey, entries, List.map_append]
  repeat rw [hother (by decide)]
  rfl

theorem Schema.atKey_toJson (f : Json → Json) (s : Schema) :
    s.toJson.atKey "classes" f =
      .object (s.entries (f (.array (s.classes.map ClassDecl.toJson)))) := rfl

/-- Items that are read one by one, each changed as its index says. -/
theorem forall₂_mapIdx {α β γ : Type} {R : β → γ → Prop} {S : α → γ → Prop} {f : Nat → α → β}
    (hf : ∀ i a c, S a c → R (f i a) c) {as : List α} {cs : List γ} (h : Forall₂ S as cs) :
    Forall₂ R (as.mapIdx f) cs := by
  induction h generalizing f with
  | nil => exact .nil
  | cons ha _ ih =>
    rw [List.mapIdx_cons]
    exact .cons (hf 0 _ _ ha) (ih fun i => hf (i + 1))

theorem forall₂_map {α β : Type} (f : α → β) {P : α → Prop} {as : List α} (h : ∀ a ∈ as, P a) :
    Forall₂ (fun b a => b = f a ∧ P a) (as.map f) as :=
  List.forall₂_map_left_iff.2 (List.forall₂_same.2 fun a ha => ⟨rfl, h a ha⟩)

namespace Schema

/-- **A schema is read as what was written**, whichever of its defaults stand under their other
name. -/
theorem readsAs_renameDefaults (origin : Origin) {s : Schema} (hs : s.IsFinite)
    (chosen : Nat → Nat → Bool) :
    ReadsAs (Schema.read origin) (s.toJson.renameDefaults chosen) s := by
  rw [renameDefaults, atKey_toJson]
  refine Schema.readsAs origin (forall₂_mapIdx ?_ (forall₂_map ClassDecl.toJson hs))
  rintro i _ c ⟨rfl, hc⟩
  rw [ClassDecl.atKey_toJson]
  refine ClassDecl.readsAs origin (forall₂_mapIdx ?_ (forall₂_map Slot.toJson hc))
  rintro k _ slot ⟨rfl, hslot⟩
  cases chosen i k with
  | true =>
    rw [if_pos rfl, Slot.renameKey_toJson]
    exact Slot.readsAs origin hslot (by simp)
  | false => exact Slot.readsAs origin hslot (by simp)

/-- A schema is read as what was written. -/
theorem readsAs_toJson (origin : Origin) {s : Schema} (hs : s.IsFinite) :
    ReadsAs (Schema.read origin) s.toJson s := by
  refine Schema.readsAs origin (List.forall₂_map_left_iff.2 (List.forall₂_same.2 fun c hc => ?_))
  refine ClassDecl.readsAs origin (List.forall₂_map_left_iff.2
    (List.forall₂_same.2 fun slot hslot => ?_))
  exact Slot.readsAs origin (hs c hc slot hslot) (by simp)

end Schema

end SchemaShapes
