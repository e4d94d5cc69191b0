import SchemaShapes.Proofs.Shape.Slot

/-!
# Names that lead to primitive types

A name that is not built in leads to the parent of its type, the parent to its own parent, and so
on. The chain of a name ends at a primitive type, or it ends elsewhere, or it never ends. Looking at
`maxTypeDepth` names finds what a chain with fewer links than that ends at, and a name whose chain
has as many links is refused with those that stand for nothing. In a schema of fewer types no chain
that ends is so long, so that the bound only ever cuts off chains that never end.

* `Schema.Link`, `Schema.Chain`: the names that a name leads to, by the number of links.
* `Schema.Stands`: the names that stand for a primitive type by themselves.
* `Schema.primitive?_eq_some_iff`: what looking at a number of names finds.
* `Schema.Chain.le_length`: a chain that ends has no more links than the schema has types.
* `Schema.typeOf_decides`, `Schema.typeOf_decides_few`: which names are types, in any schema and in
  one of few types.
-/

namespace SchemaShapes.Schema

variable {schema : Schema} {name parent last other : String} {p : Primitive} {k m steps : Nat}

/-! ## Chains of parents -/

/-- **A link** from a name that is not built in to the parent of the first type of that name. -/
structure Link (schema : Schema) (name parent : String) : Prop where
  notBuiltIn : Primitive.ofName? name = none
  declared : ∃ decl, schema.findType? name = some decl ∧ decl.parent = some parent

/-- **The chain of a name**: the names that it leads to, each with the number of links. -/
inductive Chain (schema : Schema) : String → Nat → String → Prop
  | here (name : String) : Chain schema name 0 name
  | link {name parent last : String} {k : Nat} (first : schema.Link name parent)
    (more : Chain schema parent k last) : Chain schema name (k + 1) last

/-- **A name that stands for a primitive type by itself**: a built-in name, or else a type without a
parent, at its datatype. -/
inductive Stands (schema : Schema) : String → Primitive → Prop
  | builtIn {name : String} {p : Primitive} (known : Primitive.ofName? name = some p) :
    Stands schema name p
  | datatype {name : String} {p : Primitive} {decl : TypeDecl}
    (notBuiltIn : Primitive.ofName? name = none) (declared : schema.findType? name = some decl)
    (orphan : decl.parent = none) (named : decl.datatype = some p.datatype) : Stands schema name p

/-- A name without a parent ends a chain. -/
def Ends (schema : Schema) (name : String) : Prop := ∀ parent, ¬ schema.Link name parent

/-- **A chain that ends elsewhere** than at a primitive type. -/
def EndsElsewhere (schema : Schema) (name : String) : Prop :=
  ∃ k last, schema.Chain name k last ∧ schema.Ends last ∧ ∀ p, ¬ schema.Stands last p

/-- **A chain that never ends.** -/
def NeverEnds (schema : Schema) (name : String) : Prop := ∀ k, ∃ last, schema.Chain name k last

theorem Link.unique (h : schema.Link name parent) (h' : schema.Link name other) :
    parent = other := by
  obtain ⟨decl, hdecl, hparent⟩ := h.declared
  obtain ⟨decl', hdecl', hparent'⟩ := h'.declared
  obtain rfl : decl = decl' := Option.some.inj (hdecl.symm.trans hdecl')
  exact Option.some.inj (hparent.symm.trans hparent')

theorem Stands.ends (h : schema.Stands name p) : schema.Ends name := by
  intro parent hlink
  obtain ⟨decl, hdecl, hparent⟩ := hlink.declared
  cases h with
  | builtIn known =>
    rw [hlink.notBuiltIn] at known
    cases known
  | datatype _ declared orphan _ =>
    obtain rfl : decl = _ := Option.some.inj (hdecl.symm.trans declared)
    rw [orphan] at hparent
    cases hparent

/-- A link more at the end. -/
theorem Chain.snoc (h : schema.Chain name k last) (hlink : schema.Link last parent) :
    schema.Chain name (k + 1) parent := by
  induction h with
  | here name => exact .link hlink (.here parent)
  | link first _ ih => exact .link first (ih hlink)

/-- No chain of a name is longer than one that ends. -/
theorem Chain.le_of_ends (h : schema.Chain name k last) (hend : schema.Ends last)
    (h' : schema.Chain name m other) : m ≤ k := by
  induction h generalizing m with
  | here name =>
    cases h' with
    | here => exact Nat.le_refl 0
    | link first _ => exact absurd first (hend _)
  | link first _ ih =>
    cases h' with
    | here => exact Nat.zero_le _
    | link first' more' =>
      obtain rfl := first.unique first'
      exact Nat.succ_le_succ (ih hend more')

/-- **A chain has one end.** -/
theorem Chain.end_unique (h : schema.Chain name k last) (hend : schema.Ends last)
    (h' : schema.Chain name m other) (hend' : schema.Ends other) : k = m ∧ last = other := by
  induction h generalizing m with
  | here name =>
    cases h' with
    | here => exact ⟨rfl, rfl⟩
    | link first _ => exact absurd first (hend _)
  | link first _ ih =>
    cases h' with
    | here => exact absurd first (hend' _)
    | link first' more' =>
      obtain rfl := first.unique first'
      obtain ⟨hk, hlast⟩ := ih hend more'
      exact ⟨congrArg Nat.succ hk, hlast⟩

/-- **A chain ends or goes on.** -/
theorem ends_or_neverEnds (schema : Schema) (name : String) :
    (∃ k last, schema.Chain name k last ∧ schema.Ends last) ∨ schema.NeverEnds name := by
  by_cases h : ∃ k last, schema.Chain name k last ∧ schema.Ends last
  · exact Or.inl h
  push Not at h
  refine Or.inr fun k => ?_
  induction k with
  | zero => exact ⟨name, .here name⟩
  | succ k ih =>
    obtain ⟨last, hlast⟩ := ih
    have hlink := h k last hlast
    unfold Ends at hlink
    push Not at hlink
    obtain ⟨parent, hparent⟩ := hlink
    exact ⟨parent, hlast.snoc hparent⟩

theorem NeverEnds.not_stands (h : schema.NeverEnds name) (hk : schema.Chain name k last) :
    ¬ schema.Stands last p := by
  intro hstands
  obtain ⟨next, hnext⟩ := h (k + 1)
  have := hk.le_of_ends hstands.ends hnext
  omega

/-! ## The length of a chain -/

/-- The names before the end of a chain are different types: from each of them the end is a number of
links away, and no two numbers are the same. -/
theorem Chain.exists_names (h : schema.Chain name k last) (hend : schema.Ends last) :
    ∃ names : List String, names.length = k ∧ names.Nodup ∧
      ∀ n ∈ names, n ∈ schema.types.map TypeDecl.name ∧ ∃ m ≤ k, schema.Chain n m last := by
  induction h with
  | here name => exact ⟨[], rfl, List.nodup_nil, by simp⟩
  | @link name parent last k first more ih =>
    obtain ⟨names, hlength, hnodup, hnames⟩ := ih hend
    have hself : schema.Chain name (k + 1) last := .link first more
    have hnew : name ∉ names := by
      intro hmem
      obtain ⟨-, m, hm, hchain⟩ := hnames name hmem
      have := hchain.le_of_ends hend hself
      omega
    obtain ⟨decl, hdecl, -⟩ := first.declared
    have hname : name ∈ schema.types.map TypeDecl.name :=
      List.mem_map.2 ⟨decl, List.mem_of_find?_eq_some hdecl, by simpa using List.find?_some hdecl⟩
    refine ⟨name :: names, by rw [List.length_cons, hlength], List.nodup_cons.2 ⟨hnew, hnodup⟩, ?_⟩
    intro n hn
    rcases List.mem_cons.1 hn with rfl | hn
    · exact ⟨hname, k + 1, Nat.le_refl _, hself⟩
    · obtain ⟨hdeclared, m, hm, hchain⟩ := hnames n hn
      exact ⟨hdeclared, m, by omega, hchain⟩

/-- **A chain that ends** has no more links than the schema has types. -/
theorem Chain.le_length (h : schema.Chain name k last) (hend : schema.Ends last) :
    k ≤ schema.types.length := by
  obtain ⟨names, rfl, hnodup, hnames⟩ := h.exists_names hend
  have hle := hnodup.length_le_of_subset fun n hn => (hnames n hn).1
  rwa [List.length_map] at hle

/-! ## Looking at names -/

theorem primitive?_of_stands (h : schema.Stands name p) :
    schema.primitive? (steps + 1) name = some p := by
  cases h with
  | builtIn known => simp only [primitive?, known]
  | datatype notBuiltIn declared orphan named =>
    have hread : Primitive.ofDatatype? p.datatype = some p := by cases p <;> decide
    simp only [primitive?, notBuiltIn, declared, orphan, named, hread]

theorem primitive?_of_link (h : schema.Link name parent) :
    schema.primitive? (steps + 1) name = schema.primitive? steps parent := by
  obtain ⟨decl, hdecl, hparent⟩ := h.declared
  simp only [primitive?, h.notBuiltIn, hdecl, hparent]

/-- What a name that has a primitive type is at first sight. -/
theorem stands_or_link_of_primitive? (h : schema.primitive? (steps + 1) name = some p) :
    schema.Stands name p ∨ ∃ parent, schema.Link name parent := by
  rw [primitive?] at h
  cases hname : Primitive.ofName? name with
  | some q =>
    simp only [hname, Option.some.injEq] at h
    exact Or.inl (.builtIn (h ▸ hname))
  | none =>
    cases hdecl : schema.findType? name with
    | none => simp only [hname, hdecl, reduceCtorEq] at h
    | some decl =>
      cases hparent : decl.parent with
      | some parent => exact Or.inr ⟨parent, hname, decl, hdecl, hparent⟩
      | none =>
        cases hiri : decl.datatype with
        | none => simp only [hname, hdecl, hparent, hiri, reduceCtorEq] at h
        | some iri =>
          simp only [hname, hdecl, hparent, hiri] at h
          have heq : p.datatype = iri := by simpa using List.find?_some h
          exact Or.inl (.datatype hname hdecl hparent (heq ▸ hiri))

/-- **What looking at a number of names finds**: the primitive type at the end of a chain with fewer
links than that. -/
theorem primitive?_eq_some_iff : schema.primitive? steps name = some p ↔
    ∃ k last, k < steps ∧ schema.Chain name k last ∧ schema.Stands last p := by
  constructor
  · intro h
    induction steps generalizing name with
    | zero => cases h
    | succ steps ih =>
      rcases stands_or_link_of_primitive? h with hstands | ⟨parent, hlink⟩
      · exact ⟨0, name, Nat.succ_pos _, .here name, hstands⟩
      · rw [primitive?_of_link hlink] at h
        obtain ⟨k, last, hk, hchain, hstands⟩ := ih h
        exact ⟨k + 1, last, Nat.succ_lt_succ hk, .link hlink hchain, hstands⟩
  · rintro ⟨k, last, hk, hchain, hstands⟩
    induction hchain generalizing steps with
    | here name =>
      obtain ⟨more, rfl⟩ := Nat.exists_eq_add_of_lt hk
      rw [Nat.zero_add]
      exact primitive?_of_stands hstands
    | link first _ ih =>
      cases steps with
      | zero => omega
      | succ steps =>
        rw [primitive?_of_link first]
        exact ih (Nat.lt_of_succ_lt_succ hk) hstands

/-! ## Names of types -/

/-- A name is found to be the primitive type that its chain ends at, if the chain has fewer links
than names are looked at. -/
theorem typeOf_eq_ok_iff : schema.typeOf name = .ok p ↔
    ∃ k last, k < maxTypeDepth ∧ schema.Chain name k last ∧ schema.Stands last p :=
  typeOf_eq_ok.trans primitive?_eq_some_iff

/-- A name is refused by itself, and not by a name on the way. -/
theorem typeOf_eq_error {fault : SlotFault} : schema.typeOf name = .error fault ↔
    fault = .unsupportedType name ∧ ∀ p, schema.typeOf name ≠ .ok p := by
  unfold typeOf
  cases schema.resolveType? name <;> simp [eq_comm]

/-- A name is not found to be a type exactly if its chain has too many links, ends elsewhere or never
ends. -/
theorem forall_typeOf_ne_ok_iff : (∀ p, schema.typeOf name ≠ .ok p) ↔
    (∃ k last p, maxTypeDepth ≤ k ∧ schema.Chain name k last ∧ schema.Stands last p) ∨
      schema.EndsElsewhere name ∨ schema.NeverEnds name := by
  constructor
  · intro hnone
    rcases ends_or_neverEnds schema name with ⟨k, last, hchain, hend⟩ | hnever
    · by_cases hstands : ∃ p, schema.Stands last p
      · obtain ⟨p, hp⟩ := hstands
        refine Or.inl ⟨k, last, p, Nat.le_of_not_lt fun hk => ?_, hchain, hp⟩
        exact hnone p (typeOf_eq_ok_iff.2 ⟨k, last, hk, hchain, hp⟩)
      · push Not at hstands
        exact Or.inr (Or.inl ⟨k, last, hchain, hend, hstands⟩)
    · exact Or.inr (Or.inr hnever)
  · intro hall p hp
    obtain ⟨k, last, hk, hchain, hstands⟩ := typeOf_eq_ok_iff.1 hp
    rcases hall with ⟨m, other, q, hm, hchain', hstands'⟩ | ⟨m, other, hchain', hend', hnot⟩ | hnever
    · obtain ⟨rfl, -⟩ := hchain.end_unique hstands.ends hchain' hstands'.ends
      exact absurd hk (Nat.not_lt.2 hm)
    · obtain ⟨-, rfl⟩ := hchain.end_unique hstands.ends hchain' hend'
      exact hnot p hstands
    · exact hnever.not_stands hchain hstands

/-- **Which names are types.** A name is the primitive type that its chain ends at, if the chain has
fewer links than names are looked at. It is refused, by itself and not by a name on the way, if the
chain has more links, ends elsewhere or never ends. -/
theorem typeOf_decides (schema : Schema) (name : String) :
    (∀ p, schema.typeOf name = .ok p ↔
      ∃ k last, k < maxTypeDepth ∧ schema.Chain name k last ∧ schema.Stands last p) ∧
    ∀ fault, schema.typeOf name = .error fault ↔ fault = .unsupportedType name ∧
      ((∃ k last p, maxTypeDepth ≤ k ∧ schema.Chain name k last ∧ schema.Stands last p) ∨
        schema.EndsElsewhere name ∨ schema.NeverEnds name) := by
  refine ⟨fun p => typeOf_eq_ok_iff, fun fault => ?_⟩
  rw [typeOf_eq_error, forall_typeOf_ne_ok_iff]

/-- Types that are derived one from the other, the last of them from `string`. -/
def derivedTypes (count : Nat) : Schema :=
  ⟨"derived", "urn:derived", [], [], (List.range count).map fun i =>
    ⟨"t" ++ toString i, some (if i + 1 = count then "string" else "t" ++ toString (i + 1)), none⟩⟩

/-- **The last link of thirty-two.** The chain of `t0` has as many links as names are looked at, and
the built-in name at its end is not looked at. -/
theorem typeOf_last_link :
    (∃ last, (derivedTypes 32).Chain "t0" maxTypeDepth last ∧
        (derivedTypes 32).Stands last .string) ∧
      (derivedTypes 32).typeOf "t0" = .error (.unsupportedType "t0") := by
  have hmore : (derivedTypes 32).primitive? (maxTypeDepth + 1) "t0" = some .string := by
    decide +kernel
  have hnone : (derivedTypes 32).primitive? maxTypeDepth "t0" = none := by decide +kernel
  obtain ⟨k, last, hk, hchain, hstands⟩ := primitive?_eq_some_iff.1 hmore
  have hfull : k = maxTypeDepth := by
    by_contra hne
    have hsome : (derivedTypes 32).primitive? maxTypeDepth "t0" = some .string :=
      primitive?_eq_some_iff.2 ⟨k, last, by omega, hchain, hstands⟩
    rw [hnone] at hsome
    cases hsome
  refine ⟨⟨last, hfull ▸ hchain, hstands⟩, ?_⟩
  rw [typeOf, resolveType?, hnone]

/-- **Which names are types in a schema of few types.** With fewer types than names are looked at, no
chain that ends is cut off: a name is the primitive type that its chain ends at, and it is refused
exactly if the chain ends elsewhere or never ends. -/
theorem typeOf_decides_few (hfew : schema.types.length ≤ 31) (name : String) :
    (∀ p, schema.typeOf name = .ok p ↔ ∃ k last, schema.Chain name k last ∧ schema.Stands last p) ∧
    ∀ fault, schema.typeOf name = .error fault ↔ fault = .unsupportedType name ∧
      (schema.EndsElsewhere name ∨ schema.NeverEnds name) := by
  have hbound : ∀ {k last p}, schema.Chain name k last → schema.Stands last p → k < maxTypeDepth :=
    fun hchain hstands => Nat.lt_succ_of_le (Nat.le_trans (hchain.le_length hstands.ends) hfew)
  constructor
  · intro p
    rw [typeOf_eq_ok_iff]
    constructor
    · rintro ⟨k, last, -, hchain, hstands⟩
      exact ⟨k, last, hchain, hstands⟩
    · rintro ⟨k, last, hchain, hstands⟩
      exact ⟨k, last, hbound hchain hstands, hchain, hstands⟩
  · intro fault
    rw [typeOf_eq_error, forall_typeOf_ne_ok_iff, or_iff_right]
    rintro ⟨k, last, p, hlong, hchain, hstands⟩
    exact absurd (hbound hchain hstands) (Nat.not_lt.2 hlong)

/-- In a schema of thirty-one types every one of them may be a link. -/
theorem typeOf_decides_few_derived :
    (derivedTypes 31).types.length ≤ 31 ∧
      (∃ k last, (derivedTypes 31).Chain "t0" k last ∧ (derivedTypes 31).Stands last .string) ∧
      ((derivedTypes 31).EndsElsewhere "t31" ∨ (derivedTypes 31).NeverEnds "t31") := by
  have hfew : (derivedTypes 31).types.length ≤ 31 := by decide
  have hfirst : (derivedTypes 31).typeOf "t0" = .ok .string := by decide +kernel
  have hunknown : (derivedTypes 31).typeOf "t31" = .error (.unsupportedType "t31") := by
    decide +kernel
  exact ⟨hfew, ((typeOf_decides_few hfew "t0").1 _).1 hfirst,
    (((typeOf_decides_few hfew "t31").2 _).1 hunknown).2⟩

end SchemaShapes.Schema
