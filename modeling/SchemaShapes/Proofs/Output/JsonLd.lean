import SchemaShapes.Output.JsonLd
import SchemaShapes.Proofs.Json.Entries
import SchemaShapes.Proofs.Outcome
import SchemaShapes.Proofs.Output.ShortNames
import SchemaShapes.Proofs.Rdf.Index

/-!
# JSON-LD read back

A node object names its subject, and each other entry is a predicate with its objects, several of
them in an array. What is written reads as one node object for each subject, with the edges of its
block in another order, as long as no IRI looks like a short name, a label or a keyword.

* `expand`, `node?`, `value?`, `block?`, `blocks?`: the readers.
* `spread_put`: an object that takes in a value keeps all that it held.
* `read_document`: the document of a graph reads as its triples, one node object for each subject.
-/

namespace SchemaShapes

namespace Output

/-! ## Graphs without ambiguous names -/

/-- How the names start that stand for something else than themselves. -/
def reserved : List String := ["sh:", "rdf:", "xsd:", "_:", "@"]

/-- An IRI that is no short name, label or keyword. -/
def PlainName (i : Iri) : Prop := ∀ s ∈ reserved, ¬ s.toList <+: i.toList

instance : DecidablePred PlainName := fun i =>
  inferInstanceAs (Decidable (∀ s ∈ reserved, ¬ s.toList <+: i.toList))

end Output

/-- **A triple that can be linked**, or written in JSON-LD: its subject is no literal, its object is
none if it is a type, and its IRIs stand for themselves. -/
structure Triple.Linkable (t : Triple) : Prop where
  subject : ∀ l, t.subject ≠ .literal l
  type : t.predicate = Rdf.type → ∀ l, t.object ≠ .literal l
  iris : ∀ i ∈ t.iris, Output.PlainName i

/-- **A graph that can be linked.** -/
def Graph.Linkable (g : Graph) : Prop := ∀ t ∈ g, t.Linkable

namespace Output.JsonLd

/-! ## Readers -/

/-- What a name stands for in a context: what is before its first colon may be the name of a
namespace. -/
def expand (context : Json) (name : String) : Iri :=
  let space := name.toList.takeWhile (· ≠ ':')
  match name.toList.dropWhile (· ≠ ':'), context.entry? (String.ofList space) with
  | ':' :: loc, some (.string i) => i ++ String.ofList loc
  | _, _ => name

/-- The node of a name. -/
def node? (context : Json) (name : String) : Option Term :=
  match name.toList with
  | '_' :: ':' :: label => (numberOf? label).map .blank
  | _ => some (.iri (expand context name))

/-- **The term of a value**: a node or a literal. -/
def value? (context : Json) (j : Json) : Option Term :=
  match j.entry? "@id", j.entry? "@value", j.entry? "@type" with
  | some (.string name), none, none => node? context name
  | none, some (.string s), none => some (.literal ⟨s, none⟩)
  | none, some (.string s), some (.string d) => some (.literal ⟨s, some (expand context d)⟩)
  | _, _, _ => none

/-- The edge of a key and one of its values. Types are names. -/
def edge? (context : Json) (e : String × Json) : Option Edge :=
  if e.1 = "@type" then
    match e.2 with
    | .string name => (node? context name).map fun o => (Rdf.type, o)
    | _ => none
  else (value? context e.2).map fun o => (expand context e.1, o)

/-- The values of an entry: each item of an array is one. -/
def values : Json → List Json
  | .array items => items
  | j => [j]

/-- **Each value with its key.** -/
def spread (entries : List (String × Json)) : List (String × Json) :=
  entries.flatMap fun e => (values e.2).map fun j => (e.1, j)

/-- **A node object**: its subject, and the edges of its other entries. -/
def block? (context : Json) : Json → Option Block
  | .object entries =>
    match Json.entry? (.object entries) "@id" with
    | some (.string name) => do
      let subject ← node? context name
      let edges ← (spread (entries.filter fun e => e.1 ≠ "@id")).mapM (edge? context)
      pure ⟨subject, edges⟩
    | _ => none
  | _ => none

/-- **A document**: its node objects, in its own context. -/
def blocks? (j : Json) : Option (List Block) :=
  match j.entry? "@context", j.entry? "@graph" with
  | some context, some (.array items) => items.mapM (block? context)
  | _, _ => none

/-! ## Names -/

/-- The entries of the context. -/
def contextEntries : List (String × Json) := namespaces.map fun n => (n.1, .string n.2)

theorem keys_contextEntries : Json.keys contextEntries = namespaces.map Prod.fst := by
  rw [Json.keys, contextEntries, List.map_map]
  rfl

theorem context_eq : context = .object (Json.sortEntries contextEntries) := rfl

theorem sortEntries_contextEntries : (Json.sortEntries contextEntries).Perm contextEntries := by
  refine Json.sortEntries_perm ?_
  rw [keys_contextEntries]
  decide

/-- **The context** holds each namespace, and nothing else. -/
theorem entry?_context : ∀ n ∈ namespaces, context.entry? n.1 = some (.string n.2) := by
  intro n hn
  have hkeys : (Json.keys (Json.sortEntries contextEntries)).Nodup := by
    rw [Json.keys, (sortEntries_contextEntries.map Prod.fst).nodup_iff, ← Json.keys,
      keys_contextEntries]
    decide
  have hmem : (n.1, Json.string n.2) ∈ contextEntries := List.mem_map.2 ⟨n, hn, rfl⟩
  exact Json.entry?_eq_some hkeys (sortEntries_contextEntries.mem_iff.2 hmem)

theorem entry?_context_eq_none {s : String} (h : ∀ n ∈ namespaces, n.1 ≠ s) :
    context.entry? s = none := by
  rw [context_eq]
  refine Json.entry?_eq_none fun hs => ?_
  rw [Json.keys, (sortEntries_contextEntries.map Prod.fst).mem_iff, ← Json.keys,
    keys_contextEntries] at hs
  obtain ⟨n, hn, rfl⟩ := List.mem_map.1 hs
  exact h n hn rfl

/-- **Short names are expanded.** -/
theorem expand_compact {n : String × Iri} (hn : n ∈ namespaces) (cs : List Char) :
    expand context (n.1 ++ ":" ++ String.ofList cs) = n.2 ++ String.ofList cs := by
  obtain ⟨htake, hdrop⟩ := shortName_split hn (String.ofList cs)
  simp only [expand, htake, hdrop, String.ofList_toList, entry?_context n hn]

/-- **Plain names stand for themselves.** -/
theorem expand_plain {i : Iri} (h : PlainName i) : expand context i = i := by
  have hreserved : ∀ n ∈ namespaces, n.1 ++ ":" ∈ reserved := by decide
  have hparts := List.takeWhile_append_dropWhile (p := (· ≠ ':')) (l := i.toList)
  rw [expand]
  cases hdrop : i.toList.dropWhile (· ≠ ':') with
  | nil => rfl
  | cons c loc =>
    by_cases hc : c = ':'
    · subst hc
      -- what is before the first colon is not the name of a namespace
      have hno : context.entry? (String.ofList (i.toList.takeWhile (· ≠ ':'))) = none := by
        refine entry?_context_eq_none fun n hn hs => h _ (hreserved n hn) ⟨loc, ?_⟩
        rw [← hparts, hdrop, hs]
        simp
      simp only [hno]
    · simp [hc]

/-- An IRI is called by a short name, or by itself. -/
theorem short_cases (i : Iri) :
    short i = i ∨ ∃ n ∈ namespaces, ∃ cs, short i = n.1 ++ ":" ++ String.ofList cs ∧
      i = n.2 ++ String.ofList cs := by
  cases hc : compact? i with
  | none => exact Or.inl (by rw [short, hc, Option.getD_none])
  | some s =>
    obtain ⟨n, hn, cs, -, hi, rfl⟩ := compact?_eq_some hc
    exact Or.inr ⟨n, hn, cs, by rw [short, hc, Option.getD_some], hi⟩

/-- **An IRI is read back** from what it is called. -/
theorem expand_short {i : Iri} (h : PlainName i) : expand context (short i) = i := by
  rcases short_cases i with hs | ⟨n, hn, cs, hs, hi⟩
  · rw [hs, expand_plain h]
  · rw [hs, expand_compact hn, hi]

/-- **How an IRI is called does not start like a label or a keyword**, or like anything else that is
reserved and starts no name of a namespace. -/
theorem not_prefix_short {i : Iri} (h : PlainName i) (start : String) (hstart : start ∈ reserved)
    (hname : ∀ n ∈ namespaces, n.1.toList.head? ≠ start.toList.head?) :
    ¬ start.toList <+: (short i).toList := by
  rcases short_cases i with hs | ⟨n, hn, cs, hs, -⟩
  · rw [hs]
    exact h start hstart
  · intro hprefix
    have hnonempty : ∀ s ∈ reserved, s.toList ≠ [] := by decide
    obtain ⟨d, ds, hd⟩ := List.exists_cons_of_ne_nil (hnonempty start hstart)
    obtain ⟨-, c, more, hc, -⟩ := namespaces_names n hn
    -- a short name starts with the first character of its namespace
    have hchars : (short i).toList = c :: (more ++ ':' :: cs) := by simp [hs, hc]
    rw [hchars, hd, List.cons_prefix_cons] at hprefix
    exact hname n hn (by rw [hc, hd, hprefix.1, List.head?_cons, List.head?_cons])

theorem not_prefix_label {i : Iri} (h : PlainName i) : ¬ "_:".toList <+: (short i).toList :=
  not_prefix_short h "_:" (by simp [reserved]) (by decide +kernel)

theorem not_prefix_keyword {i : Iri} (h : PlainName i) : ¬ "@".toList <+: (short i).toList :=
  not_prefix_short h "@" (by simp [reserved]) (by decide +kernel)

/-- **Nodes are read back** by what they are called. -/
theorem node?_id {t : Term} (hl : ∀ l, t ≠ .literal l) (h : ∀ i ∈ t.iris, PlainName i) :
    node? context (id t) = some t := by
  cases t with
  | iri i =>
    have hi := h i (by simp [Term.iris])
    rw [id, node?]
    split
    · rename_i label hs
      exact absurd ⟨label, hs.symm⟩ (not_prefix_label hi)
    · rw [expand_short hi]
  | blank n =>
    rw [id, node?, toList_blankLabel]
    simp only [numberOf?_toString, Option.map_some]
  | literal l => exact absurd rfl (hl l)

/-! ## Values -/

theorem value?_value {t : Term} (h : ∀ i ∈ t.iris, PlainName i) :
    value? context (value t) = some t := by
  have hnode : (∀ l, t ≠ .literal l) →
      value? context (.object [("@id", .string (id t))]) = some t := by
    intro hl
    have hid := node?_id hl h
    simpa [value?, Json.entry?] using hid
  cases t with
  | iri i => exact hnode (by simp)
  | blank n => exact hnode (by simp)
  | literal l =>
    obtain ⟨s, d⟩ := l
    cases d with
    | none => rfl
    | some d =>
      have hd := expand_short (h d (by simp [Term.iris]))
      simp [value, value?, Json.entry?, hd]

/-- Predicates other than the type are no keywords. -/
theorem entry_key_ne {e : Edge} (ht : e.1 ≠ Rdf.type) (h : PlainName e.1) :
    (entry e).1 ≠ "@id" ∧ (entry e).1 ≠ "@type" := by
  rw [entry, if_neg ht]
  constructor
  · intro (k : short e.1 = "@id")
    exact not_prefix_keyword h (k ▸ ⟨['i', 'd'], rfl⟩)
  · intro (k : short e.1 = "@type")
    exact not_prefix_keyword h (k ▸ ⟨['t', 'y', 'p', 'e'], rfl⟩)

/-- No edge has the key of the subject. -/
theorem entry_key_ne_id {e : Edge} (h : PlainName e.1) : (entry e).1 ≠ "@id" := by
  by_cases ht : e.1 = Rdf.type
  · rw [entry, if_pos ht]
    exact (by decide : "@type" ≠ "@id")
  · exact (entry_key_ne ht h).1

/-- **An edge is read back** from its key and its value. -/
theorem edge?_entry {s : Term} {e : Edge} (h : Triple.Linkable ⟨s, e.1, e.2⟩) :
    edge? context (entry e) = some e := by
  have hobject : ∀ i ∈ e.2.iris, PlainName i :=
    fun i hi => h.iris i (List.mem_append_right _ (List.mem_cons_of_mem _ hi))
  have hpredicate : PlainName e.1 := h.iris _ (List.mem_append_right _ List.mem_cons_self)
  obtain ⟨p, o⟩ := e
  by_cases ht : p = Rdf.type
  · have hid := node?_id (h.type ht) hobject
    rw [entry, if_pos ht, ht, edge?, if_pos rfl]
    simp only [hid, Option.map_some]
  · have hkey := (entry_key_ne ht hpredicate).2
    rw [edge?, if_neg hkey, entry, if_neg ht, value?_value hobject, expand_short hpredicate]
    rfl

/-- What is put into an object is one value. -/
theorem values_entry (e : Edge) : values (entry e).2 = [(entry e).2] := by
  by_cases ht : e.1 = Rdf.type
  · rw [entry, if_pos ht]
    rfl
  · rw [entry, if_neg ht]
    cases e.2 with
    | iri i => rfl
    | blank n => rfl
    | literal l =>
      obtain ⟨s, d⟩ := l
      cases d <;> rfl

/-! ## Objects -/

theorem values_join (there more : Json) : values (join there more) = values there ++ [more] := by
  cases there <;> rfl

theorem spread_cons (e : String × Json) (entries : List (String × Json)) :
    spread (e :: entries) = (values e.2).map (fun j => (e.1, j)) ++ spread entries :=
  List.flatMap_cons

/-- **An object that takes in a value** keeps all that it held. -/
theorem spread_put (entries : List (String × Json)) {key : String} {more : Json}
    (h : values more = [more]) :
    (spread (put entries key more)).Perm ((key, more) :: spread entries) := by
  induction entries with
  | nil => simp [put, spread, h]
  | cons e entries ih =>
    obtain ⟨k, there⟩ := e
    rw [put]
    by_cases hk : k = key
    · -- the value comes behind those of the key, one of them or an array
      rw [if_pos hk, spread_cons, spread_cons, values_join, List.map_append, List.append_assoc, hk]
      exact List.perm_middle
    · rw [if_neg hk, spread_cons, spread_cons]
      exact (ih.append_left _).trans List.perm_middle

theorem keys_cons (e : String × Json) (entries : List (String × Json)) :
    Json.keys (e :: entries) = e.1 :: Json.keys entries := rfl

/-- No key is added that is there. -/
theorem keys_put (entries : List (String × Json)) (key : String) (more : Json) :
    Json.keys (put entries key more) =
      if key ∈ Json.keys entries then Json.keys entries else Json.keys entries ++ [key] := by
  induction entries with
  | nil => rfl
  | cons e entries ih =>
    obtain ⟨k, there⟩ := e
    rw [put]
    by_cases hk : k = key
    · simp [hk, keys_cons]
    · have hk' : key ≠ k := fun h => hk h.symm
      rw [if_neg hk, keys_cons, keys_cons, ih]
      by_cases hmem : key ∈ Json.keys entries <;> simp [hk', hmem]

theorem nodup_keys_put {entries : List (String × Json)} (h : (Json.keys entries).Nodup)
    (key : String) (more : Json) : (Json.keys (put entries key more)).Nodup := by
  rw [keys_put]
  split
  · exact h
  · rename_i hnew
    refine List.nodup_append.2 ⟨h, List.nodup_singleton key, fun k hk l hl e => hnew ?_⟩
    rwa [← List.mem_singleton.1 hl, ← e]

/-- An object with the entries of more edges. -/
def putEdges (entries : List (String × Json)) (es : List Edge) : List (String × Json) :=
  es.foldl (fun entries e => put entries (entry e).1 (entry e).2) entries

theorem nodup_keys_putEdges {entries : List (String × Json)} (h : (Json.keys entries).Nodup)
    (es : List Edge) : (Json.keys (putEdges entries es)).Nodup := by
  induction es generalizing entries with
  | nil => exact h
  | cons e es ih => exact ih (nodup_keys_put h _ _)

/-- **Every value is kept once**, with its key. -/
theorem spread_putEdges (entries : List (String × Json)) (es : List Edge) :
    (spread (putEdges entries es)).Perm (es.map entry ++ spread entries) := by
  induction es generalizing entries with
  | nil => exact List.Perm.refl _
  | cons e es ih =>
    have hput : (spread (put entries (entry e).1 (entry e).2)).Perm (entry e :: spread entries) :=
      spread_put entries (values_entry e)
    exact (ih _).trans ((hput.append_left _).trans List.perm_middle)

/-- Other entries stay behind the first. -/
theorem putEdges_cons {e : String × Json} {es : List Edge} (h : ∀ x ∈ es, e.1 ≠ (entry x).1)
    (entries : List (String × Json)) : putEdges (e :: entries) es = e :: putEdges entries es := by
  induction es generalizing entries with
  | nil => rfl
  | cons x es ih =>
    have hx := h x List.mem_cons_self
    have hput : put (e :: entries) (entry x).1 (entry x).2 =
        e :: put entries (entry x).1 (entry x).2 := by
      rw [put, if_neg hx]
    show putEdges (put (e :: entries) _ _) es = e :: putEdges (put entries _ _) es
    rw [hput, ih fun y hy => h y (List.mem_cons_of_mem _ hy)]

/-- The entries of a node object, before they are sorted. -/
def nodeEntries (b : Block) : List (String × Json) :=
  ("@id", .string (id b.subject)) :: putEdges [] b.edges

section NodeEntries

variable {b : Block} (h : ∀ e ∈ b.edges, "@id" ≠ (entry e).1)

include h

/-- The subject is the first entry, and no edge is joined to it. -/
theorem node_eq : node b = .object (Json.sortEntries (nodeEntries b)) := by
  rw [nodeEntries, ← putEdges_cons h]
  rfl

theorem nodup_keys_nodeEntries : (Json.keys (nodeEntries b)).Nodup := by
  have hstart : (Json.keys [("@id", Json.string (id b.subject))]).Nodup := List.nodup_singleton _
  rw [nodeEntries, ← putEdges_cons h]
  exact nodup_keys_putEdges hstart b.edges

/-- A node object has its subject under a key of its own. -/
theorem entry?_node_id : Json.entry? (node b) "@id" = some (.string (id b.subject)) := by
  have hkeys := nodup_keys_nodeEntries h
  have hsort := Json.sortEntries_perm hkeys
  rw [node_eq h]
  exact Json.entry?_eq_some ((hsort.map Prod.fst).nodup_iff.2 hkeys)
    (hsort.mem_iff.2 List.mem_cons_self)

/-- **The other entries** of a node object hold each edge once. -/
theorem spread_nodeEntries :
    (spread ((Json.sortEntries (nodeEntries b)).filter fun e => e.1 ≠ "@id")).Perm
      (b.edges.map entry) := by
  have hkeys := nodup_keys_nodeEntries h
  have hother : (nodeEntries b).filter (fun e => e.1 ≠ "@id") = putEdges [] b.edges := by
    rw [nodeEntries, List.filter_cons_of_neg (by simp)]
    refine List.filter_eq_self.2 fun e he => ?_
    rw [decide_eq_true_eq]
    intro k
    exact (List.nodup_cons.1 hkeys).1 (List.mem_map.2 ⟨e, he, k⟩)
  have hrest := (Json.sortEntries_perm hkeys).filter fun e => e.1 ≠ "@id"
  rw [hother] at hrest
  have hspread : (spread ((Json.sortEntries (nodeEntries b)).filter fun e => e.1 ≠ "@id")).Perm
      (spread (putEdges [] b.edges)) := hrest.flatMap_right _
  have hedges := spread_putEdges [] b.edges
  rw [show spread [] = [] from rfl, List.append_nil] at hedges
  exact hspread.trans hedges

end NodeEntries

/-- **A node object is read back**, its edges in another order. -/
theorem block?_node {b : Block} (hne : b.edges ≠ []) (h : ∀ t ∈ b.triples, t.Linkable) :
    ∃ es, block? context (node b) = some ⟨b.subject, es⟩ ∧ es.Perm b.edges := by
  have hlinkable : ∀ e ∈ b.edges, Triple.Linkable ⟨b.subject, e.1, e.2⟩ :=
    fun e he => h _ (List.mem_map_of_mem he)
  have hkey : ∀ e ∈ b.edges, "@id" ≠ (entry e).1 := by
    intro e he k
    exact entry_key_ne_id ((hlinkable e he).iris _ (List.mem_append_right _ List.mem_cons_self))
      k.symm
  obtain ⟨es, hread, hperm⟩ := mapM_perm (spread_nodeEntries hkey)
    fun e he => edge?_entry (hlinkable e he)
  -- a block has an edge, and so a triple that tells what its subject may be
  obtain ⟨e, he⟩ := List.exists_mem_of_ne_nil _ hne
  have hsubject : node? context (id b.subject) = some b.subject :=
    node?_id (hlinkable e he).subject fun i hi =>
      (hlinkable e he).iris i (List.mem_append_left _ hi)
  have hid := entry?_node_id hkey
  refine ⟨es, ?_, hperm⟩
  rw [node_eq hkey] at hid ⊢
  rw [block?, hid]
  simp only [hsubject, hread, Option.bind_eq_bind, Option.bind_some]
  rfl

/-- **JSON-LD loses and adds nothing.** The document of a graph reads as its triples, each once,
with one node object for each subject. -/
theorem read_document {g : Graph} (h : g.Linkable) :
    ∃ bs, blocks? (document g) = some bs ∧ (bs.flatMap Block.triples).Perm g.toList ∧
      (bs.map Block.subject).Nodup ∧
      ∀ s, s ∈ bs.map Block.subject ↔ ∃ t ∈ g, t.subject = s := by
  have hblock : ∀ b ∈ g.blocks, ∃ es, block? context (node b) = some ⟨b.subject, es⟩ ∧
      es.Perm b.edges := by
    intro b hb
    have hne := edges_ne_nil_blocksOf b hb
    exact block?_node hne fun t ht => h t (Graph.mem_of_mem_triples hb ht)
  choose! f hread hperm using hblock
  have hblocks : blocks? (document g) = some (g.blocks.map fun b => ⟨b.subject, f b⟩) := by
    have hitems : blocks? (document g) = (g.blocks.map node).mapM (block? context) := by
      simp [blocks?, document, Json.entry?]
    rw [hitems, List.mapM_map]
    exact mapM_eq_some hread
  have htriples :
      ((g.blocks.map fun b => ⟨b.subject, f b⟩).flatMap Block.triples).Perm g.toList := by
    have hsame : ∀ b ∈ g.blocks, (Block.triples ⟨b.subject, f b⟩).Perm b.triples :=
      fun b hb => (hperm b hb).map _
    rw [List.flatMap_map, ← triples_blocksOf g.toList]
    exact List.Perm.flatMap_left _ hsame
  have hsubjects : (g.blocks.map fun b => ⟨b.subject, f b⟩).map Block.subject =
      g.blocks.map Block.subject := by
    rw [List.map_map]
    rfl
  refine ⟨_, hblocks, htriples, ?_, fun s => ?_⟩
  · rw [hsubjects]
    exact g.nodup_subjects
  · rw [hsubjects]
    exact Graph.mem_subjects

/-- An IRI is plain if no reserved start has its first character. -/
theorem plainName_of_head {i : Iri} {c : Char} (h : i.toList.head? = some c)
    (hc : c ∉ ['s', 'r', 'x', '_', '@']) : PlainName i := by
  have hstarts : ∀ s ∈ reserved, ∃ d ∈ ['s', 'r', 'x', '_', '@'], s.toList.head? = some d := by
    simp [reserved]
  rintro s hs ⟨rest, hrest⟩
  obtain ⟨d, hd, hhead⟩ := hstarts s hs
  rw [← hrest, List.head?_append, hhead, Option.some_or, Option.some.injEq] at h
  exact hc (h ▸ hd)

theorem linkable_sample : sample.Linkable := by
  have hrdf : ∀ s, PlainName (Rdf.space ++ s) :=
    fun s => plainName_of_head (c := 'h') (by simp [Rdf.space]) (by decide)
  have hsh : ∀ s, PlainName (Sh.space ++ s) :=
    fun s => plainName_of_head (c := 'h') (by simp [Sh.space]) (by decide)
  have hnote : PlainName "urn:Note" := plainName_of_head (c := 'u') (by simp) (by decide)
  have hinteger : PlainName Xsd.integer :=
    plainName_of_head (c := 'h') (by simp [Xsd.integer, Xsd.space]) (by decide)
  have htype : PlainName Rdf.type := hrdf _
  have hshape : PlainName Sh.nodeShape := hsh _
  have hproperty : PlainName Sh.property := hsh _
  have hpath : PlainName Sh.path := hsh _
  have hdefault : PlainName Sh.defaultValue := hsh _
  have hmin : PlainName Sh.minInclusive := hsh _
  have hneDefault : Sh.defaultValue ≠ Rdf.type := by decide
  have hneMin : Sh.minInclusive ≠ Rdf.type := by decide
  intro t ht
  rw [sample, Graph.mem_ofList] at ht
  simp only [List.mem_cons, List.not_mem_nil, or_false] at ht
  rcases ht with rfl | rfl | rfl | rfl | rfl | rfl | rfl <;> constructor <;>
    simp [Triple.iris, Term.iris, *]

theorem read_document_sample : sample.Linkable ∧
    ∃ bs, blocks? (document sample) = some bs ∧
      ⟨.iri "urn:Note", Sh.property, .blank 1⟩ ∈ bs.flatMap Block.triples := by
  obtain ⟨bs, hread, htriples, -, -⟩ := read_document linkable_sample
  refine ⟨linkable_sample, bs, hread, htriples.mem_iff.2 ?_⟩
  exact Graph.mem_ofList.2 (by decide)

end Output.JsonLd

end SchemaShapes
