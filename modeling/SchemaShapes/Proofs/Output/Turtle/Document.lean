import SchemaShapes.Proofs.Outcome
import SchemaShapes.Proofs.Output.Turtle.Tokens
import SchemaShapes.Proofs.Rdf.Index

/-!
# Turtle read back

A document is a sequence of statements that end with a dot. A statement declares the name of a
namespace, or says of a subject a list of edges between semicolons, with the objects of one
predicate between commas. What is written reads as one statement for each subject, with the edges
of its block.

* `object?`, `edges?`, `statement?`, `document?`: the readers.
* `lexes_object`, `lexes_edge`: what is written has tokens that are read back.
* `read_block`: a block is a statement.
* `read_document_render`: the document of a graph reads as its triples, subject by subject.
-/

namespace SchemaShapes.Output.Turtle

/-- The names of namespaces, the last that is declared first. -/
abbrev Names := List (String × Iri)

/-! ## Readers -/

/-- The IRI of a token that is one, or stands for one. -/
def expand? (names : Names) : Token → Option Iri
  | .iri i => some i
  | .short space loc => (names.lookup space).map (· ++ loc)
  | _ => none

/-- The IRI of a predicate. -/
def verb? (names : Names) : Token → Option Iri
  | .word s => if s = "a" then some Rdf.type else none
  | t => expand? names t

/-- A node of a statement. -/
def node? (names : Names) : Token → Option Term
  | .blank n => some (.blank n)
  | t => (expand? names t).map .iri

/-- **An object.** Truth values and whole numbers may stand bare. -/
def object? (names : Names) : List Token → Option Term
  | [.text s] => some (.literal ⟨s, none⟩)
  | [.text s, .typed, t] => (expand? names t).map fun d => .literal ⟨s, some d⟩
  | [.integer s] => some (.literal ⟨s, some Xsd.integer⟩)
  | [.word s] => if s = "true" ∨ s = "false" then some (.literal ⟨s, some Xsd.boolean⟩) else none
  | [t] => node? names t
  | _ => none

/-- **A predicate with its objects.** There may be nothing between two semicolons. -/
def edges? (names : Names) : List Token → Option (List Edge)
  | [] => some []
  | t :: objects => do
    let p ← verb? names t
    let found ← (objects.splitOn .comma).mapM (object? names)
    pure (found.map fun o => (p, o))

/-- **A statement**: a subject with at least one edge. -/
def statement? (names : Names) : List Token → Option Block
  | [] => none
  | t :: more => do
    let subject ← node? names t
    let found ← (more.splitOn .semicolon).mapM (edges? names)
    if found.head? = some [] then none else some ⟨subject, found.flatten⟩

/-- The declaration of a namespace. -/
def declaration? : List Token → Option (String × Iri)
  | [.prefixWord, .short space loc, .iri i] => if loc = "" then some (space, i) else none
  | _ => none

/-- **The statements** about subjects, each with the names that are declared before it. -/
def statements? (names : Names) : List (List Token) → Option (List Block)
  | [] => some []
  | ts :: more =>
    match declaration? ts with
    | some n => statements? (n :: names) more
    | none => do
      let b ← statement? names ts
      let bs ← statements? names more
      pure (b :: bs)

/-- **A document.** Nothing follows the last dot. -/
def document? (text : String) : Option (List Block) := do
  let ts ← tokens? text.toList
  let parts := ts.splitOn .dot
  if parts.getLast? = some [] then statements? [] parts.dropLast else none

/-! ## Terms -/

/-- The names that documents declare. -/
def declared : Names := namespaces.reverse

theorem lookup_declared : ∀ n ∈ namespaces, declared.lookup n.1 = some n.2 := by
  decide +kernel

theorem expand?_declared {i : Iri} {t : Token} (h : iriToken i t) :
    expand? declared t = some i := by
  cases t with
  | iri j => exact congrArg some h
  | short space loc =>
    obtain ⟨n, hn, rfl, rfl⟩ := h
    rw [expand?, lookup_declared n hn, Option.map_some]
  | _ => cases h

/-- The tokens that part statements, edges and objects. -/
def separators : List Token := [.dot, .semicolon, .comma]

theorem iriToken_cases {i : Iri} {t : Token} (h : iriToken i t) :
    (∃ j, t = .iri j) ∨ ∃ space loc, t = .short space loc := by
  cases t with
  | iri j => exact Or.inl ⟨j, rfl⟩
  | short space loc => exact Or.inr ⟨space, loc, rfl⟩
  | _ => cases h

/-- **A predicate** has a token that is read back. -/
theorem lexes_predicate {p : Iri} (h : PlainIri p) :
    ∃ t, Lexes (predicate p).toList [t] ∧ verb? declared t = some p ∧ t ∉ separators := by
  by_cases ht : p = Rdf.type
  · refine ⟨.word "a", ?_, ?_, by decide⟩
    · rw [predicate, if_pos ht]
      exact lexes_name rfl (List.all_eq_true.1 (by decide +kernel)) (by decide +kernel)
    · rw [ht]
      rfl
  · obtain ⟨t, hi, hlex⟩ := lexes_iri h
    have hexp := expand?_declared hi
    refine ⟨t, ?_, ?_, ?_⟩
    · rw [predicate, if_neg ht]
      exact hlex
    · rcases iriToken_cases hi with ⟨j, rfl⟩ | ⟨space, loc, rfl⟩ <;> exact hexp
    · rcases iriToken_cases hi with ⟨j, rfl⟩ | ⟨space, loc, rfl⟩ <;> simp [separators]

/-- **A subject** has a token that is read back. -/
theorem lexes_node {s : Term} (hl : ∀ l, s ≠ .literal l) (hi : ∀ i ∈ s.iris, PlainIri i) :
    ∃ t, Lexes (term s).toList [t] ∧ node? declared t = some s ∧ object? declared [t] = some s ∧
      t ∉ separators := by
  cases s with
  | iri i =>
    obtain ⟨t, ht, hlex⟩ := lexes_iri (hi i (by simp [Term.iris]))
    have hexp := expand?_declared ht
    refine ⟨t, hlex, ?_⟩
    rcases iriToken_cases ht with ⟨j, rfl⟩ | ⟨space, loc, rfl⟩ <;>
      simp [node?, object?, hexp, separators]
  | blank n => exact ⟨.blank n, lexes_blank n, rfl, rfl, by simp [separators]⟩
  | literal l => exact absurd rfl (hl l)

/-- **A literal** has tokens that are read back. -/
theorem lexes_literal {l : Literal} (h : ∀ d, l.datatype = some d → PlainIri d) :
    ∃ ts, Lexes (literal l).toList ts ∧ object? declared ts = some (.literal l) ∧
      ∀ t ∈ ts, t ∉ separators := by
  obtain ⟨s, d⟩ := l
  cases d with
  | none =>
    exact ⟨[.text s], fun rest more _ hmore => tokens?_quoted s hmore, rfl, by simp [separators]⟩
  | some d =>
    by_cases hb : d = Xsd.boolean ∧ (s = "true" ∨ s = "false")
    · refine ⟨[.word s], ?_, ?_, by simp [separators]⟩
      · rw [literal, if_pos hb]
        exact lexes_boolean hb.2
      · rw [object?, if_pos hb.2, hb.1]
    by_cases hn : d = Xsd.integer ∧ isIntegerToken s = true
    · refine ⟨[.integer s], ?_, ?_, by simp [separators]⟩
      · rw [literal, if_neg hb, if_pos hn]
        exact lexes_integer hn.2
      · rw [object?, hn.1]
    · -- every other datatype is written behind the text
      obtain ⟨t, ht, hlex⟩ := lexes_iri (h d rfl)
      refine ⟨[.text s, .typed, t], fun rest more hrest hmore => ?_, ?_, ?_⟩
      · have hpiece : (literal ⟨s, some d⟩).toList ++ rest =
            (quoted s).toList ++ '^' :: '^' :: ((iri d).toList ++ rest) := by
          simp [literal, hb, hn]
        rw [hpiece]
        exact tokens?_quoted s (tokens?_typed (hlex rest more hrest hmore))
      · rw [object?, expand?_declared ht, Option.map_some]
      · rcases iriToken_cases ht with ⟨j, rfl⟩ | ⟨space, loc, rfl⟩ <;> simp [separators]

/-- **An object** has tokens that are read back. -/
theorem lexes_object {o : Term} (h : ∀ i ∈ o.iris, PlainIri i) :
    ∃ ts, Lexes (term o).toList ts ∧ object? declared ts = some o ∧ ∀ t ∈ ts, t ∉ separators := by
  have hnode : (∀ l, o ≠ .literal l) → ∃ ts, Lexes (term o).toList ts ∧
      object? declared ts = some o ∧ ∀ t ∈ ts, t ∉ separators := by
    intro hl
    obtain ⟨t, hlex, -, hread, hsep⟩ := lexes_node hl h
    exact ⟨[t], hlex, hread, by simpa using hsep⟩
  cases o with
  | iri i => exact hnode (by simp)
  | blank n => exact hnode (by simp)
  | literal l => exact lexes_literal fun d hd => h d (by simp [Term.iris, hd])

/-! ## Blocks -/

/-- **An edge** has tokens that are read back. -/
theorem lexes_edge {e : Edge} (hp : PlainIri e.1) (ho : ∀ i ∈ e.2.iris, PlainIri i) :
    ∃ ts, Lexes (edge e).toList ts ∧ edges? declared ts = some [e] ∧ ∀ t ∈ ts, t ∉ separators := by
  obtain ⟨v, hlexv, hverb, hsepv⟩ := lexes_predicate hp
  obtain ⟨ts, hlex, hobject, hsep⟩ := lexes_object ho
  refine ⟨v :: ts, ?_, ?_, ?_⟩
  · have hpiece : (edge e).toList =
        '\n' :: ' ' :: ' ' :: ((predicate e.1).toList ++ ' ' :: (term e.2).toList) := by
      simp [edge]
    have hboth := hlexv.append (hlex.space (c := ' ') (by decide)) (Or.inl rfl)
    rw [hpiece]
    exact ((hboth.space (by decide)).space (by decide)).space (by decide)
  · have hcomma : Token.comma ∉ ts := fun h => hsep _ h (by simp [separators])
    simp [edges?, hverb, List.splitOn_eq_singleton hcomma, hobject]
  · simpa [hsepv] using hsep

theorem lexes_semicolon : Lexes [' ', ';'] [.semicolon] := by
  have hsemicolon : Lexes [';'] [.semicolon] := lexes_of_token? (by decide) fun _ _ => rfl
  exact hsemicolon.space (by decide)

theorem lexes_dot : Lexes [' ', '.'] [.dot] := by
  have hdot : Lexes ['.'] [.dot] := by
    refine lexes_of_token? (by decide) fun rest hrest => ?_
    cases rest with
    | nil => rfl
    | cons c cs => rcases hrest with h | h <;> (cases h; rfl)
  exact hdot.space (by decide)

/-- Edges start on a line of their own. -/
theorem parted_edges {es : List Edge} (hne : es ≠ []) (rest : List Char) :
    Parted ((String.intercalate " ;" (es.map edge)).toList ++ rest) := by
  rw [String.toList_intercalate]
  cases es with
  | nil => exact absurd rfl hne
  | cons e es =>
    cases es <;> simp [edge, Parted]

/-- **Edges** between semicolons. -/
theorem lexes_edges {f : Edge → List Token} {es : List Edge}
    (h : ∀ e ∈ es, Lexes (edge e).toList (f e)) (hne : es ≠ []) :
    Lexes (String.intercalate " ;" (es.map edge)).toList
      (List.intercalate [.semicolon] (es.map f)) := by
  rw [String.toList_intercalate]
  induction es with
  | nil => exact absurd rfl hne
  | cons e es ih =>
    have he := h e List.mem_cons_self
    cases es with
    | nil => simpa using he
    | cons e' es =>
      have hmore := ih (fun x hx => h x (List.mem_cons_of_mem _ hx)) (List.cons_ne_nil _ _)
      -- what follows the semicolon starts on a line of its own
      have hparted := parted_edges (List.cons_ne_nil e' es) []
      rw [List.append_nil, String.toList_intercalate] at hparted
      simp only [List.map_cons, List.intercalate_cons_cons] at hmore hparted ⊢
      rw [List.append_assoc, List.append_assoc]
      exact he.append (lexes_semicolon.append hmore hparted) (Or.inl rfl)

/-- What is no statement about a subject may still declare a name, but not both. -/
theorem declaration?_eq_none {names : Names} {ts : List Token} {b : Block}
    (h : statement? names ts = some b) : declaration? ts = none := by
  cases ts with
  | nil => cases h
  | cons t ts =>
    cases t with
    | prefixWord => simp [statement?, node?, expand?] at h
    | _ => rfl

/-- Statements do not end inside of lists of edges. -/
theorem dot_not_mem_intercalate {ls : List (List Token)} (h : ∀ l ∈ ls, .dot ∉ l) :
    .dot ∉ List.intercalate [.semicolon] ls := by
  induction ls with
  | nil => simp
  | cons l ls ih =>
    have hl := h l List.mem_cons_self
    have hmore := ih fun m hm => h m (List.mem_cons_of_mem _ hm)
    cases ls with
    | nil => simpa using hl
    | cons m ls => simpa [hl] using hmore

/-- A subject and edges that are read back make a statement that is. -/
theorem statement?_intercalate {names : Names} {t : Token} {b : Block} {f : Edge → List Token}
    (hnode : node? names t = some b.subject) (hne : b.edges ≠ [])
    (hedges : ∀ e ∈ b.edges, edges? names (f e) = some [e])
    (hsep : ∀ e ∈ b.edges, .semicolon ∉ f e) :
    statement? names (t :: List.intercalate [.semicolon] (b.edges.map f)) = some b := by
  have hsplit : (List.intercalate [.semicolon] (b.edges.map f)).splitOn .semicolon =
      b.edges.map f := by
    refine List.splitOn_intercalate _ (fun l hl => ?_) (by simpa using hne)
    obtain ⟨e, he, rfl⟩ := List.mem_map.1 hl
    exact hsep e he
  have hread : (b.edges.map f).mapM (edges? names) = some (b.edges.map fun e => [e]) := by
    rw [List.mapM_map]
    exact mapM_eq_some hedges
  have hflat : (b.edges.map fun e => [e]).flatten = b.edges := List.flatMap_singleton' b.edges
  rw [statement?, hsplit]
  simp [hnode, hread, hflat]

/-- **A block** is a statement that is read back. -/
theorem read_block {b : Block} (hne : b.edges ≠ []) (h : ∀ t ∈ b.triples, t.Writable) :
    ∃ ts, statement? declared ts = some b ∧ .dot ∉ ts ∧ ∀ rest more, tokens? rest = some more →
      tokens? ((block b).toList ++ rest) = some (ts ++ [.dot] ++ more) := by
  have hwritable : ∀ e ∈ b.edges, Triple.Writable ⟨b.subject, e.1, e.2⟩ :=
    fun e he => h _ (List.mem_map_of_mem he)
  have hedge : ∀ e ∈ b.edges, ∃ ts, Lexes (edge e).toList ts ∧ edges? declared ts = some [e] ∧
      ∀ t ∈ ts, t ∉ separators :=
    fun e he => lexes_edge (hwritable e he).predicate (hwritable e he).object_iris
  choose! f hlex hread hsep using hedge
  -- a block has an edge, and so a triple that tells what its subject may be
  obtain ⟨e, he⟩ := List.exists_mem_of_ne_nil _ hne
  obtain ⟨s, hlexs, hnode, -, hseps⟩ :=
    lexes_node (hwritable e he).subject (hwritable e he).subject_iris
  refine ⟨s :: List.intercalate [.semicolon] (b.edges.map f), ?_, ?_, ?_⟩
  · exact statement?_intercalate hnode hne hread fun e he k =>
      hsep e he _ k (by simp [separators])
  · have hdot : Token.dot ≠ s := fun k => hseps (by simp [← k, separators])
    have hdots : .dot ∉ List.intercalate [.semicolon] (b.edges.map f) := by
      refine dot_not_mem_intercalate fun l hl k => ?_
      obtain ⟨e, he, rfl⟩ := List.mem_map.1 hl
      exact hsep e he _ k (by simp [separators])
    simp [hdot, hdots]
  · intro rest more hmore
    have hpiece : (block b).toList ++ rest =
        (term b.subject).toList ++ ((String.intercalate " ;" (b.edges.map edge)).toList ++
          [' ', '.']) ++ '\n' :: '\n' :: rest := by
      simp [block]
    -- an empty line parts the block from the next
    have hends : tokens? ('\n' :: '\n' :: rest) = some more := by
      rw [tokens?_space (by decide), tokens?_space (by decide), hmore]
    have hlexes := hlexs.append ((lexes_edges hlex hne).append lexes_dot (Or.inl rfl))
      (parted_edges hne _)
    rw [hpiece, hlexes _ _ (Or.inr rfl) hends]
    simp

/-! ## Documents -/

/-- The tokens of the declaration of a namespace. -/
def declarationTokens (n : String × Iri) : List Token := [.prefixWord, .short n.1 "", .iri n.2]

/-- **A declaration** is a statement that is read back. -/
theorem read_declaration {n : String × Iri} (hn : n ∈ namespaces) {rest : List Char}
    {more : List Token} (hmore : tokens? rest = some more) :
    tokens? ((declaration n).toList ++ rest) = some (declarationTokens n ++ [.dot] ++ more) := by
  have hname : Lexes (n.1.toList ++ [':']) [.short n.1 ""] := lexes_parts hn rfl (by simp)
  have hiri : Lexes ('<' :: (n.2.toList ++ ['>'])) [.iri n.2] := by
    intro rest more _ hmore
    rw [List.cons_append, List.append_assoc]
    exact tokens?_plain (plainIri_namespaces n hn) hmore
  have hends : tokens? ('\n' :: rest) = some more := by
    rw [tokens?_space (by decide), hmore]
  have hpiece : (declaration n).toList ++ rest =
      '@' :: "prefix".toList ++ (' ' :: (n.1.toList ++ [':']) ++
        (' ' :: '<' :: (n.2.toList ++ ['>']) ++ [' ', '.'])) ++ '\n' :: rest := by
    simp [declaration]
  have hlexes := lexes_prefixWord.append ((hname.space (c := ' ') (by decide)).append
    ((hiri.space (c := ' ') (by decide)).append lexes_dot (Or.inl rfl)) (Or.inl rfl)) (Or.inl rfl)
  rw [hpiece, hlexes _ _ (Or.inr rfl) hends]
  rfl

/-- Declarations only add to the names. -/
theorem statements?_declarations (ns : List (String × Iri)) (names : Names)
    (more : List (List Token)) :
    statements? names (ns.map declarationTokens ++ more) =
      statements? (ns.reverse ++ names) more := by
  induction ns generalizing names with
  | nil => rfl
  | cons n ns ih =>
    rw [List.map_cons, List.cons_append, List.reverse_cons, List.append_assoc]
    exact ih (n :: names)

theorem statements?_map {names : Names} {bs : List Block} {f : Block → List Token}
    (h : ∀ b ∈ bs, statement? names (f b) = some b) :
    statements? names (bs.map f) = some bs := by
  induction bs with
  | nil => rfl
  | cons b bs ih =>
    have hb := h b List.mem_cons_self
    have hmore := ih fun c hc => h c (List.mem_cons_of_mem _ hc)
    simp [statements?, declaration?_eq_none hb, hb, hmore]

/-- Pieces that are read one by one are read together. -/
theorem tokens?_flatMap {α : Type} {as : List α} {f : α → List Char} {g : α → List Token}
    (h : ∀ a ∈ as, ∀ rest more, tokens? rest = some more →
      tokens? (f a ++ rest) = some (g a ++ more))
    {rest : List Char} {more : List Token} (hmore : tokens? rest = some more) :
    tokens? (as.flatMap f ++ rest) = some (as.flatMap g ++ more) := by
  induction as with
  | nil => exact hmore
  | cons a as ih =>
    have hrest := ih fun b hb => h b (List.mem_cons_of_mem _ hb)
    rw [List.flatMap_cons, List.flatMap_cons, List.append_assoc, List.append_assoc]
    exact h a List.mem_cons_self _ _ hrest

/-- Statements that end with a dot are parted by dots. -/
theorem splitOn_dot {parts : List (List Token)} (h : ∀ ts ∈ parts, .dot ∉ ts) :
    (parts.flatMap fun ts => ts ++ [.dot]).splitOn .dot = parts ++ [[]] := by
  induction parts with
  | nil => rfl
  | cons ts parts ih =>
    have hts := h ts List.mem_cons_self
    have hmore := ih fun us hus => h us (List.mem_cons_of_mem _ hus)
    rw [List.flatMap_cons, List.append_assoc, List.singleton_append,
      List.splitOn_append_cons_self_of_not_mem hts, hmore, List.cons_append]

/-- The tokens of a graph are those of its declarations and of its blocks. -/
theorem tokens?_render {g : Graph} {f : Block → List Token}
    (h : ∀ b ∈ g.blocks, ∀ rest more, tokens? rest = some more →
      tokens? ((block b).toList ++ rest) = some (f b ++ [.dot] ++ more)) :
    tokens? (render g).toList = some
      ((namespaces.map declarationTokens ++ g.blocks.map f).flatMap fun ts => ts ++ [.dot]) := by
  have hpiece : (render g).toList = (namespaces.flatMap fun n => (declaration n).toList) ++
      '\n' :: ((g.blocks.flatMap fun b => (block b).toList) ++ []) := by
    simp [render, List.flatMap_map]
  have hblocks := tokens?_flatMap (g := fun b => f b ++ [.dot]) h tokens?_nil
  have hline := (tokens?_space (c := '\n') (by decide) _).trans hblocks
  have hall := tokens?_flatMap (g := fun n => declarationTokens n ++ [.dot])
    (fun n hn _ _ => read_declaration hn) hline
  rw [hpiece, hall]
  simp [List.flatMap_map]

/-- **Turtle loses and adds nothing.** The document of a graph reads as its triples, with one
statement for each subject. -/
theorem read_document_render {g : Graph} (h : g.Writable) :
    ∃ bs, document? (render g) = some bs ∧ bs.flatMap Block.triples = g.toList ∧
      (bs.map Block.subject).Nodup ∧
      ∀ s, s ∈ bs.map Block.subject ↔ ∃ t ∈ g, t.subject = s := by
  have hblock : ∀ b ∈ g.blocks, ∃ ts, statement? declared ts = some b ∧ .dot ∉ ts ∧
      ∀ rest more, tokens? rest = some more →
        tokens? ((block b).toList ++ rest) = some (ts ++ [.dot] ++ more) := by
    intro b hb
    have hne := edges_ne_nil_blocksOf b hb
    exact read_block hne fun t ht => h t (Graph.mem_of_mem_triples hb ht)
  choose! f hstatement hdot htokens using hblock
  have hparts : ∀ ts ∈ namespaces.map declarationTokens ++ g.blocks.map f, .dot ∉ ts := by
    intro ts hts
    rcases List.mem_append.1 hts with hts | hts
    · obtain ⟨n, -, rfl⟩ := List.mem_map.1 hts
      simp [declarationTokens]
    · obtain ⟨b, hb, rfl⟩ := List.mem_map.1 hts
      exact hdot b hb
  have hread : document? (render g) = some g.blocks := by
    rw [document?, tokens?_render htokens]
    simp only [Option.bind_eq_bind, Option.bind_some, splitOn_dot hparts, List.getLast?_concat,
      if_true, List.dropLast_concat]
    rw [statements?_declarations, List.append_nil]
    exact statements?_map hstatement
  exact ⟨g.blocks, hread, triples_blocksOf g.toList, g.nodup_subjects, fun s => Graph.mem_subjects⟩

theorem read_document_render_sample : sample.Writable ∧
    ∃ bs, document? (render sample) = some bs ∧
      ⟨.blank 1, Sh.defaultValue, .literal ⟨"true", some Xsd.integer⟩⟩ ∈
        bs.flatMap Block.triples := by
  obtain ⟨bs, hread, htriples, -, -⟩ := read_document_render writable_sample
  refine ⟨writable_sample, bs, hread, ?_⟩
  rw [htriples]
  exact Graph.mem_ofList.2 (by decide)

end SchemaShapes.Output.Turtle
