import SchemaShapes.Json.Draft
import SchemaShapes.Proofs.Json.Reading

/-!
# The numbers that documents hold

Whole numbers that are read from a text fit into 64 bits with or without a sign, and other numbers
are finite, since a number past the greatest double is read as no number at all. So every number of
a draft is in range, also where the text breaks off behind it.

* `Draft.InRange`, `Json.InRange`: drafts and values whose numbers are in range.
* `inRange_tokens`: the tokens of a text are in range.
* `Draft.inRange_ofText`: so is what a text holds.
* `InRange.ofJson_sorted`: a value in range is a draft in range.
-/

namespace SchemaShapes.Json

open SchemaShapes.Number (Binary64 DecimalNumeral Magnitude)

/-- Whole numbers that 64 bits hold with a sign or without one. -/
def IsLong (n : Int) : Prop := Int64.minValue.toInt ≤ n ∧ n < UInt64.size

/-- **A value whose numbers are in range.** -/
inductive InRange : Json → Prop where
  | null : InRange .null
  | bool (b : Bool) : InRange (.bool b)
  | integer {n : Int} (h : IsLong n) : InRange (.integer n)
  | real {x : Binary64} (h : x.isFinite = true) : InRange (.real x)
  | string (s : String) : InRange (.string s)
  | array {items : List Json} (h : ∀ j ∈ items, InRange j) : InRange (.array items)
  | object {entries : List (String × Json)} (h : ∀ e ∈ entries, InRange e.2) :
    InRange (.object entries)

/-- **A draft whose numbers are in range.** -/
inductive Draft.InRange : Draft → Prop where
  | null : InRange .null
  | bool (b : Bool) : InRange (.bool b)
  | integer {n : Int} (h : IsLong n) : InRange (.integer n)
  | real {x : Binary64} (h : x.isFinite = true) : InRange (.real x)
  | string (s : String) : InRange (.string s)
  | array {items : List Draft} {closed : Bool} (h : ∀ d ∈ items, InRange d) :
    InRange (.array items closed)
  | object {entries : List (DraftKey × Draft)} {closed : Bool} (h : ∀ e ∈ entries, InRange e.2) :
    InRange (.object entries closed)
  | unusable : InRange .unusable
  | broken : InRange .broken

/-! ## Values -/

theorem Draft.ofEntries_eq (entries : List (String × Json)) :
    Draft.ofEntries entries = entries.map fun e => (.text e.1, .ofJson e.2) := by
  induction entries with
  | nil => rfl
  | cons e entries ih =>
    obtain ⟨k, j⟩ := e
    rw [ofEntries, ih, List.map_cons]

/-- **A value in range** is a draft in range when its objects are taken as maps. -/
theorem InRange.ofJson_sorted {j : Json} (h : j.InRange) : (Draft.ofJson j.sorted).InRange := by
  induction h with
  | null => exact .null
  | bool b => exact .bool b
  | integer h => exact .integer h
  | real h => exact .real h
  | string s => exact .string s
  | array _ ih =>
    rw [sorted, sortedItems_eq, Draft.ofJson, Draft.ofItems_eq, List.map_map]
    exact .array (List.forall_mem_map.2 ih)
  | object _ ih =>
    rw [sorted, sortedEntries_eq, Draft.ofJson, Draft.ofEntries_eq]
    refine .object (List.forall_mem_map.2 fun e he => ?_)
    obtain ⟨e', he', rfl⟩ := List.mem_map.1 (mem_of_mem_sortEntries he)
    exact ih e' he'

/-! ## Tokens -/

namespace Token

/-- A token that is no number, or one in range. -/
def InRange : Token → Prop
  | .integer n => IsLong n
  | .real x => x.isFinite = true
  | _ => True

theorem inRange_ofDecimal (reading : DecimalReading) (negative : Bool) (d : DecimalNumeral) :
    (ofDecimal reading negative d).InRange := by
  unfold ofDecimal
  split
  · rfl
  · trivial

/-- A whole number past 64 bits becomes a double. -/
theorem inRange_ofInteger (reading : DecimalReading) (negative : Bool) (digits : List Char) :
    (ofInteger reading negative digits).InRange := by
  unfold ofInteger
  extract_lets n isWhole
  have hlong : isWhole = true → IsLong n := by
    intro h
    cases negative with
    | true =>
      have hneg : (decide (n < 0) && Number.fitsInt64 n) = true := h
      rw [Bool.and_eq_true, Number.fitsInt64, Bool.and_eq_true, decide_eq_true_iff,
        decide_eq_true_iff, decide_eq_true_iff] at hneg
      exact ⟨hneg.2.1, Int.lt_trans hneg.1 (by decide)⟩
    | false =>
      have hpos : 0 ≤ n := Int.natCast_nonneg (Number.valueOf digits)
      simp only [isWhole, Bool.false_eq_true, if_false, decide_eq_true_iff] at h
      exact ⟨Int.le_trans (by decide) hpos, h⟩
  split
  · rename_i h
    exact hlong h
  · exact inRange_ofDecimal reading negative _

theorem inRange_readNumber (reading : DecimalReading) (negative : Bool) (cs : List Char) :
    (readNumber reading negative cs).1.InRange := by
  unfold readNumber
  simp only
  split
  · trivial
  · split
    · split
      · trivial
      · split
        · trivial
        · exact inRange_ofDecimal reading negative _
    · split
      · trivial
      · exact inRange_ofInteger reading negative _
      · exact inRange_ofDecimal reading negative _

theorem inRange_readString (cs : List Char) : (readString cs).1.InRange := by
  unfold readString
  split
  · trivial
  · split
    · trivial
    · trivial

theorem inRange_next (reading : DecimalReading) (cs : List Char) :
    (next reading cs).1.InRange := by
  unfold next
  split
  any_goals trivial
  · exact inRange_readString _
  · exact inRange_readNumber reading true _
  · exact inRange_readNumber reading false _

/-- Tokens in range are only followed by others. -/
theorem inRange_scan (reading : DecimalReading) (steps : Nat) (cs : List Char) {done : List Token}
    (h : ∀ t ∈ done, t.InRange) : ∀ t ∈ scan reading steps cs done, t.InRange := by
  induction steps generalizing cs done with
  | zero => exact fun t ht => h t (List.mem_reverse.1 ht)
  | succ steps ih =>
    unfold scan
    split
    · exact fun t ht => h t (List.mem_reverse.1 ht)
    · split
      · intro t ht
        rcases List.mem_cons.1 (List.mem_reverse.1 ht) with rfl | ht
        · trivial
        · exact h t ht
      · rename_i hnext
        refine ih _ (List.forall_mem_cons.2 ⟨?_, h⟩)
        have htoken := inRange_next reading (cs.dropWhile isSpace)
        rw [hnext] at htoken
        exact htoken

end Token

/-- **The tokens of a text** are in range. -/
theorem inRange_tokens (reading : DecimalReading) (text : String) :
    ∀ t ∈ tokens reading text, t.InRange :=
  Token.inRange_scan reading _ _ (by simp)

/-! ## Drafts of tokens -/

namespace Draft

/-- What stands in a text, in range like all that is behind it. -/
def Reading.InRange (r : Reading) : Prop :=
  r.1.InRange ∧ ∀ rest ∈ r.2, ∀ t ∈ rest, t.InRange

theorem Reading.InRange.sealed {r : Reading} (h : r.InRange) (levels : Nat) :
    Reading.InRange (Draft.sealed levels r) := by
  unfold Draft.sealed
  split
  · exact ⟨.unusable, h.2⟩
  · exact ⟨.unusable, h.2⟩
  · exact h

/-- The tokens behind a key. -/
theorem inRange_key? {tokens rest : List Token} {k : DraftKey} (h : ∀ t ∈ tokens, t.InRange)
    (hkey : key? tokens = some (k, rest)) : ∀ t ∈ rest, t.InRange := by
  unfold key? at hkey
  split at hkey
  · cases hkey
    exact fun t ht => h t (List.mem_cons_of_mem _ ht)
  · cases hkey
    exact fun t ht => h t (List.mem_cons_of_mem _ ht)
  · cases hkey

/-- A draft before tokens in range. -/
theorem Reading.InRange.before {d : Draft} (hd : d.InRange) {t : Token} {rest : List Token}
    (h : ∀ t' ∈ t :: rest, t'.InRange) : Reading.InRange (d, some rest) := by
  refine ⟨hd, fun tokens htokens => ?_⟩
  cases htokens
  exact (List.forall_mem_cons.1 h).2

/-- A draft behind which the text breaks off. -/
theorem Reading.InRange.last {d : Draft} (hd : d.InRange) : Reading.InRange (d, none) :=
  ⟨hd, fun _ h => nomatch h⟩

/-- The items of an array are collected in reverse. -/
theorem InRange.array_reverse {ds : List Draft} {closed : Bool} (h : ∀ d ∈ ds, d.InRange) :
    Draft.InRange (.array ds.reverse closed) :=
  .array fun d hd => h d (List.mem_reverse.1 hd)

theorem InRange.object_reverse {es : List (DraftKey × Draft)} {closed : Bool}
    (h : ∀ e ∈ es, e.2.InRange) : Draft.InRange (.object es.reverse closed) :=
  .object fun e he => h e (List.mem_reverse.1 he)

/-- A value is in range if its items or entries are. -/
theorem inRange_value_step {steps : Nat}
    (hitems : ∀ levels tokens, (∀ t ∈ tokens, t.InRange) →
      Reading.InRange (items steps levels tokens []))
    (hentries : ∀ levels tokens, (∀ t ∈ tokens, t.InRange) →
      Reading.InRange (entries steps levels tokens []))
    (levels : Nat) {tokens : List Token} (h : ∀ t ∈ tokens, t.InRange) :
    Reading.InRange (value (steps + 1) levels tokens) := by
  unfold value
  split
  · exact .before .null h
  · exact .before (.bool _) h
  · exact .before (.integer (h _ List.mem_cons_self)) h
  · exact .before (.real (h _ List.mem_cons_self)) h
  · exact .before (.string _) h
  · exact .before .unusable h
  · exact .before .unusable h
  · have hempty : Draft.InRange (.array [] true) := .array (by simp)
    exact .sealed (.before hempty (List.forall_mem_cons.1 h).2) levels
  · exact .sealed (hitems _ _ (List.forall_mem_cons.1 h).2) levels
  · have hempty : Draft.InRange (.object [] true) := .object (by simp)
    exact .sealed (.before hempty (List.forall_mem_cons.1 h).2) levels
  · exact .sealed (hentries _ _ (List.forall_mem_cons.1 h).2) levels
  · exact .last .broken

/-- The items of an array are in range if the next value is, and the items behind it. -/
theorem inRange_items_step {steps levels : Nat} {tokens : List Token} {done : List Draft}
    (hvalue : Reading.InRange (value steps levels tokens))
    (hitems : ∀ d rest, d.InRange → (∀ t ∈ rest, t.InRange) →
      Reading.InRange (items steps levels rest (d :: done)))
    (hdone : ∀ d ∈ done, d.InRange) :
    Reading.InRange (items (steps + 1) levels tokens done) := by
  unfold items
  split
  · exact .last (.array_reverse hdone)
  · rename_i heq
    obtain ⟨hd, hrest⟩ := heq ▸ hvalue
    exact hitems _ _ hd (List.forall_mem_cons.1 (hrest _ rfl)).2
  · rename_i heq
    obtain ⟨hd, hrest⟩ := heq ▸ hvalue
    exact .before (.array_reverse (List.forall_mem_cons.2 ⟨hd, hdone⟩)) (hrest _ rfl)
  · rename_i heq
    obtain ⟨hd, -⟩ := heq ▸ hvalue
    exact .last (.array_reverse (List.forall_mem_cons.2 ⟨hd, hdone⟩))

/-- The entries of an object are in range if the next value is, and the entries behind it. -/
theorem inRange_entries_step {steps levels : Nat} {tokens : List Token}
    {done : List (DraftKey × Draft)}
    (hvalue : ∀ rest, (∀ t ∈ rest, t.InRange) → Reading.InRange (value steps levels rest))
    (hentries : ∀ (e : DraftKey × Draft) rest, e.2.InRange → (∀ t ∈ rest, t.InRange) →
      Reading.InRange (entries steps levels rest (e :: done)))
    (h : ∀ t ∈ tokens, t.InRange) (hdone : ∀ e ∈ done, e.2.InRange) :
    Reading.InRange (entries (steps + 1) levels tokens done) := by
  unfold entries
  split
  · rename_i hkey
    have hv := hvalue _ (List.forall_mem_cons.1 (inRange_key? h hkey)).2
    split
    · rename_i heq
      obtain ⟨hd, hrest⟩ := heq ▸ hv
      exact hentries (_, _) _ hd (List.forall_mem_cons.1 (hrest _ rfl)).2
    · rename_i heq
      obtain ⟨hd, hrest⟩ := heq ▸ hv
      exact .before (.object_reverse (List.forall_mem_cons.2 ⟨hd, hdone⟩)) (hrest _ rfl)
    · rename_i heq
      obtain ⟨hd, -⟩ := heq ▸ hv
      exact .last (.object_reverse (List.forall_mem_cons.2 ⟨hd, hdone⟩))
  · exact .last (.object_reverse (List.forall_mem_cons.2 ⟨.broken, hdone⟩))
  · exact .last (.object_reverse hdone)

/-- **Tokens in range make drafts in range**: a value, the items of an array, and the entries of an
object, behind those already read. By induction on the steps, since each calls the others. -/
theorem inRange_steps (steps : Nat) :
    (∀ levels tokens, (∀ t ∈ tokens, Token.InRange t) →
      Reading.InRange (value steps levels tokens)) ∧
    (∀ levels tokens done, (∀ t ∈ tokens, Token.InRange t) → (∀ d ∈ done, InRange d) →
      Reading.InRange (items steps levels tokens done)) ∧
    (∀ levels tokens done, (∀ t ∈ tokens, Token.InRange t) → (∀ e ∈ done, InRange e.2) →
      Reading.InRange (entries steps levels tokens done)) := by
  induction steps with
  | zero =>
    refine ⟨fun levels tokens _ => ?_, fun levels tokens done _ hdone => ?_,
      fun levels tokens done _ hdone => ?_⟩
    · exact .last .broken
    · exact .last (.array_reverse hdone)
    · exact .last (.object_reverse hdone)
  | succ steps ih =>
    obtain ⟨ihValue, ihItems, ihEntries⟩ := ih
    refine ⟨fun levels tokens h => ?_, fun levels tokens done h hdone => ?_,
      fun levels tokens done h hdone => ?_⟩
    · exact inRange_value_step (fun _ _ h => ihItems _ _ [] h (by simp))
        (fun _ _ h => ihEntries _ _ [] h (by simp)) levels h
    · exact inRange_items_step (ihValue levels tokens h)
        (fun d rest hd hrest => ihItems levels rest _ hrest (List.forall_mem_cons.2 ⟨hd, hdone⟩))
        hdone
    · exact inRange_entries_step (ihValue levels)
        (fun e rest he hrest => ihEntries levels rest _ hrest (List.forall_mem_cons.2 ⟨he, hdone⟩))
        h hdone

/-- Tokens in range hold a draft in range. -/
theorem inRange_ofTokens (levels : Nat) {tokens : List Token} (h : ∀ t ∈ tokens, t.InRange) :
    (ofTokens levels tokens).1.InRange := by
  have hvalue := fun steps => (inRange_steps steps).1 levels tokens h
  unfold ofTokens
  split
  · rename_i heq
    exact (heq ▸ hvalue _).1
  · rename_i heq
    exact (heq ▸ hvalue _).1

/-- **What a text holds** is in range. -/
theorem inRange_ofText (text : String) : (ofText text).1.InRange := by
  exact inRange_ofTokens maxNesting (inRange_tokens Number.DecimalNumeral.stepwise? text)

end Draft

end SchemaShapes.Json
