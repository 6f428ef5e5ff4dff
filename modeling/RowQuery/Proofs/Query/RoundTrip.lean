import RowQuery.Proofs.Query.Grammar
import RowQuery.Proofs.Query.States

/-!
# Tokens written and read again

* `itemText_spell`: a token is written as an item of the filter language.
* `writable_of_mem_parse`: every token that is read can be written.
* `parse_spelling`: tokens that are written with white space between them are read as they were.
-/

namespace RowQuery.Query

open Text

/-- What a token has to have so that it can be written: a key of key characters and a value. -/
structure Token.Writable (t : Token) : Prop where
  key_ne : t.key ≠ ""
  isKeyChar_key : ∀ c ∈ t.key.toList, isKeyChar c = true
  value_ne : t.value ≠ ""

theorem Token.writable_iff (t : Token) :
    t.Writable ↔ t.key ≠ "" ∧ t.key.toList.all isKeyChar = true ∧ t.value ≠ "" := by
  rw [List.all_eq_true]
  constructor
  · intro h
    exact ⟨h.key_ne, h.isKeyChar_key, h.value_ne⟩
  · rintro ⟨hk, hc, hv⟩
    exact ⟨hk, hc, hv⟩

instance (t : Token) : Decidable t.Writable :=
  decidable_of_iff _ t.writable_iff.symm

/-- The clause of a token. -/
def Token.clause (t : Token) : Clause :=
  ⟨t.key.toList, t.operator, t.value.toList⟩

theorem Token.clause_token (t : Token) (start stop : Nat) :
    t.clause.token start stop = { t with span := ⟨start, stop⟩ } := by
  simp [Token.clause, Clause.token, String.ofList_toList]

/-! ## Values -/

theorem pieces_escapeQuoted (v : List Char) : Pieces (· == '"') (escapeQuoted v) v := by
  induction v with
  | nil => exact .nil
  | cons c r ih =>
    rw [escapeQuoted, List.flatMap_cons]
    by_cases hc : c = '\\' ∨ c = '"'
    · rw [if_pos hc]
      exact .escaped ih
    · rw [if_neg hc]
      rw [not_or] at hc
      exact .plain (by simpa using hc.2) hc.1 ih

theorem pieces_escapeBackslashes {v : List Char} (h : ∀ c ∈ v, isBlank c = false) :
    Pieces isBlank (escapeBackslashes v) v := by
  induction v with
  | nil => exact .nil
  | cons c r ih =>
    have hr := ih fun d hd => h d (List.mem_cons_of_mem _ hd)
    rw [escapeBackslashes, List.flatMap_cons]
    by_cases hc : c = '\\'
    · rw [if_pos hc, hc]
      exact .escaped hr
    · rw [if_neg hc]
      exact .plain (h c (List.mem_cons_self ..)) hc hr

/-- Without quotes a value begins with its own first character or with a backslash. -/
theorem head?_escapeBackslashes {v : List Char} {p : Char → Bool} (hp : p '\\' = false)
    (h : ∀ c ∈ v.head?, p c = false) : ∀ c ∈ (escapeBackslashes v).head?, p c = false := by
  intro d hd
  cases v with
  | nil => exact absurd hd (by simp [escapeBackslashes])
  | cons c r =>
    have hc := h c rfl
    rw [escapeBackslashes, List.flatMap_cons] at hd
    by_cases hb : c = '\\'
    · rw [if_pos hb] at hd
      obtain rfl : '\\' = d := by simpa using hd
      exact hp
    · rw [if_neg hb] at hd
      obtain rfl : c = d := by simpa using hd
      exact hc

theorem not_needsQuotes {v : List Char} (h : needsQuotes v = false) :
    (∀ c ∈ v.head?, beginsComparison c = false) ∧
      ∀ c ∈ v, isBlank c = false ∧ isQuote c = false := by
  cases v with
  | nil => exact absurd h (by decide)
  | cons c r =>
    rw [needsQuotes, Bool.or_eq_false_iff, List.any_eq_false] at h
    refine ⟨by simpa using h.1, fun d hd => ?_⟩
    simpa using h.2 d hd

theorem valueText_spellValue (v : List Char) : ValueText true (spellValue v) v := by
  unfold spellValue
  split
  · exact .quoted (by decide) (pieces_escapeQuoted v)
  · next hq =>
    obtain ⟨-, hv⟩ := not_needsQuotes (Bool.eq_false_iff.2 hq)
    refine .bare ?_ (pieces_escapeBackslashes fun c hc => (hv c hc).1)
    exact head?_escapeBackslashes (by decide) fun c hc => (hv c (List.mem_of_mem_head? hc)).2

/-- A value is written so that no comparison begins with it. -/
theorem head?_spellValue (v : List Char) :
    ∀ c ∈ (spellValue v).head?, beginsComparison c = false := by
  unfold spellValue
  split
  · intro c hc
    obtain rfl : '"' = c := by simpa using hc
    decide
  · next hq =>
    exact head?_escapeBackslashes (by decide) (not_needsQuotes (Bool.eq_false_iff.2 hq)).1

theorem apart_spellValue (o v : List Char) : Apart o (spellValue v) where
  comparison _ op hop := by
    rintro ⟨r, hr⟩
    have hhead := head?_spellValue v
    rw [← hr] at hhead
    cases op with
    | contains => exact hop rfl
    | equal | notEqual | greater | less | atLeast | atMost =>
      exact absurd (hhead _ rfl) (by decide)
  equals _ h := absurd (head?_spellValue v _ h) (by decide)

/-! ## Tokens -/

/-- A token is written as an item of the filter language. -/
theorem itemText_spell {t : Token} (h : t.Writable) : ItemText true t.spell t.clause := by
  have hkey : t.key.toList ≠ [] := by simpa using h.key_ne
  have hvalue : t.value.toList ≠ [] := by simpa using h.value_ne
  have hitem : ∀ o, OperatorText o t.operator →
      ItemText true (t.key.toList ++ o ++ spellValue t.value.toList) t.clause := fun o ho =>
    .mk hkey h.isKeyChar_key ho (valueText_spellValue _) hvalue (apart_spellValue _ _)
  unfold Token.spell
  split
  · next hop => simpa using hitem [':'] (hop ▸ .colon)
  · next hop => simpa using hitem (':' :: t.operator.symbol) (.colonComparison hop)

theorem writable_of_mem_parse {s : String} {t : Token} (h : t ∈ parse s) : t.Writable := by
  obtain ⟨ts, lead, c, r, w, -, -, hm, rfl⟩ := Reads.exists_of_mem h
  obtain ⟨op, hf⟩ := exists_finds hm
  exact ⟨by simpa [Clause.token] using hf.key_ne, by simpa [Clause.token] using hf.isKeyChar_key,
    by simpa [Clause.token] using hf.value_ne⟩

/-- Tokens written one after the other, each behind its white space. -/
def spelling (ts : List (List Char × Token)) : List Char :=
  ts.flatMap fun p => p.1 ++ p.2.spell

/-- The same tokens, each with the bytes where it is written if the first white space begins at byte
`n`. -/
def respan : Nat → List (List Char × Token) → List Token
  | _, [] => []
  | n, (gap, t) :: ts =>
    let start := n + byteLength gap
    let stop := start + byteLength t.spell
    { t with span := ⟨start, stop⟩ } :: respan stop ts

/-- A token as a word of a text. -/
def spelledWord (p : List Char × Token) : Word :=
  ⟨p.1, p.2.spell, p.2.clause⟩

theorem sentence_spelling {ts : List (List Char × Token)} (hw : ∀ p ∈ ts, p.2.Writable)
    (hgap : ∀ p ∈ ts, ∀ c ∈ p.1, isBlank c = true) (hne : ∀ p ∈ ts.tail, p.1 ≠ []) :
    Sentence (ts.map spelledWord) := by
  induction ts with
  | nil => exact .nil
  | cons p ts ih =>
    have hg := hgap p (List.mem_cons_self ..)
    have hi := itemText_spell (hw p (List.mem_cons_self ..))
    have hs := ih (fun q hq => hw q (List.mem_cons_of_mem _ hq))
      (fun q hq => hgap q (List.mem_cons_of_mem _ hq)) (fun q hq => hne q (List.mem_of_mem_tail hq))
    cases ts with
    | nil => exact .last hg hi
    | cons q r => exact .cons hg hi (hne q (List.mem_cons_self ..)) hs

theorem place_spelling (n : Nat) (ts : List (List Char × Token)) :
    place n (ts.map spelledWord) = respan n ts := by
  induction ts generalizing n with
  | nil => rfl
  | cons p ts ih =>
    rw [List.map_cons, place, respan, ih]
    simp only [spelledWord, Token.clause_token]

theorem tokensFrom_spelling {ts : List (List Char × Token)} (hw : ∀ p ∈ ts, p.2.Writable)
    (hgap : ∀ p ∈ ts, ∀ c ∈ p.1, isBlank c = true) (hne : ∀ p ∈ ts.tail, p.1 ≠ []) :
    tokensFrom 0 (spelling ts) = respan 0 ts := by
  have hread := tokensFrom_layout (sentence_spelling hw hgap hne) 0
  rwa [place_spelling, layout, List.flatMap_map] at hread

/-- **Tokens that are written are read as they were**, each at the bytes where it is written.  The
white space before the first one may be missing.  In particular the spelling of a token that has
been read is one token, the same again. -/
theorem parse_spelling :
    (∀ ts : List (List Char × Token), (∀ p ∈ ts, p.2.Writable) →
      (∀ p ∈ ts, ∀ c ∈ p.1, isBlank c = true) → (∀ p ∈ ts.tail, p.1 ≠ []) →
        parse (String.ofList (spelling ts)) = respan 0 ts) ∧
      ∀ s : String, ∀ t ∈ parse s,
        parse (String.ofList t.spell) = [{ t with span := ⟨0, byteLength t.spell⟩ }] := by
  refine ⟨fun ts hw hgap hne => ?_, fun s t ht => ?_⟩
  · rw [parse, String.toList_ofList]
    exact tokensFrom_spelling hw hgap hne
  · have hw := writable_of_mem_parse ht
    have hread := @tokensFrom_spelling [([], t)] (by simpa using hw) (by simp) (by simp)
    simpa [parse, spelling, respan] using hread

/-- Both quotes, blanks, a backslash at the end, and a value that begins like an operator. -/
theorem parse_spelling_awkward_values :
    let ts : List (List Char × Token) :=
      [([' '], ⟨"owner", .contains, "say \"it's\" \\", ⟨0, 0⟩⟩),
        (['\t', ' '], ⟨"n", .greater, "=x", ⟨0, 0⟩⟩), (['\n'], ⟨"p", .contains, ":a\\b", ⟨0, 0⟩⟩)]
    (∀ p ∈ ts, p.2.Writable) ∧ (∀ p ∈ ts, ∀ c ∈ p.1, isBlank c = true) ∧
      (∀ p ∈ ts.tail, p.1 ≠ []) ∧ parse (String.ofList (spelling ts)) = respan 0 ts := by
  intro ts
  have hw : ∀ p ∈ ts, p.2.Writable := by decide +kernel
  have hgap : ∀ p ∈ ts, ∀ c ∈ p.1, isBlank c = true := by
    have hall : ts.all (fun p => p.1.all isBlank) = true := by decide
    simpa using hall
  have hne : ∀ p ∈ ts.tail, p.1 ≠ [] := by decide
  exact ⟨hw, hgap, hne, parse_spelling.1 ts hw hgap hne⟩

end RowQuery.Query
