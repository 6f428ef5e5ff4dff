import RowQuery.Proofs.Calendar.Date
import RowQuery.Proofs.Editor.Cursor
import RowQuery.Proofs.Editor.Suggestion
import RowQuery.Proofs.Query.Reader
import RowQuery.Proofs.Text.Bytes

/-!
# Completions chain

A suggestion takes the place of the word at the cursor, and the cursor comes to stand behind it.  The
text left of the cursor then is what was left of the word and what has been inserted.

* `ofCursor_insertAt`: the context after an insertion.
* `accept_key`, `accept_operator`, `accept_value`: behind a key its value is typed, behind a
  comparison it still is, and behind a value the next key is.
* `accept_chains`: each suggestion that is taken leads on to the next ones.
-/

namespace RowQuery.Editor

open Text
open Query (Operator isKeyChar)

variable {r : Registry} {today : Date} {text : String} {cursor : Nat} {s : Suggestion}

/-! ## The word that is replaced -/

theorem exists_key_word (h : (Context.ofCursor text cursor).place = .key) :
    ∃ lead word, takeBytes cursor text.toList = lead ++ word ∧ BeginsWord lead ∧
      Context.ofCursor text cursor = ⟨String.ofList word, byteLength lead, .key⟩ := by
  have hend := Context.endOf_ofBefore (takeBytes cursor text.toList)
  rw [Context.ofCursor] at h ⊢
  generalize takeBytes cursor text.toList = before at h hend ⊢
  generalize Context.ofBefore before = context at h hend ⊢
  cases hend with
  | key hl hw hcolon => exact ⟨_, _, rfl, hl, rfl⟩
  | value hl hw hcolon => exact absurd h (by simp)

theorem exists_value_word {key : String} {colon : Nat}
    (h : (Context.ofCursor text cursor).place = .value key colon) :
    ∃ lead typed, takeBytes cursor text.toList = lead ++ (key.toList ++ ':' :: typed) ∧
      BeginsWord lead ∧ Unbroken lead (key.toList ++ ':' :: typed) ∧ ':' ∉ key.toList ∧
        byteLength lead + byteLength key.toList = colon ∧
          Context.ofCursor text cursor = ⟨String.ofList typed, colon + 1, .value key colon⟩ := by
  have hend := Context.endOf_ofBefore (takeBytes cursor text.toList)
  rw [Context.ofCursor] at h ⊢
  generalize takeBytes cursor text.toList = before at h hend ⊢
  generalize Context.ofBefore before = context at h hend ⊢
  cases hend with
  | key hl hw hcolon => exact absurd h (by simp)
  | @value lead key typed hl hw hcolon =>
    simp only [Place.value.injEq] at h
    obtain ⟨rfl, rfl⟩ := h
    rw [String.toList_ofList]
    exact ⟨lead, typed, rfl, hl, hw, hcolon, rfl, rfl⟩

/-! ## The text after an insertion -/

/-- An insertion leaves what is left of the word and what is right of the cursor as it is. -/
theorem insertAt_eq {lead word : List Char} (x : String)
    (hcut : takeBytes cursor text.toList = lead ++ word)
    (hstart : (Context.ofCursor text cursor).start = byteLength lead) :
    insertAt text cursor x =
      ⟨String.ofList (lead ++ x.toList ++ dropBytes cursor text.toList),
        byteLength (lead ++ x.toList)⟩ := by
  have htext := takeBytes_append_dropBytes cursor text.toList
  rw [hcut, List.append_assoc] at htext
  have hkept : takeBytes (byteLength lead) text.toList = lead := by
    rw [← htext, takeBytes_append]
  simp only [insertAt, hstart, hkept, byteLength_append]

/-- Left of the cursor stand then what was left of the word and what has been inserted. -/
theorem takeBytes_insertAt {lead word : List Char} (x : String)
    (hcut : takeBytes cursor text.toList = lead ++ word)
    (hstart : (Context.ofCursor text cursor).start = byteLength lead) :
    (insertAt text cursor x).cursor = byteLength lead + byteLength x.toList ∧
      takeBytes (insertAt text cursor x).cursor (insertAt text cursor x).text.toList =
        lead ++ x.toList := by
  rw [insertAt_eq x hcut hstart, String.toList_ofList, takeBytes_append]
  exact ⟨byteLength_append .., rfl⟩

theorem ofCursor_insertAt {lead word : List Char} (x : String)
    (hcut : takeBytes cursor text.toList = lead ++ word)
    (hstart : (Context.ofCursor text cursor).start = byteLength lead) :
    Context.ofCursor (insertAt text cursor x).text (insertAt text cursor x).cursor =
      Context.ofBefore (lead ++ x.toList) := by
  rw [Context.ofCursor, (takeBytes_insertAt x hcut hstart).2]

/-- What is inserted behind the colon stands behind the same key. -/
theorem takeBytes_insertAt_value {lead key typed : List Char} {colon : Nat} (x : String)
    (hcut : takeBytes cursor text.toList = lead ++ (key ++ ':' :: typed))
    (hcolon : byteLength lead + byteLength key = colon)
    (hstart : (Context.ofCursor text cursor).start = colon + 1) :
    (insertAt text cursor x).cursor = colon + 1 + byteLength x.toList ∧
      takeBytes (insertAt text cursor x).cursor (insertAt text cursor x).text.toList =
        lead ++ (key ++ ':' :: x.toList) := by
  have hone : ':'.utf8Size = 1 := by decide
  have hkept : byteLength (lead ++ (key ++ [':'])) = colon + 1 := by
    simp only [byteLength_append, byteLength_cons, byteLength_nil, hone]
    omega
  have hcut' : takeBytes cursor text.toList = lead ++ (key ++ [':']) ++ typed := by
    rw [hcut]
    simp
  obtain ⟨hc, ht⟩ := takeBytes_insertAt x hcut' (hstart.trans hkept.symm)
  rw [hkept] at hc
  exact ⟨hc, by rw [ht]; simp⟩

/-! ## Contexts behind what is inserted -/

theorem ofBefore_colon {lead key : List Char} (hl : BeginsWord lead)
    (hkey : ∀ c ∈ key, isKeyChar c = true) :
    Context.ofBefore (lead ++ (key ++ [':'])) =
      ⟨"", byteLength lead + byteLength key + 1,
        .value (String.ofList key) (byteLength lead + byteLength key)⟩ :=
  Context.ofBefore_value hl (Query.unbroken_key hkey lead) (Query.colon_not_mem hkey)

/-- Behind free white space a key is typed. -/
theorem ofBefore_blank {before : List Char} {c : Char} (hc : isBlank c = true)
    (hb : escapesNext before = false) :
    Context.ofBefore (before ++ [c]) = ⟨"", byteLength (before ++ [c]), .key⟩ := by
  have hbegins : BeginsWord (before ++ [c]) := Or.inr ⟨before, c, rfl, hc, hb⟩
  have h := Context.ofBefore_key hbegins (unbroken_of_not_blank (by simp)) List.not_mem_nil
  rwa [List.append_nil] at h

/-! ## What each kind of suggestion leads to -/

/-- Behind a key its value is typed, and something is offered for it unless it may be any text. -/
theorem accept_key (today : Date) {e : Registry.Entry} (he : e ∈ r.entries)
    (hplace : (Context.ofCursor text cursor).place = .key) :
    let after := accept text cursor (.ofEntry e)
    ∃ colon, after.cursor = colon + 1 ∧
      Context.ofCursor after.text after.cursor = ⟨"", colon + 1, .value e.1 colon⟩ ∧
        (suggest r today after.text after.cursor = [] ↔ e.2.kind = .text) := by
  intro after
  obtain ⟨lead, word, hcut, hl, hcontext⟩ := exists_key_word hplace
  have hstart : (Context.ofCursor text cursor).start = byteLength lead := by rw [hcontext]
  have hone : ':'.utf8Size = 1 := by decide
  have hlist : (e.1 ++ ":").toList = e.1.toList ++ [':'] := by
    rw [String.toList_append]
    rfl
  have hcursor : after.cursor = byteLength lead + byteLength e.1.toList + 1 := by
    have h := (takeBytes_insertAt (e.1 ++ ":") hcut hstart).1
    rw [hlist, byteLength_append, byteLength_cons, byteLength_nil, hone] at h
    exact h.trans (by omega)
  have hnext := ofCursor_insertAt (e.1 ++ ":") hcut hstart
  rw [hlist, ofBefore_colon hl (Registry.isKeyChar_of_mem_key he), String.ofList_toList] at hnext
  refine ⟨byteLength lead + byteLength e.1.toList, hcursor, hnext, ?_⟩
  rw [suggest]
  simp only [accept, Suggestion.ofEntry, hnext, after]
  rw [Registry.command?_of_mem he]
  exact suggestValues_empty_iff today he

/-- Behind a comparison the value of the same key is typed, and the comparison stays on offer. -/
theorem accept_operator (today : Date) {key : String} {colon : Nat} {c : Command} {op : Operator}
    (hplace : (Context.ofCursor text cursor).place = .value key colon)
    (hc : r.command? key = some c) (hop : op ∈ c.operators) :
    let after := accept text cursor (.ofOperator op)
    Context.ofCursor after.text after.cursor =
        ⟨String.ofList op.symbol, colon + 1, .value key colon⟩ ∧
      .ofOperator op ∈ suggest r today after.text after.cursor := by
  intro after
  obtain ⟨lead, typed, hcut, hl, hw, hkey, hcolon, hcontext⟩ := exists_value_word hplace
  have hstart : (Context.ofCursor text cursor).start = colon + 1 := by rw [hcontext]
  have hbefore := (takeBytes_insertAt_value (String.ofList op.symbol) hcut hcolon hstart).2
  have hsymbol : ∀ x ∈ op.symbol, isBlank x = false := by
    intro x hx
    have hcomparison :=
      Operator.beginsComparison_of_mem_symbol (ordered_of_mem_operators hop).2 hx
    exact (Operator.plain_of_beginsComparison hcomparison).1
  have hkept : Unbroken lead (key.toList ++ [':']) := by
    have hsplit : key.toList ++ ':' :: typed = (key.toList ++ [':']) ++ typed := by simp
    rw [hsplit] at hw
    exact hw.of_append
  have hword : Unbroken lead (key.toList ++ ':' :: op.symbol) := by
    have hjoin := hkept.append (unbroken_of_not_blank hsymbol)
    rwa [List.append_assoc] at hjoin
  have hnext : Context.ofCursor after.text after.cursor =
      ⟨String.ofList op.symbol, colon + 1, .value key colon⟩ := by
    rw [String.toList_ofList] at hbefore
    have hvalue := Context.ofBefore_value hl hword hkey
    rw [hcolon, String.ofList_toList] at hvalue
    exact (congrArg Context.ofBefore hbefore).trans hvalue
  refine ⟨hnext, ?_⟩
  rw [suggest]
  simp only [hnext, hc]
  exact mem_suggestValues_symbol today hop

/-- Behind a value and its white space a key is typed, and all keys are offered. -/
theorem accept_value (today : Date) {key : String} {colon : Nat} {before : List Char} {v : String}
    (hplace : (Context.ofCursor text cursor).place = .value key colon)
    (hplain : ∀ x ∈ before ++ v.toList, isBlank x = false ∧ x ≠ '\\') :
    let after := accept text cursor (.ofValue before v)
    Context.ofCursor after.text after.cursor = ⟨"", after.cursor, .key⟩ ∧
      suggest r today after.text after.cursor = r.entries.map .ofEntry := by
  intro after
  obtain ⟨lead, typed, hcut, -, -, -, hcolon, hcontext⟩ := exists_value_word hplace
  have hstart : (Context.ofCursor text cursor).start = colon + 1 := by rw [hcontext]
  obtain ⟨hcursor, hbefore⟩ :=
    takeBytes_insertAt_value (String.ofList before ++ v ++ " ") hcut hcolon hstart
  have hinserted : (String.ofList before ++ v ++ " ").toList = before ++ v.toList ++ [' '] := by
    rw [String.toList_append, String.toList_append, String.toList_ofList]
    rfl
  rw [hinserted] at hcursor hbefore
  -- the colon is no backslash, and none stands behind it
  have hfree : escapesNext (lead ++ key.toList ++ [':'] ++ (before ++ v.toList)) = false := by
    have hcolon : escapesNext (lead ++ key.toList ++ [':']) = false := by
      rw [escapesNext_append_singleton]
      rfl
    rw [escapesNext_append hcolon]
    exact escapesNext_of_not_mem fun hmem => (hplain _ hmem).2 rfl
  have hsplit : lead ++ (key.toList ++ ':' :: (before ++ v.toList ++ [' '])) =
      (lead ++ key.toList ++ [':'] ++ (before ++ v.toList)) ++ [' '] := by simp
  have hlength : byteLength ((lead ++ key.toList ++ [':'] ++ (before ++ v.toList)) ++ [' ']) =
      after.cursor := by
    have hone : ':'.utf8Size = 1 := by decide
    refine Eq.trans ?_ hcursor.symm
    simp only [byteLength_append, byteLength_cons, byteLength_nil, hone]
    omega
  have hnext : Context.ofCursor after.text after.cursor = ⟨"", after.cursor, .key⟩ := by
    rw [hsplit] at hbefore
    have hblank := ofBefore_blank (c := ' ') (by decide) hfree
    rw [hlength] at hblank
    exact (congrArg Context.ofBefore hbefore).trans hblank
  refine ⟨hnext, ?_⟩
  rw [suggest]
  simp only [hnext]
  exact suggestKeys_empty r

/-! ## All of them -/

theorem label_ofEntry (r : Registry) :
    (∀ o ∈ r.entries.map Suggestion.ofEntry, o.kind = .key) ∧
      (r.entries.map Suggestion.ofEntry).map (·.label) = r.keys := by
  constructor
  · intro o ho
    obtain ⟨e, -, rfl⟩ := List.mem_map.1 ho
    rfl
  · rw [List.map_map]
    rfl

/-- **Completions chain.**  A key that is taken is the key of the value that is typed next, and
nothing is offered for that only if it may be any text.  A comparison that is taken is typed in
full behind the same key, and is offered again.  A value that is taken, but for those of
enumerations, is followed by the next key, for which each declared key is offered once.  For numbers
and dates what is inserted begins with what it replaces. -/
theorem accept_chains (hs : s ∈ suggest r today text cursor) :
    let before := Context.ofCursor text cursor
    let after := accept text cursor s
    let next := Context.ofCursor after.text after.cursor
    let offered := suggest r today after.text after.cursor
    (s.kind = .key → ∃ colon c, after.cursor = colon + 1 ∧
        next = ⟨"", colon + 1, .value s.label colon⟩ ∧ r.command? s.label = some c ∧
          (offered = [] ↔ c.kind = .text)) ∧
      (s.kind = .operator → ∃ key colon, before.place = .value key colon ∧
        next = ⟨s.label, colon + 1, .value key colon⟩ ∧ s ∈ offered) ∧
      (s.kind = .value → ∃ key colon c, before.place = .value key colon ∧
        r.command? key = some c ∧ (c.kind = .boolean ∨ c.kind = .number ∨ c.kind = .date →
          next = ⟨"", after.cursor, .key⟩ ∧ (∀ o ∈ offered, o.kind = .key) ∧
            offered.map (·.label) = r.keys ∧ r.keys.Nodup)) ∧
      (∀ key colon c, before.place = .value key colon → r.command? key = some c →
        c.kind = .number ∨ c.kind = .date → before.word.toList <+: s.inserted.toList) := by
  intro before after next offered
  rcases mem_suggest_cases hs with ⟨hplace, e, he, rfl⟩ | ⟨key, colon, c, hplace, hc, hoffer⟩
  · refine ⟨fun _ => ?_, fun h => absurd h (by simp [Suggestion.ofEntry]),
      fun h => absurd h (by simp [Suggestion.ofEntry]), ?_⟩
    · obtain ⟨colon, hcursor, hnext, hoffered⟩ := accept_key today he hplace
      exact ⟨colon, e.2, hcursor, hnext, Registry.command?_of_mem he, hoffered⟩
    · intro key colon c hvalue
      exact absurd (hplace.symm.trans hvalue) (by simp)
  · have hsame : ∀ key' colon' c', before.place = .value key' colon' →
        r.command? key' = some c' → c' = c := by
      intro key' colon' c' hplace' hc'
      obtain ⟨rfl, -⟩ := Place.value.inj (hplace.symm.trans hplace')
      exact Option.some.inj (hc'.symm.trans hc)
    refine ⟨?_, ?_, ?_, ?_⟩
    · intro h
      cases hoffer <;> exact absurd h (by simp [Suggestion.ofValue, Suggestion.ofOperator])
    · intro h
      cases hoffer with
      | comparison hop _ =>
        obtain ⟨hnext, hagain⟩ := accept_operator today hplace hc hop
        exact ⟨key, colon, hplace, hnext, hagain⟩
      | choice | bare | compared => exact absurd h (by simp [Suggestion.ofValue])
    · intro h
      refine ⟨key, colon, c, hplace, hc, fun hkind => ?_⟩
      have hne : c.kind ≠ .enumeration := by
        rcases hkind with hkind | hkind | hkind <;> simp [hkind]
      obtain ⟨symbol, v, rfl, hplain⟩ := hoffer.plain hne h
      obtain ⟨hnext, hoffered⟩ := accept_value (r := r) today hplace hplain
      have hall : offered = r.entries.map .ofEntry := hoffered
      rw [hall]
      exact ⟨hnext, (label_ofEntry r).1, (label_ofEntry r).2, r.nodup_keys⟩
    · intro key' colon' c' hplace' hc' hkind
      rw [hsame key' colon' c' hplace' hc'] at hkind
      exact hoffer.prefix_inserted hkind

/-- A number behind a comparison, with the cursor inside the character that follows. -/
theorem accept_chains_inside_character :
    let r := Registry.dashboard
    let today : Date := ⟨2024, 3, 9, by decide⟩
    let s : Suggestion := .ofValue ['>'] "10"
    let after := accept "x: score:>1é tail" 12 s
    let offered := suggest r today after.text after.cursor
    s ∈ suggest r today "x: score:>1é tail" 12 ∧ after = ⟨"x: score:>10 é tail", 13⟩ ∧
      Context.ofCursor after.text after.cursor = ⟨"", after.cursor, .key⟩ ∧
        (∀ o ∈ offered, o.kind = .key) ∧ offered.map (·.label) = r.keys ∧ r.keys.Nodup := by
  intro r today s after offered
  have hs : s ∈ suggest r today "x: score:>1é tail" 12 := by decide +kernel
  have hplace : (Context.ofCursor "x: score:>1é tail" 12).place = .value "score" 8 := by
    decide +kernel
  have hnumber : ∀ c, r.command? "score" = some c → c.kind = .number := by
    intro c hc
    have hdeclared : r.command? "score" = some (.ofKind .number "Quality score, 0-100") := by
      decide +kernel
    rw [← Option.some.inj (hdeclared.symm.trans hc)]
    rfl
  obtain ⟨-, -, hvalue, -⟩ := accept_chains hs
  obtain ⟨key, colon, c, hkey, hc, hnext⟩ := hvalue rfl
  obtain ⟨rfl, -⟩ := Place.value.inj (hplace.symm.trans hkey)
  exact ⟨hs, by decide +kernel, hnext (Or.inr (Or.inl (hnumber c hc)))⟩

end RowQuery.Editor
