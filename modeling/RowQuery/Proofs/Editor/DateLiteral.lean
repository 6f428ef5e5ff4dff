import RowQuery.Proofs.Editor.Accepted
import RowQuery.Proofs.Rows.Comparison
import RowQuery.Proofs.Rows.UnknownKeys

/-!
# The date that is offered is the date that is read

For the value of a date key one date is offered, which is today.  A year before 0 or after 9999 is
written with a sign; still the date is one token behind each comparison, and it is read as the
midnight of that day.

White space that no backslash escapes ends what stands in front of it, within quotes as well.  What
is typed behind it is another word, and what is offered there is offered for this word alone.

* `mem_suggestValues_date_iff`: where a date is offered, and behind what it is put.
* `parse_accept_verbatim`: a value without another meaning is one token once it is taken.
* `accepts_date`: the operators that a row with a date satisfies against this date.
* `suggest_lastWord`: the suggestions behind free white space.
* `accept_date_reads_back`: what becomes of a date, for any text that is typed.
-/

namespace RowQuery.Editor

open Text
open Query (Operator Verbatim parse)
open Rows (Selector Spells)

variable {r : Registry} {e : Registry.Entry} {c : Command} {today : Date} {typed : String}
  {s : Suggestion} {b : Buffer}

/-! ## Where today is offered -/

/-- A comparison ends where a literal begins. -/
theorem strip?_comparisonText {op : Operator} {begun literal : List Char} (hop : op ≠ .contains)
    (hbegun : begun <+: literal) (hliteral : Verbatim literal) :
    Operator.strip? (comparisonText op ++ begun) = some (op, begun) := by
  rw [comparisonText, if_neg hop]
  refine Operator.strip?_eq_some_iff.2 ⟨rfl, hop, fun _ hequals => ?_⟩
  obtain ⟨t, rfl⟩ := List.head?_eq_some_iff.1 hequals
  refine hliteral.comparison .equal (by decide) (List.IsPrefix.trans ?_ hbegun)
  exact ⟨t, rfl⟩

/-- What is typed says which comparison it is. -/
theorem typedOperator_comparisonText {begun literal : List Char} (op : Operator)
    (hbegun : begun <+: literal) (hliteral : Verbatim literal) :
    typedOperator (comparisonText op ++ begun) = op := by
  by_cases hop : op = .contains
  · subst hop
    have hnone : Operator.strip? begun = none :=
      Operator.strip?_eq_none_iff.2 fun o ho h => hliteral.comparison o ho (h.trans hbegun)
    rw [comparisonText, if_pos rfl, List.nil_append, typedOperator, hnone]
    rfl
  · rw [typedOperator, strip?_comparisonText hop hbegun hliteral]
    rfl

theorem verbatim_text (d : Date) : Verbatim d.text := by
  have hmem : String.ofList d.text ∈ examples d .date := List.mem_singleton_self _
  have h := verbatim_of_mem_examples hmem
  rwa [String.toList_ofList] at h

theorem mem_suggestExamples_date {symbol begun : List Char} :
    s ∈ suggestExamples today .date symbol begun ↔
      begun <+: today.text ∧ s = .ofValue symbol (String.ofList today.text) := by
  rw [mem_suggestExamples]
  constructor
  · rintro ⟨v, hv, hpre, rfl⟩
    obtain rfl := List.mem_singleton.1 hv
    rw [String.toList_ofList] at hpre
    exact ⟨hpre, rfl⟩
  · rintro ⟨hpre, rfl⟩
    refine ⟨_, List.mem_singleton_self _, ?_, rfl⟩
    rwa [String.toList_ofList]

/-- As long as what is typed may become a comparison, nothing else is offered. -/
theorem kind_of_mem_suggestComparison {t : List Char} (h : ∃ o ∈ c.operators, t <+: o.symbol)
    (hs : s ∈ suggestComparison today c t) : s.kind = .operator := by
  obtain ⟨o, ho, hpre⟩ := h
  have hbegun : (c.operators.filter fun op => t.isPrefixOf op.symbol) ≠ [] := by
    refine List.ne_nil_of_mem (a := o) (List.mem_filter.2 ⟨ho, ?_⟩)
    exact List.isPrefixOf_iff_prefix.2 hpre
  rw [suggestComparison, if_pos (by simpa using hbegun)] at hs
  obtain ⟨op, -, rfl⟩ := List.mem_map.1 hs
  rfl

/-- Else literals are offered, behind the comparison that is typed or, where there are none, at
once. -/
theorem suggestComparison_eq {t : List Char} (h : ∀ o ∈ c.operators, ¬ t <+: o.symbol) :
    suggestComparison today c t =
      if c.operators.isEmpty then suggestExamples today c.kind [] t
      else match Operator.strip? t with
        | some (op, rest) => suggestExamples today c.kind op.symbol rest
        | none => [] := by
  have hbegun : (c.operators.filter fun op => t.isPrefixOf op.symbol) = [] := by
    simpa only [List.filter_eq_nil_iff, List.isPrefixOf_iff_prefix] using h
  rw [suggestComparison, hbegun]
  rfl

/-- **One date is offered, which is today.**  It goes on with what is typed, behind a comparison or,
where there are none, behind the colon; but not as long as what is typed may become a comparison. -/
theorem mem_suggestValues_date_iff (hc : c.kind = .date) :
    s ∈ suggestValues today c typed ∧ s.kind = .value ↔
      (∀ o ∈ c.operators, ¬ typed.toList <+: o.symbol) ∧
        ∃ op begun, typed.toList = comparisonText op ++ begun ∧ begun <+: today.text ∧
          (op = .contains ↔ c.operators = []) ∧
            s = .ofValue (comparisonText op) (String.ofList today.text) := by
  have hvalues : suggestValues today c typed = suggestComparison today c typed.toList := by
    rw [suggestValues, hc]
  rw [hvalues]
  by_cases hbegun : ∀ o ∈ c.operators, ¬ typed.toList <+: o.symbol
  · rw [suggestComparison_eq hbegun, hc]
    by_cases hops : c.operators = []
    · rw [if_pos (List.isEmpty_iff.2 hops), mem_suggestExamples_date]
      constructor
      · rintro ⟨⟨hpre, rfl⟩, -⟩
        exact ⟨hbegun, .contains, typed.toList, rfl, hpre, iff_of_true rfl hops, rfl⟩
      · rintro ⟨-, op, begun, htyped, hpre, hop, rfl⟩
        obtain rfl := hop.2 hops
        exact ⟨⟨htyped ▸ hpre, rfl⟩, rfl⟩
    · rw [if_neg fun h => hops (List.isEmpty_iff.1 h)]
      constructor
      · rintro ⟨hs, -⟩
        cases hstrip : Operator.strip? typed.toList with
        | none =>
          rw [hstrip] at hs
          exact absurd hs List.not_mem_nil
        | some p =>
          rw [hstrip] at hs
          obtain ⟨htyped, hop, -⟩ := Operator.strip?_eq_some_iff.1 hstrip
          obtain ⟨hpre, rfl⟩ := mem_suggestExamples_date.1 hs
          have htext : comparisonText p.1 = p.1.symbol := if_neg hop
          exact ⟨hbegun, p.1, p.2, htext ▸ htyped, hpre, iff_of_false hop hops, by rw [htext]⟩
      · rintro ⟨-, op, begun, htyped, hpre, hop, rfl⟩
        have hne : op ≠ .contains := fun h => hops (hop.1 h)
        have htext : comparisonText op = op.symbol := if_neg hne
        rw [htyped, strip?_comparisonText hne hpre (verbatim_text today), htext]
        exact ⟨mem_suggestExamples_date.2 ⟨hpre, rfl⟩, rfl⟩
  · refine iff_of_false ?_ fun h => hbegun h.1
    rintro ⟨hs, hvalue⟩
    have hkind := kind_of_mem_suggestComparison (by simpa using hbegun) hs
    exact absurd (hvalue.symm.trans hkind) (by decide)

/-! ## What becomes of it -/

/-- A value without another meaning is one token behind any comparison, once it is taken. -/
theorem parse_accept_verbatim (he : e ∈ r.entries)
    (htyped : Unbroken (e.1.toList ++ [':']) typed.toList) (hb : b = .behind e.1 typed)
    (op : Operator) {v : List Char} (hv : Verbatim v) :
    ∃ span, parse (accept b.text b.cursor (.ofValue (comparisonText op) (String.ofList v))).text =
      [⟨e.1, op, String.ofList v, span⟩] := by
  have hitem := itemText_comparison hv op (Registry.key_ne_nil he)
    (Registry.isKeyChar_of_mem_key he)
  have hinserted : (Suggestion.ofValue (comparisonText op) (String.ofList v)).inserted.toList =
      comparisonText op ++ v ++ [' '] := by
    simp only [Suggestion.ofValue, String.toList_append, String.toList_ofList]
    rfl
  refine ⟨⟨0, byteLength (e.1.toList ++ [':'] ++ (comparisonText op ++ v))⟩, ?_⟩
  rw [accept_behind he htyped hb, hinserted, ← List.append_assoc, parse, String.toList_ofList,
    Query.tokensFrom_item_blank hitem]
  simp only [Query.Clause.token, String.ofList_toList]

theorem ofText?_label (d : Date) :
    Instant.ofText? (String.ofList d.text).toList = some (.midnight d) := by
  rw [String.toList_ofList, dateNotation.reads_back]

theorem spells_label (d : Date) : Spells (some .date) (String.ofList d.text) := by
  rw [Spells, if_pos rfl, ofText?_label]
  rfl

/-- Against a date, a row with this very date satisfies the operators that allow for equality, and
no others. -/
theorem accepts_date {ρ : Type} {sel : Selector ρ} {row : ρ} {d : Date}
    (he : e ∈ sel.registry.entries) (hkind : e.2.kind = .date)
    (hrow : sel.accessor row (sel.fieldMap.resolve e.1) = some (String.ofList d.text))
    (op : Operator) (span : Query.Span) :
    sel.accepts row [⟨e.1, op, String.ofList d.text, span⟩] =
      decide (op ∉ [.notEqual, .less, .greater]) := by
  have hentry : sel.registry.entry? e.1 = some e := Registry.entry?_of_mem he
  rw [Selector.accepts_of_entry hentry, hrow, Option.any_some, hkind]
  exact Rows.holds_self (spells_label d) op

/-! ## Behind free white space -/

/-- At the end of a text, the suggestions are those for its last word. -/
theorem suggest_lastWord (r : Registry) (today : Date) {lead word text : List Char}
    (hl : BeginsWord lead) (hw : Unbroken [] word) (htext : text = lead ++ word) :
    suggest r today (String.ofList text) (byteLength text) =
      suggest r today (String.ofList word) (byteLength word) := by
  have hend (s : List Char) : Context.ofCursor (String.ofList s) (byteLength s) =
      Context.ofBefore s := by
    rw [Context.ofCursor, String.toList_ofList, takeBytes_byteLength]
  have hlead := (unbroken_iff_of_beginsWord hl).2 hw
  have hnil : BeginsWord [] := Or.inl rfl
  rw [suggest, suggest, hend, hend, htext]
  by_cases hcolon : ':' ∈ word
  · obtain ⟨key, typed, rfl, hkey⟩ := List.eq_append_cons_of_mem hcolon
    have halone := Context.ofBefore_value hnil hw hkey
    rw [List.nil_append] at halone
    rw [Context.ofBefore_value hl hlead hkey, halone]
  · have halone := Context.ofBefore_key hnil hw hcolon
    rw [List.nil_append] at halone
    rw [Context.ofBefore_key hl hlead hcolon, halone]

/-! ## All together -/

/-- What is said of a date that is offered behind a key: it goes on with what is typed; once it is
taken there is one token, with the comparison that is typed, and its value is the date. -/
structure ReadsBack (r : Registry) (e : Registry.Entry) (today : Date) (typed : String)
    (s : Suggestion) : Prop where
  label : s.label = String.ofList today.text
  begun : ∃ begun, typed.toList = comparisonText (typedOperator typed.toList) ++ begun ∧
    begun <+: today.text
  operators : typedOperator typed.toList = .contains ↔ e.2.operators = []
  token : ∃ span, parse (accept (Buffer.behind e.1 typed).text (Buffer.behind e.1 typed).cursor
    s).text = [⟨e.1, typedOperator typed.toList, s.label, span⟩]
  midnight : Instant.ofText? s.label.toList = some (.midnight today)
  rows {ρ : Type} (sel : Selector ρ) (row : ρ) : sel.registry = r →
    sel.accessor row (sel.fieldMap.resolve e.1) = some s.label →
      ∀ op span, sel.accepts row [⟨e.1, op, s.label, span⟩] =
        decide (op ∉ [.notEqual, .less, .greater])

theorem readsBack_of_mem (he : e ∈ r.entries) (hkind : e.2.kind = .date)
    (htyped : Unbroken (e.1.toList ++ [':']) typed.toList)
    (hs : s ∈ suggestValues today e.2 typed) (hvalue : s.kind = .value) :
    ReadsBack r e today typed s := by
  obtain ⟨-, op, begun, hbegun, hpre, hop, rfl⟩ :=
    (mem_suggestValues_date_iff hkind).1 ⟨hs, hvalue⟩
  have hoperator : typedOperator typed.toList = op := by
    rw [hbegun, typedOperator_comparisonText op hpre (verbatim_text today)]
  exact {
    label := rfl
    begun := ⟨begun, by rw [hoperator, hbegun], hpre⟩
    operators := by rw [hoperator, hop]
    token := by
      rw [hoperator]
      exact parse_accept_verbatim he htyped rfl op (verbatim_text today)
    midnight := ofText?_label today
    rows := by
      intro ρ sel row hregistry hrow o span
      exact accepts_date (hregistry ▸ he) hkind hrow o span }

/-- **The date that is offered is the date that is read.**  The key is a date key, and any text may
be typed behind it, as long as no white space in it is free; else the suggestions are those for the
word behind the last free white space, whatever the key is. -/
theorem accept_date_reads_back (he : e ∈ r.entries) (hkind : e.2.kind = .date) (today : Date)
    (typed : String) :
    let b := Buffer.behind e.1 typed
    (Unbroken (e.1.toList ++ [':']) typed.toList →
      ∀ s ∈ suggest r today b.text b.cursor, s.kind = .value → ReadsBack r e today typed s) ∧
      (¬ Unbroken (e.1.toList ++ [':']) typed.toList →
        ∃ lead x word, typed.toList = lead ++ x :: word ∧ isBlank x = true ∧
          escapesNext (e.1.toList ++ [':'] ++ lead) = false ∧ Unbroken [] word ∧
            suggest r today b.text b.cursor =
              suggest r today (String.ofList word) (byteLength word)) := by
  intro b
  constructor
  · intro htyped s hs hvalue
    rw [suggest_behind he htyped rfl] at hs
    exact readsBack_of_mem he hkind htyped hs hvalue
  · intro hbroken
    obtain ⟨lead, x, word, htyped, hblank, hfree, hword⟩ := exists_last_of_not_unbroken hbroken
    refine ⟨lead, x, word, htyped, hblank, hfree, hword, ?_⟩
    have hbegins : BeginsWord (e.1.toList ++ [':'] ++ lead ++ [x]) :=
      Or.inr ⟨_, x, rfl, hblank, hfree⟩
    have htext : b.text.toList = e.1.toList ++ [':'] ++ lead ++ [x] ++ word := by
      rw [toList_behind, htyped]
      simp
    have h := suggest_lastWord r today hbegins hword htext
    rwa [String.ofList_toList] at h

/-- A year before 0, behind a comparison that is not offered itself; and a year after 9999 of which
the sign is typed, for a key without comparisons. -/
theorem accept_date_reads_back_signed_years :
    let founded : Registry.Entry := ("founded", .ofKind .date "")
    let due : Registry.Entry := ("due", ⟨.date, "", [], some false⟩)
    let r : Registry := ⟨[due, founded], by decide +kernel, by decide +kernel⟩
    let past : Date := ⟨-43, 3, 15, by decide⟩
    let future : Date := ⟨12024, 2, 29, by decide⟩
    let b := Buffer.behind founded.1 ">=-00"
    let s : Suggestion := .ofValue ['>', '='] "-0043-03-15"
    let b' := Buffer.behind due.1 "+"
    let t : Suggestion := .ofValue [] "+12024-02-29"
    let sel : Selector (List (String × String)) :=
      ⟨r, fun row name => row.lookup name, .empty, .reject⟩
    s ∈ suggest r past b.text b.cursor ∧ t ∈ suggest r future b'.text b'.cursor ∧
      (∃ span, parse (accept b.text b.cursor s).text = [⟨founded.1, .atLeast, s.label, span⟩]) ∧
      Instant.ofText? s.label.toList = some (.midnight past) ∧
      sel.accepts [("founded", s.label)] [⟨founded.1, .atLeast, s.label, ⟨0, 21⟩⟩] = true ∧
      (∃ span, parse (accept b'.text b'.cursor t).text = [⟨due.1, .contains, t.label, span⟩]) ∧
      Instant.ofText? t.label.toList = some (.midnight future) := by
  intro founded due r past future b s b' t sel
  have hfounded : founded ∈ r.entries := by decide +kernel
  have hdue : due ∈ r.entries := by decide +kernel
  have hs : s ∈ suggest r past b.text b.cursor := by decide +kernel
  have ht : t ∈ suggest r future b'.text b'.cursor := by decide +kernel
  have htyped : Unbroken (founded.1.toList ++ [':']) ">=-00".toList :=
    unbroken_of_all (by decide +kernel)
  have htyped' : Unbroken (due.1.toList ++ [':']) "+".toList :=
    unbroken_of_all (by decide +kernel)
  obtain ⟨hpast, -⟩ := accept_date_reads_back hfounded rfl past ">=-00"
  obtain ⟨hfuture, -⟩ := accept_date_reads_back hdue rfl future "+"
  have hread := hpast htyped s hs rfl
  have hread' := hfuture htyped' t ht rfl
  have hoperator : typedOperator ">=-00".toList = .atLeast := by decide +kernel
  have hoperator' : typedOperator "+".toList = .contains := by decide +kernel
  have hrow := hread.rows sel [("founded", s.label)] rfl (by decide +kernel) .atLeast ⟨0, 21⟩
  refine ⟨hs, ht, ?_, hread.midnight, hrow, ?_, hread'.midnight⟩
  · rw [← hoperator]
    exact hread.token
  · rw [← hoperator']
    exact hread'.token

/-- A date key behind free white space: today is offered for it, and then the text has two tokens,
whatever they are to be read as. -/
theorem accept_date_behind_blank :
    let today : Date := ⟨2024, 3, 9, by decide⟩
    let b := Buffer.behind "created" "x created:>20"
    let s : Suggestion := .ofValue ['>'] "2024-03-09"
    s ∈ suggest Registry.dashboard today b.text b.cursor ∧ s.kind = .value ∧
      parse (accept b.text b.cursor s).text =
        [⟨"created", .contains, "x", ⟨0, 9⟩⟩, ⟨"created", .greater, "2024-03-09", ⟨10, 29⟩⟩] ∧
      ¬ ∃ t, parse (accept b.text b.cursor s).text = [t] := by
  intro today b s
  have hread : parse (accept b.text b.cursor s).text =
      [⟨"created", .contains, "x", ⟨0, 9⟩⟩, ⟨"created", .greater, "2024-03-09", ⟨10, 29⟩⟩] := by
    decide +kernel
  refine ⟨by decide +kernel, rfl, hread, ?_⟩
  rintro ⟨t, ht⟩
  rw [hread] at ht
  cases ht

end RowQuery.Editor
