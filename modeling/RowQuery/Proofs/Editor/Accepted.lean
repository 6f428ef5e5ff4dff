import RowQuery.Editor.Buffer
import RowQuery.Proofs.Editor.Cursor
import RowQuery.Proofs.Editor.Suggestion
import RowQuery.Proofs.Query.Verbatim
import RowQuery.Proofs.Text.Bytes
import RowQuery.Schema.Diagnostic

/-!
# Filters from suggestions

A value is put into the text as it is shown.  What is read there then depends on its characters, and
whether the filter makes sense on the comparison that has been typed before it.

* `Buffer.behind`: a text with one key and what is typed for its value; `suggest_behind` and
  `accept_behind` say what is offered there and what becomes of the text.
* `parse_accept_choice_iff`: the value of an enumeration is read as that value exactly if nothing in
  it has another meaning.
* `diagnose_accept_literal`: a number or a date is read behind the comparison that is typed, and the
  only thing that can be wrong with it is that dates are not compared in that way.
-/

namespace RowQuery.Editor

open Text
open Query (Operator Verbatim ItemText isKeyChar parse)

variable {r : Registry} {e : Registry.Entry} {today : Date} {typed : String} {s : Suggestion}
  {b : Buffer}

/-! ## The value of the only key -/

/-- A key, its colon and what is typed behind it, with the cursor at the end. -/
def Buffer.behind (key typed : String) : Buffer :=
  let text := key ++ ":" ++ typed
  ⟨text, byteLength text.toList⟩

theorem toList_behind (key typed : String) :
    (Buffer.behind key typed).text.toList = key.toList ++ ':' :: typed.toList := by
  simp only [Buffer.behind, String.toList_append]
  exact List.append_assoc ..

theorem takeBytes_behind (key typed : String) :
    takeBytes (Buffer.behind key typed).cursor (Buffer.behind key typed).text.toList =
      key.toList ++ ':' :: typed.toList :=
  (takeBytes_byteLength _).trans (toList_behind key typed)

theorem context_behind (he : e ∈ r.entries)
    (htyped : Unbroken (e.1.toList ++ [':']) typed.toList) :
    (Buffer.behind e.1 typed).context =
      ⟨typed, byteLength e.1.toList + 1, .value e.1 (byteLength e.1.toList)⟩ := by
  have hkey := Registry.isKeyChar_of_mem_key he
  have hword : Unbroken [] (e.1.toList ++ ':' :: typed.toList) := by
    have h := (Query.unbroken_key hkey []).append htyped
    rwa [List.append_assoc] at h
  have hvalue := Context.ofBefore_value (Or.inl rfl) hword (Query.colon_not_mem hkey)
  rw [List.nil_append, byteLength_nil, Nat.zero_add, String.ofList_toList, String.ofList_toList]
    at hvalue
  rw [Buffer.context, Context.ofCursor, takeBytes_behind, hvalue]

theorem suggest_behind (he : e ∈ r.entries)
    (htyped : Unbroken (e.1.toList ++ [':']) typed.toList) (hb : b = .behind e.1 typed) :
    suggest r today b.text b.cursor = suggestValues today e.2 typed := by
  have hcontext := context_behind he htyped
  rw [← hb, Buffer.context] at hcontext
  rw [suggest]
  simp only [hcontext, Registry.command?_of_mem he]

/-- What is inserted takes the place of what is typed. -/
theorem accept_behind (he : e ∈ r.entries)
    (htyped : Unbroken (e.1.toList ++ [':']) typed.toList) (hb : b = .behind e.1 typed) :
    (accept b.text b.cursor s).text =
      String.ofList (e.1.toList ++ [':'] ++ s.inserted.toList) := by
  have hcontext := context_behind he htyped
  rw [← hb, Buffer.context] at hcontext
  have hone : ':'.utf8Size = 1 := by decide
  have hstart : (Context.ofCursor b.text b.cursor).start = byteLength (e.1.toList ++ [':']) := by
    rw [hcontext, byteLength_append, byteLength_cons, byteLength_nil, hone]
  have htext : b.text.toList = e.1.toList ++ [':'] ++ typed.toList := by
    rw [hb, toList_behind]
    simp
  have hkept : takeBytes (byteLength (e.1.toList ++ [':'])) b.text.toList =
      e.1.toList ++ [':'] := by
    rw [htext, takeBytes_append]
  have hend : dropBytes b.cursor b.text.toList = [] := by
    have h := dropBytes_append b.text.toList []
    rw [List.append_nil] at h
    rwa [hb] at h ⊢
  rw [accept, insertAt, hstart, hkept, hend, List.append_nil]

/-! ## Values of enumerations -/

theorem Offer.choice_of_enumeration {c : Command} (h : Offer today c typed s)
    (hc : c.kind = .enumeration) : ∃ v, s = .ofValue [] v := by
  have hoperators : ∀ op, op ∉ c.operators := by
    intro op hop
    rcases (ordered_of_mem_operators hop).1 with hkind | hkind
    · exact absurd (hc.symm.trans hkind) (by decide)
    · exact absurd (hc.symm.trans hkind) (by decide)
  have hexamples : ∀ v, v ∉ examples today c.kind := by
    rw [hc]
    exact fun v => List.not_mem_nil
  cases h with
  | choice _ _ => exact ⟨_, rfl⟩
  | comparison hop _ => exact absurd hop (hoperators _)
  | bare _ hv _ => exact absurd hv (hexamples _)
  | compared _ _ hv _ => exact absurd hv (hexamples _)

/-- **The value of an enumeration that is taken is read as that value exactly if nothing in it has
another meaning.**  What is typed has no free white space, behind which another word would begin. -/
theorem parse_accept_choice_iff (he : e ∈ r.entries) (hkind : e.2.kind = .enumeration)
    (htyped : Unbroken (e.1.toList ++ [':']) typed.toList) (hb : b = .behind e.1 typed)
    (hs : s ∈ suggest r today b.text b.cursor) :
    (∃ span, parse (accept b.text b.cursor s).text = [⟨e.1, .contains, s.label, span⟩]) ↔
      Verbatim s.label.toList := by
  have haccept := accept_behind (s := s) he htyped hb
  rw [suggest_behind he htyped hb] at hs
  obtain ⟨v, rfl⟩ := (offer_of_mem hs).choice_of_enumeration hkind
  have hinserted : (Suggestion.ofValue [] v).inserted.toList = v.toList ++ [' '] := by
    simp only [Suggestion.ofValue, String.toList_append, String.toList_ofList, List.nil_append]
    rfl
  rw [hinserted, ← List.append_assoc] at haccept
  have hread := Query.tokensFrom_verbatim_iff (v := v.toList) (Registry.key_ne_nil he)
    (Registry.isKeyChar_of_mem_key he)
  rw [String.ofList_toList, String.ofList_toList] at hread
  rw [haccept, parse, String.toList_ofList]
  exact hread

/-- A value in the case in which it was declared, whatever the case in which it is typed. -/
theorem parse_accept_choice_iff_status :
    let e : Registry.Entry := ("status", .ofValues "Lifecycle state of the project"
      ["active", "paused", "watch", "archived"])
    let today : Date := ⟨2024, 3, 9, by decide⟩
    let b := Buffer.behind e.1 "AR"
    let s : Suggestion := .ofValue [] "archived"
    e ∈ Registry.dashboard.entries ∧ s ∈ suggest Registry.dashboard today b.text b.cursor ∧
      ∃ span, parse (accept b.text b.cursor s).text = [⟨"status", .contains, "archived", span⟩] := by
  intro e today b s
  have he : e ∈ Registry.dashboard.entries := by decide +kernel
  have hs : s ∈ suggest Registry.dashboard today b.text b.cursor := by decide +kernel
  have htyped : Unbroken ("status".toList ++ [':']) "AR".toList :=
    unbroken_of_all (by decide +kernel)
  have hverbatim : Verbatim "archived".toList := by decide +kernel
  exact ⟨he, hs, (parse_accept_choice_iff he rfl htyped rfl hs).2 hverbatim⟩

/-- A value with a blank in it: what is read is its first word. -/
theorem parse_accept_choice_blank :
    let r : Registry :=
      ⟨[("stage", .ofValues "" ["in progress"])], by decide +kernel, by decide +kernel⟩
    let today : Date := ⟨2024, 3, 9, by decide⟩
    let b := Buffer.behind "stage" ""
    let s : Suggestion := .ofValue [] "in progress"
    s ∈ suggest r today b.text b.cursor ∧
      parse (accept b.text b.cursor s).text = [⟨"stage", .contains, "in", ⟨0, 8⟩⟩] ∧
        s.label ≠ "in" := by
  decide +kernel

/-! ## Numbers and dates -/

/-- The comparison that is typed; behind a colon alone it is the colon itself. -/
def typedOperator (typed : List Char) : Operator :=
  ((Operator.strip? typed).map (·.1)).getD .contains

/-- The characters of a comparison behind a colon; the colon itself has none. -/
def comparisonText (op : Operator) : List Char :=
  if op = .contains then [] else op.symbol

/-- For numbers and dates an example is offered behind the comparison that is typed. -/
theorem Offer.exists_example {c : Command} (h : Offer today c typed s)
    (hc : c.kind = .number ∨ c.kind = .date) (hs : s.kind = .value) :
    ∃ v ∈ examples today c.kind,
      s = .ofValue (comparisonText (typedOperator typed.toList)) v ∧
        (typedOperator typed.toList ≠ .contains → c.operators ≠ []) := by
  cases h with
  | choice hv _ =>
    rw [choices_eq_nil hc] at hv
    exact absurd hv List.not_mem_nil
  | comparison _ _ => exact absurd hs (by simp [Suggestion.ofOperator])
  | @bare v _ hv hpre =>
    have hnone : Operator.strip? typed.toList = none := by
      cases htyped : typed.toList with
      | nil => rfl
      | cons x t =>
        have hx : x ∈ v.toList := hpre.subset (htyped ▸ List.mem_cons_self ..)
        exact Operator.strip?_cons (plain_of_isLiteralChar ((mem_examples hv).2 x hx)).2.2.2 t
    rw [typedOperator, hnone]
    exact ⟨v, hv, rfl, fun hop => absurd rfl hop⟩
  | @compared op rest v hops hstrip hv _ =>
    have hop : op ≠ .contains := (Operator.strip?_eq_some_iff.1 hstrip).2.1
    have htyped : typedOperator typed.toList = op := by
      rw [typedOperator, hstrip]
      rfl
    rw [htyped]
    refine ⟨v, hv, ?_, fun _ => hops⟩
    rw [comparisonText, if_neg hop]

theorem verbatim_of_mem_examples {kind : Kind} {v : String} (hv : v ∈ examples today kind) :
    Verbatim v.toList := by
  obtain ⟨hne, hliteral⟩ := mem_examples hv
  have hplain := fun c hc => plain_of_isLiteralChar (hliteral c hc)
  refine ⟨hne, fun c hc => ⟨(hplain c hc).1, (hplain c hc).2.1⟩, fun c hc => ?_, ?_⟩
  · exact (hplain c (List.mem_of_mem_head? hc)).2.2.1
  · rw [← Operator.strip?_eq_none_iff]
    obtain ⟨c, t, hv'⟩ := List.exists_cons_of_ne_nil hne
    rw [hv']
    exact Operator.strip?_cons (hplain c (hv' ▸ List.mem_cons_self ..)).2.2.2 t

/-- A text without another meaning is the value behind any operator. -/
theorem itemText_comparison {key v : List Char} (h : Verbatim v) (op : Operator)
    (hne : key ≠ []) (hkey : ∀ c ∈ key, isKeyChar c = true) :
    ItemText true (key ++ [':'] ++ (comparisonText op ++ v)) ⟨key, op, v⟩ := by
  by_cases hop : op = .contains
  · subst hop
    exact h.itemText hne hkey
  · have happart : Query.Apart (':' :: op.symbol) v := by
      refine ⟨fun hcolon => ?_, fun _ hequals => ?_⟩
      · cases op <;> simp [Operator.symbol] at hcolon
      · obtain ⟨t, ht⟩ := List.head?_eq_some_iff.1 hequals
        exact h.comparison .equal (by decide) ⟨t, ht.symm⟩
    have hitem := ItemText.mk hne hkey (.colonComparison hop)
      (.bare h.head (Query.pieces_self h.word)) h.ne_nil happart
    rw [comparisonText, if_neg hop]
    simpa using hitem

/-- Each example is a number, or a date, as its key expects. -/
theorem problem?_of_mem_examples {c : Command} {t : Query.Token}
    (hv : t.value ∈ examples today c.kind) :
    problem? c t = if t.operator.isOrdering ∧ t.operator ∉ c.operators then
      some (.operatorNotSupported t.operator) else none := by
  unfold problem?
  split
  · rfl
  · cases hkind : c.kind with
    | number =>
      rw [hkind] at hv
      have hall : ∀ v ∈ ["0", "10", "100"], (number? v.toList).isSome = true := by
        decide +kernel
      exact if_pos (hall _ hv)
    | date =>
      rw [hkind] at hv
      have htext : t.value = String.ofList today.text := List.mem_singleton.1 hv
      simp only [htext, String.toList_ofList, dateNotation.reads_back, Option.isSome_some, if_true]
    | text => rfl
    | enumeration | boolean =>
      rw [hkind] at hv
      exact absurd hv List.not_mem_nil

theorem diagnoseToken?_of_mem (he : e ∈ r.entries) {t : Query.Token} (ht : t.key = e.1) :
    diagnoseToken? r t = (problem? e.2 t).map (⟨t.key, t.span, ·⟩) := by
  rw [diagnoseToken?, ht, Registry.command?_of_mem he]

/-- The orders that are not offered, where any are, are those of dates that allow for equality. -/
theorem not_mem_operators_iff {c : Command} {op : Operator}
    (hop : op ≠ .contains → c.operators ≠ []) : op.isOrdering = true ∧ op ∉ c.operators ↔
      c.kind = .date ∧ (op = .atLeast ∨ op = .atMost) := by
  by_cases hcontains : op = .contains
  · subst hcontains
    simp [Operator.isOrdering]
  · have hsome := hop hcontains
    obtain ⟨o, ho⟩ := List.exists_mem_of_ne_nil _ hsome
    have hoperators : c.operators = c.kind.operators := by
      unfold Command.operators at hsome ⊢
      split
      · rfl
      · next hno => exact absurd (if_neg hno) hsome
    rw [hoperators]
    rcases (ordered_of_mem_operators ho).1 with hkind | hkind
    · rw [hkind]
      cases op <;> decide
    · rw [hkind]
      cases op <;> decide

/-- **A number or a date that is taken is read behind the comparison that is typed**, and nothing is
found wrong with it unless it is a date behind a comparison that dates do not have. -/
theorem diagnose_accept_literal (he : e ∈ r.entries)
    (hkind : e.2.kind = .number ∨ e.2.kind = .date)
    (htyped : Unbroken (e.1.toList ++ [':']) typed.toList) (hb : b = .behind e.1 typed)
    (hs : s ∈ suggest r today b.text b.cursor) (hvalue : s.kind = .value) :
    let op := typedOperator typed.toList
    ∃ span, parse (accept b.text b.cursor s).text = [⟨e.1, op, s.label, span⟩] ∧
      diagnose r [⟨e.1, op, s.label, span⟩] =
        if e.2.kind = .date ∧ (op = .atLeast ∨ op = .atMost) then
          [⟨e.1, span, .operatorNotSupported op⟩] else [] := by
  intro op
  have haccept := accept_behind (s := s) he htyped hb
  rw [suggest_behind he htyped hb] at hs
  obtain ⟨v, hv, rfl, hop⟩ := (offer_of_mem hs).exists_example hkind hvalue
  have hitem := itemText_comparison (verbatim_of_mem_examples hv) op (Registry.key_ne_nil he)
    (Registry.isKeyChar_of_mem_key he)
  have hinserted : (Suggestion.ofValue (comparisonText op) v).inserted.toList =
      comparisonText op ++ v.toList ++ [' '] := by
    simp only [Suggestion.ofValue, String.toList_append, String.toList_ofList]
    rfl
  rw [hinserted, ← List.append_assoc] at haccept
  refine ⟨⟨0, byteLength (e.1.toList ++ [':'] ++ (comparisonText op ++ v.toList))⟩, ?_, ?_⟩
  · rw [haccept, parse, String.toList_ofList, Query.tokensFrom_item_blank hitem]
    simp only [Query.Clause.token, String.ofList_toList]
    rfl
  · rw [diagnose, List.filterMap_cons, diagnoseToken?_of_mem he rfl, problem?_of_mem_examples hv]
    simp only [not_mem_operators_iff hop, op]
    by_cases hrefused : e.2.kind = .date ∧
        (typedOperator typed.toList = .atLeast ∨ typedOperator typed.toList = .atMost)
    · rw [if_pos hrefused, if_pos hrefused]
      rfl
    · rw [if_neg hrefused, if_neg hrefused]
      rfl

/-- A date behind a comparison that is offered for dates. -/
theorem diagnose_accept_literal_created :
    let r := Registry.dashboard
    let e : Registry.Entry := ("created", .ofKind .date "Creation date (YYYY-MM-DD)")
    let today : Date := ⟨2024, 3, 9, by decide⟩
    let b := Buffer.behind e.1 "<20"
    let s : Suggestion := .ofValue ['<'] "2024-03-09"
    e ∈ r.entries ∧ s ∈ suggest r today b.text b.cursor ∧
      ∃ span, parse (accept b.text b.cursor s).text = [⟨"created", .less, "2024-03-09", span⟩] ∧
        diagnose r [⟨"created", .less, "2024-03-09", span⟩] = [] := by
  intro r e today b s
  have he : e ∈ r.entries := by decide +kernel
  have hs : s ∈ suggest r today b.text b.cursor := by decide +kernel
  have htyped : Unbroken ("created".toList ++ [':']) "<20".toList :=
    unbroken_of_all (by decide +kernel)
  obtain ⟨span, hread, hdiagnose⟩ :=
    diagnose_accept_literal he (Or.inr rfl) htyped rfl hs rfl
  exact ⟨he, hs, span, hread, hdiagnose⟩

/-- A date behind a comparison that is not offered for dates is offered, and then refused. -/
theorem diagnose_accept_at_least :
    let r := Registry.dashboard
    let today : Date := ⟨2024, 3, 9, by decide⟩
    let b := Buffer.behind "created" ">="
    let s : Suggestion := .ofValue ['>', '='] "2024-03-09"
    s ∈ suggest r today b.text b.cursor ∧ s.kind = .value ∧
      diagnose r (parse (accept b.text b.cursor s).text) =
        [⟨"created", ⟨0, 20⟩, .operatorNotSupported .atLeast⟩] := by
  decide +kernel

end RowQuery.Editor
