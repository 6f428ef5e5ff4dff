import RowQuery.Proofs.Query.Grammar
import RowQuery.Proofs.Query.States
import RowQuery.Proofs.Text.Bytes

/-!
# Where the reader goes on

Behind a word that it drops the reader goes on at the next white space, with one exception: if the
word ends in quotes with nothing between them, it goes on directly behind these.

* `StartsAfter`: the places at which a token may start: the start of the text, behind white space,
  and where the token before it ends.
* `BehindEmptyQuotes`: the places behind a key, an operator and empty quotes.
* `Reads.resumes`: the reader stands at one of these places or before white space, in each state.
* `parse_start_iff`: a token starts where it may start, unless it stands behind empty quotes.
-/

namespace RowQuery.Query

open Text

/-- Where a token may start, `ts` being the tokens before it. -/
inductive StartsAfter (s : List Char) (ts : List Token) (n : Nat) : Prop
  | start : n = 0 → StartsAfter s ts n
  | blank {m : Nat} {c : Char} : CharAt s m c → isBlank c = true → m + c.utf8Size = n →
      StartsAfter s ts n
  | token {t : Token} : ts.getLast? = some t → t.span.stop = n → StartsAfter s ts n

/-- A key, an operator and a pair of quotes with nothing between them. -/
inductive EmptyItem : List Char → Prop
  | mk {key o : List Char} {op : Operator} {q : Char} : key ≠ [] →
      (∀ c ∈ key, isKeyChar c = true) → OperatorText o op → isQuote q = true →
        EmptyItem (key ++ o ++ [q, q])

/-- A key, an operator and empty quotes stand directly before byte `n`. -/
def BehindEmptyQuotes (s : List Char) (n : Nat) : Prop :=
  ∃ lead item rest, s = lead ++ item ++ rest ∧ EmptyItem item ∧ byteLength (lead ++ item) = n

/-! ## What a state is behind -/

theorem operatorText_of_readOperator? {s : List Char} {op : Lexeme Operator}
    (h : readOperator? s = some op) : OperatorText op.text op.meaning := by
  unfold readOperator? at h
  split at h
  · split at h
    · next hs =>
      cases h
      exact .colonComparison (Operator.strip?_eq_some_iff.1 hs).2.1
    · cases h
      exact .colon
  · split at h
    · next hs =>
      cases h
      exact .comparison (Operator.strip?_eq_some_iff.1 hs).2.1
    · cases h

/-- A value is empty before white space, at the end of the text, and in empty quotes. -/
theorem readValue_of_empty {s : List Char} (h : (readValue s).meaning = []) :
    EndsWord (readValue s).rest ∨ ∃ q, isQuote q = true ∧ (readValue s).text = [q, q] := by
  rcases quoted_or_bare s with ⟨q, r, rfl, hq⟩ | hbare
  · rw [readValue_quoted hq] at h ⊢
    rcases readQuoted_cases q r with ⟨-, hread⟩ | ⟨u, -, hread⟩
    · left
      rw [hread]
      exact endsWord_nil
    · right
      rw [hread] at h ⊢
      rw [unescape_eq_nil_iff.1 h]
      exact ⟨q, hq, rfl⟩
  · left
    rw [readValue_eq_readBare hbare]
    exact endsWord_dropUntil s

/-- In each state the reader stands where a token may start, behind empty quotes, or before white
space. -/
theorem Reads.resumes {s lead rest : List Char} {ts : List Token} (h : Reads s ts lead rest) :
    StartsAfter s ts (byteLength lead) ∨ BehindEmptyQuotes s (byteLength lead) ∨
      EndsWord rest := by
  induction h with
  | start => exact Or.inl (.start rfl)
  | @blank ts lead r c h hc _ =>
    left
    have hat : CharAt s (byteLength lead) c := ⟨lead, r, h.append.symm, rfl⟩
    exact .blank hat hc (by simp)
  | @word ts lead r c h hc _ =>
    have happ := (h.word hc).append
    rcases step_cases (c :: r) with ⟨key, u, -, hstep⟩ | ⟨key, op, hne, hk, hop, -, hstep⟩
    · right; right
      rw [hstep]
      exact endsWord_dropWhile u
    · by_cases hv : (readValue op.rest).meaning = []
      · right
        rcases readValue_of_empty hv with hend | ⟨q, hq, htext⟩
        · right
          rw [hstep]
          exact hend
        · left
          refine ⟨lead, (step (c :: r)).text, _, happ.symm, ?_, rfl⟩
          rw [hstep]
          show EmptyItem (key ++ op.text ++ (readValue op.rest).text)
          rw [htext]
          exact .mk hne hk (operatorText_of_readOperator? hop) hq
      · left
        refine .token (t := Clause.token ⟨key, op.meaning, (readValue op.rest).meaning⟩
          (byteLength lead) (byteLength lead + byteLength (step (c :: r)).text)) ?_
          (byteLength_append _ _).symm
        rw [Lexeme.tokens, hstep, clause?_of_ne_nil hv]
        exact List.getLast?_concat

/-! ## Tokens do not end in empty quotes -/

theorem OperatorText.getLast?_ne {o : List Char} {op : Operator} (h : OperatorText o op)
    (s : List Char) : (s ++ o).getLast? ≠ some '\\' := by
  intro hlast
  cases h with
  | colon => simp at hlast
  | comparison hop =>
    cases op with
    | contains => exact hop rfl
    | equal | notEqual | greater | less | atLeast | atMost => simp [Operator.symbol] at hlast
  | colonComparison hop =>
    cases op with
    | contains => exact hop rfl
    | equal | notEqual | greater | less | atLeast | atMost => simp [Operator.symbol] at hlast

/-- Empty quotes end a text on two quotes of which no backslash escapes the first. -/
theorem EmptyItem.exists_quotes {item : List Char} (h : EmptyItem item) :
    ∃ x q, item = x ++ [q] ++ [q] ∧ isQuote q = true ∧ ∀ s, (s ++ x).getLast? ≠ some '\\' := by
  obtain @⟨key, o, _, q, -, -, ho, hq⟩ := h
  refine ⟨key ++ o, q, by simp, hq, fun s => ?_⟩
  rw [← List.append_assoc]
  exact ho.getLast?_ne (s ++ key)

/-- A quote that stands in quoted text is behind a backslash. -/
theorem exists_backslash_of_takeUntil {q : Char} (hq : isQuote q = true) {s x : List Char}
    (h : takeUntil (· == q) s = x ++ [q]) : ∃ y, x = y ++ ['\\'] := by
  have hrun : dropUntil (· == q) (takeUntil (· == q) s) = [] := dropUntil_takeUntil s
  rw [h] at hrun
  have hesc : escapesNext x = true :=
    escapesNext_of_dropUntil_eq_nil (beq_backslash_of_isQuote hq :) hrun (beq_self_eq_true q)
  obtain ⟨y, hy, -⟩ := exists_eq_append_backslash hesc
  exact ⟨y, hy⟩

/-- Behind a token the reader goes on at once only if it ends with its quotes, and these are not
empty. -/
theorem Finds.not_emptyItem {s : List Char} {w : Clause} {op : Lexeme Operator} (h : Finds s w op)
    (hrest : ¬ EndsWord (step s).rest) {item : List Char} (hitem : EmptyItem item)
    (lead lead' : List Char) : lead ++ (step s).text ≠ lead' ++ item := by
  intro heq
  have hvalue := h.value_ne
  rw [h.value_eq] at hvalue
  rw [h.rest_eq] at hrest
  rw [h.text_eq] at heq
  obtain ⟨x, p, rfl, -, hx⟩ := hitem.exists_quotes
  rcases quoted_or_bare op.rest with ⟨q, r, hq, hquote⟩ | hbare
  · rw [hq, readValue_quoted hquote] at hvalue hrest heq
    rcases readQuoted_cases q r with ⟨-, hread⟩ | ⟨u, -, hread⟩
    · rw [hread] at hrest
      exact hrest endsWord_nil
    · rw [hread] at hvalue heq
      have hlast : lead ++ w.key ++ op.text ++ [q] ++ takeUntil (· == q) r ++ [q] =
          lead' ++ x ++ [p] ++ [p] := by simpa using heq
      obtain ⟨hbody, hqp⟩ := List.append_inj' hlast rfl
      obtain rfl : q = p := by simpa using hqp
      rcases List.eq_nil_or_concat (takeUntil (· == q) r) with hnil | ⟨z, d, hz⟩
      · rw [hnil] at hvalue
        exact hvalue rfl
      · -- the quote before the last one would be in the value, so behind a backslash
        rw [List.concat_eq_append] at hz
        rw [hz, ← List.append_assoc] at hbody
        obtain ⟨hbefore, hdq⟩ := List.append_inj' hbody rfl
        obtain rfl : d = q := by simpa using hdq
        obtain ⟨y, rfl⟩ := exists_backslash_of_takeUntil hquote hz
        apply hx lead'
        rw [← hbefore, ← List.append_assoc, List.getLast?_concat]
  · exact hrest (by rw [readValue_eq_readBare hbare]; exact endsWord_dropUntil op.rest)

/-- A token that starts where it may start does not start behind empty quotes. -/
theorem StartsAfter.not_behindEmptyQuotes {s : String} {ts us : List Token} {t : Token}
    (hs : StartsAfter s.toList ts t.span.start) (h : parse s = ts ++ t :: us) :
    ¬ BehindEmptyQuotes s.toList t.span.start := by
  obtain ⟨lead, c, r, w, hreads, hc, -, rfl⟩ := Reads.exists_of_eq_append h
  rintro ⟨lead', item, rest, hsplit, hitem, hlen⟩
  obtain ⟨hlead, -⟩ := eq_of_byteLength_eq (hsplit.symm.trans hreads.append.symm) hlen
  obtain ⟨x, q, rfl, hq, -⟩ := hitem.exists_quotes
  cases hs with
  | start hzero =>
    have hpos := byteLength_pos (s := lead' ++ (x ++ [q] ++ [q])) (by simp)
    rw [hlen, hzero] at hpos
    exact absurd hpos (by decide)
  | @blank m d hat hd hend =>
    obtain ⟨y, z, hyz, hm⟩ := hat
    have hcut : (y ++ [d]) ++ z = lead ++ c :: r := by rw [hreads.append, hyz]; simp
    have hbytes : byteLength (y ++ [d]) = byteLength lead := by
      rw [byteLength_append, byteLength_cons, byteLength_nil]
      rw [Nat.add_zero, hm]
      exact hend
    have hlast := (eq_of_byteLength_eq hcut hbytes).1
    rw [← hlead, ← List.append_assoc] at hlast
    obtain ⟨-, hdq⟩ := List.append_inj' hlast rfl
    obtain rfl : d = q := by simpa using hdq
    rw [isQuote_of_isBlank hd] at hq
    exact absurd hq (by decide)
  | @token u hu hstop =>
    obtain ⟨init, rfl⟩ := List.getLast?_eq_some_iff.1 hu
    rw [List.append_assoc, List.singleton_append] at h
    obtain ⟨lead₀, c₀, r₀, w₀, hreads₀, -, hm₀, rfl⟩ := Reads.exists_of_eq_append h
    obtain ⟨op, hf⟩ := exists_finds hm₀
    have hcut : lead₀ ++ (step (c₀ :: r₀)).text ++ (step (c₀ :: r₀)).rest = lead ++ c :: r := by
      rw [List.append_assoc, step_text_append_rest, hreads₀.append, hreads.append]
    obtain ⟨htext, hrest⟩ := eq_of_byteLength_eq hcut ((byteLength_append _ _).trans hstop)
    have hgoes : ¬ EndsWord (step (c₀ :: r₀)).rest := by
      rw [hrest]
      exact not_endsWord_cons hc r
    exact hf.not_emptyItem hgoes hitem lead₀ lead' (htext.trans hlead.symm)

/-- **A token starts behind white space or behind the token before it**, if not at the start of the
text, with this exception and no other: directly behind a key, an operator and empty quotes, which
are no token, the reader goes on at once. -/
theorem parse_start_iff {s : String} {ts us : List Token} {t : Token}
    (h : parse s = ts ++ t :: us) :
    StartsAfter s.toList ts t.span.start ↔ ¬ BehindEmptyQuotes s.toList t.span.start := by
  constructor
  · intro hs
    exact hs.not_behindEmptyQuotes h
  · intro hn
    obtain ⟨lead, c, r, w, hreads, hc, -, rfl⟩ := Reads.exists_of_eq_append h
    rcases hreads.resumes with hs | hq | hend
    · exact hs
    · exact absurd hq hn
    · exact absurd hend (not_endsWord_cons hc r)

/-- The third token of three, behind two words that are none. -/
theorem parse_start_iff_third :
    let s := "a:\"1\"b:2 !x k:''c:3"
    let t : Token := ⟨"c", .contains, "3", ⟨16, 19⟩⟩
    let before : List Token := [⟨"a", .contains, "1", ⟨0, 5⟩⟩, ⟨"b", .contains, "2", ⟨5, 8⟩⟩]
    parse s = before ++ t :: [] ∧
      (StartsAfter s.toList before t.span.start ↔ ¬ BehindEmptyQuotes s.toList t.span.start) := by
  intro s t before
  have hs : parse s = before ++ t :: [] := by decide +kernel
  exact ⟨hs, parse_start_iff hs⟩

/-- Behind a word that is dropped because of its empty quotes, a token starts in the middle of
what is written together. -/
theorem not_startsAfter_of_emptyQuotes :
    let s := "k:\"\"x:1"
    let t : Token := ⟨"x", .contains, "1", ⟨4, 7⟩⟩
    parse s = [] ++ t :: [] ∧ ¬ StartsAfter s.toList [] t.span.start := by
  intro s t
  have hread : parse s = [] ++ t :: [] := by decide +kernel
  have hitem : EmptyItem ['k', ':', '"', '"'] :=
    @EmptyItem.mk ['k'] [':'] .contains '"' (by decide) (List.all_eq_true.1 (by decide)) .colon
      (by decide)
  have hsplit : s.toList = [] ++ ['k', ':', '"', '"'] ++ ['x', ':', '1'] := by decide +kernel
  exact ⟨hread, fun h => h.not_behindEmptyQuotes hread ⟨[], _, _, hsplit, hitem, by decide⟩⟩

end RowQuery.Query
