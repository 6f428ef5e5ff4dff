import RowQuery.Proofs.Query.Grammar
import RowQuery.Proofs.Query.States

/-!
# Values that are read as they are written

Text that is put behind a key and its colon without quotes or escapes, with white space behind it, is
the value of that key only if nothing in it has another meaning.

* `Verbatim`: such a text, which `isVerbatim` decides, and `Verbatim.itemText`: it makes an item of
  the filter language.
* `length_value_le`: a value is shorter than the text in which it is found.
* `tokensFrom_verbatim_iff`: no other text is read as it is written.
-/

namespace RowQuery.Query

open Text

/-- A text that has no other meaning than its characters, as a value behind a colon. -/
structure Verbatim (v : List Char) : Prop where
  ne_nil : v ≠ []
  word : ∀ c ∈ v, isBlank c = false ∧ c ≠ '\\'
  head : ∀ c ∈ v.head?, isQuote c = false
  comparison : ∀ op : Operator, op ≠ .contains → ¬ op.symbol <+: v

/-- Whether a text has no other meaning than its characters. -/
def isVerbatim (v : List Char) : Bool :=
  match v with
  | [] => false
  | c :: _ => !isQuote c && (Operator.strip? v).isNone && v.all fun d => !isBlank d && d != '\\'

theorem isVerbatim_iff {v : List Char} : isVerbatim v = true ↔ Verbatim v := by
  cases v with
  | nil => exact ⟨fun h => absurd h (by decide), fun h => absurd rfl h.ne_nil⟩
  | cons c r =>
    simp only [isVerbatim, Bool.and_eq_true, Bool.not_eq_true', List.all_eq_true, bne_iff_ne,
      Option.isNone_iff_eq_none, Operator.strip?_eq_none_iff]
    constructor
    · rintro ⟨⟨hquote, hcomparison⟩, hword⟩
      refine ⟨List.cons_ne_nil _ _, hword, fun d hd => ?_, hcomparison⟩
      obtain rfl : c = d := by simpa using hd
      exact hquote
    · intro h
      exact ⟨⟨h.head c rfl, h.comparison⟩, h.word⟩

instance (v : List Char) : Decidable (Verbatim v) :=
  decidable_of_iff _ isVerbatim_iff

theorem pieces_self {v : List Char} (h : ∀ c ∈ v, isBlank c = false ∧ c ≠ '\\') :
    Pieces isBlank v v := by
  induction v with
  | nil => exact .nil
  | cons c r ih =>
    have hc := h c (List.mem_cons_self ..)
    exact .plain hc.1 hc.2 (ih fun d hd => h d (List.mem_cons_of_mem _ hd))

theorem Verbatim.itemText {key v : List Char} (h : Verbatim v) (hne : key ≠ [])
    (hkey : ∀ c ∈ key, isKeyChar c = true) :
    ItemText true (key ++ [':'] ++ v) ⟨key, .contains, v⟩ :=
  .mk hne hkey .colon (.bare h.head (pieces_self h.word)) h.ne_nil
    ⟨fun _ => h.comparison, fun hlast => by simp at hlast⟩

theorem endsWord_blank : EndsWord [' '] := by
  intro c hc
  obtain rfl : ' ' = c := by simpa using hc
  decide

/-- An item with a blank behind it is one token. -/
theorem tokensFrom_item_blank {s : List Char} {w : Clause} (h : ItemText true s w) :
    tokensFrom 0 (s ++ [' ']) = [w.token 0 (byteLength s)] := by
  rw [tokensFrom_item h endsWord_blank (by simp) 0, tokensFrom_blank (by decide), tokensFrom_nil,
    Nat.zero_add]

/-! ## No other text -/

theorem length_readValue_le (s : List Char) : (readValue s).meaning.length ≤ s.length := by
  cases s with
  | nil => exact Nat.le_refl _
  | cons c r =>
    rw [readValue]
    split
    · have hle : (unescape (takeUntil (· == c) r)).length ≤ r.length :=
        Nat.le_trans (length_unescape_le _) (length_takeUntil_le r)
      rw [readQuoted]
      split
      · exact Nat.le_succ_of_le hle
      · exact Nat.le_succ_of_le hle
    · exact Nat.le_trans (length_unescape_le _) (length_takeUntil_le _)

theorem length_rest_readValue_le (s : List Char) : (readValue s).rest.length ≤ s.length := by
  have h := congrArg List.length (readValue_append s)
  rw [List.length_append] at h
  omega

theorem readOperator?_text_ne_nil {s : List Char} {op : Lexeme Operator}
    (h : readOperator? s = some op) : op.text ≠ [] := by
  unfold readOperator? at h
  split at h
  · split at h
    · cases h
      simp
    · cases h
      simp
  · split at h
    · next op' _ _ =>
      cases h
      cases op' <;> simp [Operator.symbol]
    · cases h

/-- A key and an operator stand before a value. -/
theorem length_value_le {n : Nat} {s : List Char} {t : Token} (h : t ∈ tokensFrom n s) :
    t.value.toList.length + 2 ≤ s.length := by
  rw [← Nat.add_zero n, tokensFrom_add, List.mem_map] at h
  obtain ⟨u, hu, rfl⟩ := h
  obtain ⟨ts, lead, c, r, w, hreads, -, hm, rfl⟩ := Reads.exists_of_mem hu
  obtain ⟨op, hf⟩ := exists_finds hm
  have hkey := List.length_pos_iff.2 hf.key_ne
  have hop := List.length_pos_iff.2 (readOperator?_text_ne_nil hf.operator)
  have hvalue := length_readValue_le op.rest
  have hstep := congrArg List.length hf.append
  have hall := congrArg List.length hreads.append
  rw [List.length_append] at hall
  rw [List.length_append, List.length_append] at hstep
  have heq : ((w.token (byteLength lead)
      (byteLength lead + byteLength (step (c :: r)).text)).shift n).value.toList = w.value := by
    simp [Token.shift, Clause.token]
  rw [heq, hf.value_eq]
  omega

theorem eq_of_append_singleton_eq_cons {a b : Char} {t : List Char} (h : t ++ [a] = b :: t) :
    a = b := by
  induction t with
  | nil => simpa using h
  | cons c t ih =>
    obtain ⟨rfl, htail⟩ := List.cons.inj h
    exact ih htail

/-- A text that begins with a quote is not its own value. -/
theorem readQuoted_ne {q : Char} (hq : isQuote q = true) (t : List Char) :
    (readQuoted q (t ++ [' '])).meaning ≠ q :: t := by
  intro h
  have hmeaning : unescape (takeUntil (· == q) (t ++ [' '])) = q :: t := by
    rw [readQuoted] at h
    split at h
    · exact h
    · exact h
  have htaken : (takeUntil (· == q) (t ++ [' '])).length ≤ (t ++ [' ']).length :=
    length_takeUntil_le _
  have hshort := length_unescape_le (takeUntil (· == q) (t ++ [' ']))
  have hlen := congrArg List.length hmeaning
  simp only [List.length_append, List.length_cons, List.length_nil] at htaken hlen
  -- nothing may have been left out: neither a quote behind it nor an escape
  have hself := unescape_eq_self (s := takeUntil (· == q) (t ++ [' '])) (by omega)
  have happ := takeUntil_append_dropUntil (· == q) (t ++ [' '])
  have hdrop : dropUntil (· == q) (t ++ [' ']) = [] := by
    have hsum := congrArg List.length happ
    simp only [List.length_append, List.length_cons, List.length_nil] at hsum
    exact List.eq_nil_of_length_eq_zero (by omega)
  rw [hdrop, List.append_nil, ← hself, hmeaning] at happ
  have hblank := eq_of_append_singleton_eq_cons happ.symm
  rw [← hblank] at hq
  exact absurd hq (by decide)

/-- In a text that is its own value, no white space ends it and no backslash escapes. -/
theorem word_of_readBare {v : List Char} (h : (readBare (v ++ [' '])).meaning = v) :
    ∀ c ∈ v, isBlank c = false ∧ c ≠ '\\' := by
  have hmeaning : unescape (takeUntil isBlank (v ++ [' '])) = v := h
  by_cases hd : dropUntil isBlank v = []
  · cases he : escapesNext v with
    | true =>
      -- the backslash at the end would take the blank in
      obtain ⟨x, rfl, hx⟩ := exists_eq_append_backslash he
      rw [(takeUntil_append_of_escaping isBlank_backslash hd he ' ' []).1, List.append_assoc,
        unescape_append hx] at hmeaning
      have hlast := congrArg List.getLast? hmeaning
      simp [unescape, takeUntil] at hlast
    | false =>
      have hblank : isBlank ' ' = true := by decide
      rw [(takeUntil_append_of_running hd he [' ']).1, takeUntil_cons (by decide), if_pos hblank,
        List.append_nil] at hmeaning
      have hback := not_mem_of_unescape_eq hmeaning he
      intro c hc
      refine ⟨?_, fun heq => hback (heq ▸ hc)⟩
      cases hb : isBlank c with
      | false => rfl
      | true =>
        obtain ⟨x, y, rfl⟩ := List.append_of_mem hc
        have hesc := escapesNext_of_dropUntil_eq_nil isBlank_backslash hd hb
        rw [escapesNext_of_not_mem fun hm => hback (List.mem_append_left _ hm)] at hesc
        exact absurd hesc (by decide)
  · -- free white space would end it early
    rw [(takeUntil_append_of_stopped isBlank_backslash hd [' ']).1] at hmeaning
    have hshort := length_unescape_le (takeUntil isBlank v)
    have hpos := List.length_pos_iff.2 hd
    have hsum := congrArg List.length (takeUntil_append_dropUntil isBlank v)
    have hlen := congrArg List.length hmeaning
    rw [List.length_append] at hsum
    omega

/-- Behind a colon that is read alone, no comparison begins. -/
theorem strip?_eq_none_of_contains {r : List Char} {op : Lexeme Operator}
    (h : readOperator? (':' :: r) = some op) (hop : op.meaning = .contains) :
    Operator.strip? r = none ∧ op.rest = r := by
  rw [readOperator?] at h
  split at h
  · next hs =>
    cases h
    exact absurd hop (Operator.strip?_eq_some_iff.1 hs).2.1
  · next hs =>
    cases h
    exact ⟨hs, rfl⟩

theorem verbatim_of_readValue {v : List Char} (hne : v ≠ [])
    (hs : Operator.strip? (v ++ [' ']) = none) (hv : (readValue (v ++ [' '])).meaning = v) :
    Verbatim v := by
  have hhead : ∀ c ∈ v.head?, isQuote c = false := by
    intro q hq
    obtain ⟨t, rfl⟩ := List.head?_eq_some_iff.1 hq
    cases hquote : isQuote q with
    | false => rfl
    | true =>
      rw [List.cons_append, readValue_quoted hquote] at hv
      exact absurd hv (readQuoted_ne hquote t)
  have hblank : ∀ c ∈ (v ++ [' ']).head?, isQuote c = false :=
    head?_append_false hhead fun c hc => isQuote_of_isBlank (endsWord_blank c hc)
  rw [readValue_eq_readBare hblank] at hv
  refine ⟨hne, word_of_readBare hv, hhead, fun op hop hp => ?_⟩
  exact Operator.strip?_eq_none_iff.1 hs op hop (hp.trans (List.prefix_append _ _))

/-- Behind a key and a colon there is an operator, and a value if it is not empty. -/
theorem step_key_colon {key : List Char} (hne : key ≠ []) (hkey : ∀ c ∈ key, isKeyChar c = true)
    (r : List Char) : ∃ op, readOperator? (':' :: r) = some op ∧
      step (key ++ ':' :: r) = ⟨clause? key op.meaning (readValue op.rest).meaning,
        key ++ op.text ++ (readValue op.rest).text, (readValue op.rest).rest⟩ := by
  have hcolon : ∀ c ∈ (':' :: r).head?, isKeyChar c = false := by
    intro c hc
    obtain rfl : ':' = c := by simpa using hc
    decide
  have hstep := step_key hne hkey hcolon
  cases hop : readOperator? (':' :: r) with
  | none =>
    rw [readOperator?] at hop
    split at hop
    · exact absurd hop (by simp)
    · exact absurd hop (by simp)
  | some op =>
    simp only [hop] at hstep
    exact ⟨op, rfl, hstep⟩

/-- **A text behind a colon is its own value exactly if it is read as it is written.** -/
theorem tokensFrom_verbatim_iff {key v : List Char} (hne : key ≠ [])
    (hkey : ∀ c ∈ key, isKeyChar c = true) :
    (∃ span, tokensFrom 0 (key ++ [':'] ++ v ++ [' ']) =
      [⟨String.ofList key, .contains, String.ofList v, span⟩]) ↔ Verbatim v := by
  constructor
  · rintro ⟨span, hread⟩
    have htext : key ++ [':'] ++ v ++ [' '] = key ++ ':' :: (v ++ [' ']) := by simp
    rw [htext] at hread
    obtain ⟨op, hop, hstep⟩ := step_key_colon hne hkey (v ++ [' '])
    obtain ⟨c, k, rfl⟩ := List.exists_cons_of_ne_nil hne
    have hc := isBlank_of_isKeyChar (hkey c (List.mem_cons_self ..))
    rw [List.cons_append] at hread hstep
    rw [tokensFrom_word hc, hstep] at hread
    by_cases hempty : (readValue op.rest).meaning = []
    · -- the token would have to be read in what is left, which is too short for its value
      have hnone : clause? (c :: k) op.meaning (readValue op.rest).meaning = none := by
        rw [clause?, hempty]
        rfl
      simp only [Lexeme.tokens, hnone, List.nil_append] at hread
      have hlen := length_value_le (hread ▸ List.mem_singleton_self _)
      have hle := length_rest_readValue_le op.rest
      have hrest := congrArg List.length (readOperator?_append hop)
      have hopText := List.length_pos_iff.2 (readOperator?_text_ne_nil hop)
      simp only [List.length_append, List.length_cons, List.length_nil] at hrest
      rw [String.toList_ofList] at hlen
      omega
    · simp only [Lexeme.tokens, clause?_of_ne_nil hempty, Clause.token, List.singleton_append,
        List.cons.injEq, Token.mk.injEq, String.ofList_inj] at hread
      obtain ⟨⟨-, hcontains, hvalue, -⟩, -⟩ := hread
      obtain ⟨hs, hrest⟩ := strip?_eq_none_of_contains hop hcontains
      rw [hrest] at hvalue hempty
      exact verbatim_of_readValue (hvalue ▸ hempty) hs hvalue
  · intro h
    refine ⟨⟨0, byteLength (key ++ [':'] ++ v)⟩, ?_⟩
    rw [tokensFrom_item_blank (h.itemText hne hkey)]
    rfl

end RowQuery.Query
