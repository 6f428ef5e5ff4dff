import RowQuery.Proofs.Query.Reader

/-!
# The filter language

What may be written, apart from how it is read: items with white space between them, each a key, an
operator and a value.

* `Pieces`, `ValueText`, `OperatorText`, `ItemText`: the parts of an item and what they mean.
* `Sentence`: items one after the other.  `layout` is their text and `place` are their tokens.
* `step_item`: the reader finds an item in one step.
* `parse_layout`: the reader finds in a sentence its items and nothing else.
-/

namespace RowQuery.Query

open Text

/-! ## What may be written -/

/-- A text in pieces, which are characters that neither stop the text nor are backslashes, and
backslashes with any character behind them.  Each piece stands for one character. -/
inductive Pieces (stop : Char → Bool) : List Char → List Char → Prop
  | nil : Pieces stop [] []
  | plain {c : Char} {s v : List Char} : stop c = false → c ≠ '\\' → Pieces stop s v →
      Pieces stop (c :: s) (c :: v)
  | escaped {c : Char} {s v : List Char} : Pieces stop s v → Pieces stop ('\\' :: c :: s) (c :: v)

/-- How a value is written; `closed` is false if its closing quote is missing. -/
inductive ValueText : (closed : Bool) → List Char → List Char → Prop
  | bare {s v : List Char} : (∀ c ∈ s.head?, isQuote c = false) → Pieces isBlank s v →
      ValueText true s v
  | quoted {q : Char} {s v : List Char} : isQuote q = true → Pieces (· == q) s v →
      ValueText true (q :: (s ++ [q])) v
  | unclosed {q : Char} {s v : List Char} : isQuote q = true → Pieces (· == q) s v →
      ValueText false (q :: s) v

/-- How an operator is written. -/
inductive OperatorText : List Char → Operator → Prop
  | colon : OperatorText [':'] .contains
  | comparison {op : Operator} : op ≠ .contains → OperatorText op.symbol op
  | colonComparison {op : Operator} : op ≠ .contains → OperatorText (':' :: op.symbol) op

/-- The value behind an operator does not make it a longer one. -/
structure Apart (o v : List Char) : Prop where
  comparison : o = [':'] → ∀ op : Operator, op ≠ .contains → ¬ op.symbol <+: v
  equals : o.getLast? = some '>' ∨ o.getLast? = some '<' → v.head? ≠ some '='

/-- How an item is written. -/
inductive ItemText : (closed : Bool) → List Char → Clause → Prop
  | mk {closed : Bool} {key o v value : List Char} {op : Operator} : key ≠ [] →
      (∀ c ∈ key, isKeyChar c = true) → OperatorText o op → ValueText closed v value →
      value ≠ [] → Apart o v → ItemText closed (key ++ o ++ v) ⟨key, op, value⟩

/-- A word of a text: the white space before it, its characters and what they mean. -/
structure Word where
  gap : List Char
  text : List Char
  clause : Clause

/-- Items with white space between them.  Only the last quote need not be closed. -/
inductive Sentence : List Word → Prop
  | nil : Sentence []
  | last {w : Word} {closed : Bool} : (∀ c ∈ w.gap, isBlank c = true) →
      ItemText closed w.text w.clause → Sentence [w]
  | cons {w v : Word} {ws : List Word} : (∀ c ∈ w.gap, isBlank c = true) →
      ItemText true w.text w.clause → v.gap ≠ [] → Sentence (v :: ws) → Sentence (w :: v :: ws)

/-- The characters of words, one word after the other. -/
def layout (words : List Word) : List Char :=
  words.flatMap fun w => w.gap ++ w.text

/-- A token for each word, at the bytes where its characters stand if the first gap begins at byte
`n`. -/
def place : Nat → List Word → List Token
  | _, [] => []
  | n, w :: ws =>
    let start := n + byteLength w.gap
    let stop := start + byteLength w.text
    w.clause.token start stop :: place stop ws

/-! ## How it is read -/

theorem Pieces.run {stop : Char → Bool} {s v : List Char} (h : Pieces stop s v) :
    dropUntil stop s = [] ∧ escapesNext s = false ∧ unescape s = v := by
  induction h with
  | nil => exact ⟨rfl, rfl, rfl⟩
  | plain hs hc _ ih =>
    obtain ⟨hd, he, hu⟩ := ih
    rw [dropUntil_cons hc, escapesNext_cons hc, unescape_cons hc, hs, hu]
    exact ⟨hd, he, rfl⟩
  | escaped _ ih =>
    obtain ⟨hd, he, hu⟩ := ih
    exact ⟨hd, he, congrArg _ hu⟩

theorem Pieces.ne_nil {stop : Char → Bool} {s v : List Char} (h : Pieces stop s v) (hv : v ≠ []) :
    s ≠ [] := by
  intro hs
  subst hs
  cases h
  exact hv rfl

theorem ValueText.ne_nil {closed : Bool} {s v : List Char} (h : ValueText closed s v)
    (hv : v ≠ []) : s ≠ [] := by
  cases h with
  | bare _ hp => exact hp.ne_nil hv
  | quoted | unclosed => exact List.cons_ne_nil _ _

theorem readValue_text {closed : Bool} {v value t : List Char} (h : ValueText closed v value)
    (ht : EndsWord t) (hopen : closed = false → t = []) :
    readValue (v ++ t) = ⟨value, v, t⟩ := by
  cases h with
  | bare hq hp =>
    obtain ⟨hd, he, hu⟩ := hp.run
    obtain ⟨hn, hr⟩ := takeUntil_append_of_running hd he t
    rw [(run_of_endsWord ht).1, List.append_nil] at hn
    rw [(run_of_endsWord ht).2] at hr
    have hhead := head?_append_false hq fun c hc => isQuote_of_isBlank (ht c hc)
    rw [readValue_eq_readBare hhead, readBare, hn, hr, hu]
  | @quoted q s _ hq hp =>
    obtain ⟨hd, he, hu⟩ := hp.run
    obtain ⟨hn, hr⟩ := takeUntil_append_of_running hd he (q :: t)
    have hne : q ≠ '\\' := by
      intro h
      rw [h, isQuote_backslash] at hq
      exact absurd hq (by decide)
    rw [takeUntil_cons hne, beq_self_eq_true, if_pos rfl, List.append_nil] at hn
    rw [dropUntil_cons hne, beq_self_eq_true, if_pos rfl] at hr
    rw [List.cons_append, readValue_quoted hq, List.append_assoc, List.singleton_append,
      readQuoted_of_closed hr, hn, hu]
  | unclosed hq hp =>
    obtain ⟨hd, -, hu⟩ := hp.run
    rw [hopen rfl, List.append_nil, readValue_quoted hq, readQuoted_of_open hd, hu]

theorem OperatorText.head_not_key {o : List Char} {op : Operator} (h : OperatorText o op)
    (r : List Char) : ∀ c ∈ (o ++ r).head?, isKeyChar c = false := by
  intro c hc
  cases h with
  | colon | colonComparison =>
    obtain rfl : ':' = c := by simpa using hc
    decide
  | comparison hop =>
    cases op with
    | contains => exact absurd rfl hop
    | equal | notEqual | greater | less | atLeast | atMost =>
      simp only [Operator.symbol, List.cons_append, List.head?_cons, Option.mem_some_iff] at hc
      subst hc
      decide

theorem readOperator?_symbol {op : Operator} (hop : op ≠ .contains) {r : List Char}
    (hr : op = .greater ∨ op = .less → r.head? ≠ some '=') :
    readOperator? (op.symbol ++ r) = some ⟨op, op.symbol, r⟩ := by
  rw [readOperator?.eq_2]
  · rw [Operator.strip?_eq_some_iff.2 ⟨rfl, hop, hr⟩]
  · intro u hu
    cases op with
    | contains => exact hop rfl
    | equal | notEqual | greater | less | atLeast | atMost => simp [Operator.symbol] at hu

theorem OperatorText.head?_ne {o v : List Char} {op : Operator} (h : OperatorText o op)
    (ha : Apart o v) (hop : op = .greater ∨ op = .less) : v.head? ≠ some '=' := by
  apply ha.equals
  cases h with
  | colon => simp at hop
  | comparison | colonComparison =>
    rcases hop with rfl | rfl
    · exact Or.inl rfl
    · exact Or.inr rfl

theorem readOperator?_text {o v t : List Char} {op : Operator} (h : OperatorText o op)
    (hv : v ≠ []) (ha : Apart o v) (ht : EndsWord t) :
    readOperator? (o ++ (v ++ t)) = some ⟨op, o, v ++ t⟩ := by
  have hequals : op = .greater ∨ op = .less → (v ++ t).head? ≠ some '=' := by
    intro hop
    have hne := h.head?_ne ha hop
    cases v with
    | nil => exact absurd rfl hv
    | cons c r => exact hne
  cases h with
  | colon =>
    have hnone : Operator.strip? (v ++ t) = none := by
      have hv' := Operator.strip?_eq_none_iff.2 (ha.comparison rfl)
      cases t with
      | nil => rwa [List.append_nil]
      | cons c r =>
        rw [Operator.strip?_append (beginsComparison_of_isBlank (ht c rfl)), hv']
        rfl
    rw [List.singleton_append, readOperator?, hnone]
  | comparison hop => exact readOperator?_symbol hop hequals
  | colonComparison hop =>
    rw [List.cons_append, readOperator?, Operator.strip?_eq_some_iff.2 ⟨rfl, hop, hequals⟩]

/-- **An item is found in one step**, where a word may end behind it. -/
theorem step_item {closed : Bool} {s t : List Char} {w : Clause} (h : ItemText closed s w)
    (ht : EndsWord t) (hopen : closed = false → t = []) : step (s ++ t) = ⟨some w, s, t⟩ := by
  cases h with
  | @mk key o v value op hne hk ho hv hvalue ha =>
    have hv' := hv.ne_nil hvalue
    rw [List.append_assoc, List.append_assoc, step_key hne hk (ho.head_not_key _),
      readOperator?_text ho hv' ha ht]
    simp only [readValue_text hv ht hopen, clause?_of_ne_nil hvalue]

theorem ItemText.exists_cons {closed : Bool} {s : List Char} {w : Clause}
    (h : ItemText closed s w) : ∃ c r, s = c :: r ∧ isBlank c = false := by
  cases h with
  | @mk key o v _ _ hne hk =>
    cases key with
    | nil => exact absurd rfl hne
    | cons c k =>
      refine ⟨c, k ++ o ++ v, by simp, ?_⟩
      have hc := hk c (List.mem_cons_self ..)
      cases hb : isBlank c with
      | false => rfl
      | true => exact absurd hc (by simp [isKeyChar_of_isBlank hb])

theorem tokensFrom_item {closed : Bool} {s t : List Char} {w : Clause} (h : ItemText closed s w)
    (ht : EndsWord t) (hopen : closed = false → t = []) (n : Nat) :
    tokensFrom n (s ++ t) = w.token n (n + byteLength s) :: tokensFrom (n + byteLength s) t := by
  have hstep := step_item h ht hopen
  obtain ⟨c, r, rfl, hc⟩ := h.exists_cons
  rw [List.cons_append] at hstep ⊢
  rw [tokensFrom_word hc, hstep]
  rfl

theorem tokensFrom_gap {g : List Char} (hg : ∀ c ∈ g, isBlank c = true) (n : Nat) (s : List Char) :
    tokensFrom n (g ++ s) = tokensFrom (n + byteLength g) s := by
  induction g generalizing n with
  | nil => rfl
  | cons c r ih =>
    rw [List.cons_append, tokensFrom_blank (hg c (List.mem_cons_self ..)),
      ih (fun d hd => hg d (List.mem_cons_of_mem _ hd)), byteLength_cons, Nat.add_assoc]

theorem Sentence.endsWord_layout {w : Word} {ws : List Word} (h : Sentence (w :: ws))
    (hw : w.gap ≠ []) : EndsWord (layout (w :: ws)) := by
  have hblank : ∀ c ∈ w.gap, isBlank c = true := by
    cases h with
    | last hg _ => exact hg
    | cons hg _ _ _ => exact hg
  intro c hc
  cases hgap : w.gap with
  | nil => exact absurd hgap hw
  | cons d r =>
    obtain rfl : d = c := by simpa [layout, hgap] using hc
    exact hblank d (by rw [hgap]; exact List.mem_cons_self ..)

theorem tokensFrom_layout {words : List Word} (h : Sentence words) (n : Nat) :
    tokensFrom n (layout words) = place n words := by
  induction h generalizing n with
  | nil => exact tokensFrom_nil n
  | last hg hi =>
    have hstep := tokensFrom_item hi endsWord_nil (fun _ => rfl)
    rw [List.append_nil] at hstep
    simp only [layout, List.flatMap_cons, List.flatMap_nil, List.append_nil]
    rw [tokensFrom_gap hg, hstep, tokensFrom_nil]
    rfl
  | @cons w v ws hg hi hv hs ih =>
    have hlayout : layout (w :: v :: ws) = w.gap ++ (w.text ++ layout (v :: ws)) := by
      rw [layout, List.flatMap_cons, List.append_assoc]
      rfl
    rw [hlayout, tokensFrom_gap hg,
      tokensFrom_item hi (hs.endsWord_layout hv) (fun h => absurd h (by decide)), ih]
    rfl

/-- **Each sentence is read as it is meant**: one token for each item, in their order, each with the
key, the operator and the value of its item and at the bytes where the item stands. -/
theorem parse_layout {words : List Word} (h : Sentence words) :
    parse (String.ofList (layout words)) = place 0 words := by
  rw [parse, String.toList_ofList]
  exact tokensFrom_layout h 0

/-- An escaped blank, an escaped quote behind two operators' characters and a quote left open. -/
theorem parse_layout_three_items :
    let words : List Word :=
      [⟨[], ['p', ':', 'a', '\\', ' ', 'b'], ⟨['p'], .contains, ['a', ' ', 'b']⟩⟩,
        ⟨[' '], ['o', ':', '=', '\'', '\\', '\'', '\''], ⟨['o'], .equal, ['\'']⟩⟩,
        ⟨['\t', ' '], ['n', '>', '"', '=', ' '], ⟨['n'], .greater, ['=', ' ']⟩⟩]
    Sentence words ∧ parse (String.ofList (layout words)) = place 0 words := by
  intro words
  have h1 : ItemText true ['p', ':', 'a', '\\', ' ', 'b'] ⟨['p'], .contains, ['a', ' ', 'b']⟩ :=
    @ItemText.mk true ['p'] [':'] ['a', '\\', ' ', 'b'] ['a', ' ', 'b'] .contains
      (by decide) (List.all_eq_true.1 (by decide)) .colon
      (.bare (by simp [isQuote]) (.plain (by decide) (by decide) (.escaped (.plain (by decide)
        (by decide) .nil)))) (by decide) ⟨fun _ op => by cases op <;> decide, by decide⟩
  have h2 : ItemText true ['o', ':', '=', '\'', '\\', '\'', '\''] ⟨['o'], .equal, ['\'']⟩ :=
    @ItemText.mk true ['o'] [':', '='] ['\'', '\\', '\'', '\''] ['\''] .equal
      (by decide) (List.all_eq_true.1 (by decide))
      (@OperatorText.colonComparison .equal (by decide))
      (.quoted (s := ['\\', '\'']) (by decide) (.escaped .nil)) (by decide)
      ⟨fun h => absurd h (by decide), by decide⟩
  have h3 : ItemText false ['n', '>', '"', '=', ' '] ⟨['n'], .greater, ['=', ' ']⟩ :=
    @ItemText.mk false ['n'] ['>'] ['"', '=', ' '] ['=', ' '] .greater
      (by decide) (List.all_eq_true.1 (by decide)) (@OperatorText.comparison .greater (by decide))
      (.unclosed (by decide) (.plain (by decide) (by decide) (.plain (by decide) (by decide) .nil)))
      (by decide) ⟨fun h => absurd h (by decide), by decide⟩
  have hgap : ∀ c ∈ ['\t', ' '], isBlank c = true := List.all_eq_true.1 (by decide)
  have hblank : ∀ c ∈ [' '], isBlank c = true := List.all_eq_true.1 (by decide)
  have hs : Sentence words :=
    .cons (by simp) h1 (by decide) (.cons hblank h2 (by decide) (.last hgap h3))
  exact ⟨hs, parse_layout hs⟩

end RowQuery.Query
