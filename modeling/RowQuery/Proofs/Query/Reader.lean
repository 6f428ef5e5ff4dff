import RowQuery.Query.Reader
import RowQuery.Proofs.Query.Operator
import RowQuery.Proofs.Text.Words

/-!
# The reader, step by step

Facts about one step of the reader and the induction over all its steps.

* `readOperator?_append_blank`: white space behind a text does not change its operator.
* `step_key`: what a step does behind a key, and `step_cases`: what it can do at all.
* `step_append_blank`: white space behind a text ends the step there, unless the text ends inside
  quotes or on an escaping backslash; then the step takes it into the value.
* `tokensFrom_blank`, `tokensFrom_word` and `readerInduction`: the steps one after the other.
* `tokensFrom_add`: the tokens do not depend on where the text begins, but for their places.
-/

namespace RowQuery.Query

open Text

/-! ## Characters -/

theorem isKeyChar_of_isBlank {c : Char} (hc : isBlank c = true) : isKeyChar c = false := by
  simp [isKeyChar, hc]

theorem isBlank_of_isKeyChar {c : Char} (h : isKeyChar c = true) : isBlank c = false := by
  cases hb : isBlank c with
  | false => rfl
  | true =>
    rw [isKeyChar_of_isBlank hb] at h
    exact absurd h (by decide)

theorem colon_not_mem {key : List Char} (h : ∀ c ∈ key, isKeyChar c = true) : ':' ∉ key := by
  intro hc
  exact absurd (h _ hc) (by decide)

/-- A key and its colon have no white space in them. -/
theorem unbroken_key {key : List Char} (h : ∀ c ∈ key, isKeyChar c = true) (s : List Char) :
    Unbroken s (key ++ [':']) := by
  refine unbroken_of_not_blank fun c hc => ?_
  rcases List.mem_append.1 hc with hc | hc
  · exact isBlank_of_isKeyChar (h c hc)
  · rw [List.mem_singleton.1 hc]
    decide

theorem isQuote_of_isBlank {c : Char} (hc : isBlank c = true) : isQuote c = false := by
  have h1 := ne_of_isBlank hc (d := '"') (by decide)
  have h2 := ne_of_isBlank hc (d := '\'') (by decide)
  simp [isQuote, h1, h2]

theorem beginsComparison_of_isBlank {c : Char} (hc : isBlank c = true) :
    beginsComparison c = false := by
  have h1 := ne_of_isBlank hc (d := '<') (by decide)
  have h2 := ne_of_isBlank hc (d := '>') (by decide)
  have h3 := ne_of_isBlank hc (d := '=') (by decide)
  have h4 := ne_of_isBlank hc (d := '!') (by decide)
  simp [beginsComparison, h1, h2, h3, h4]

/-! ## The parts of a token -/

/-- What `read` finds in `s` ends there if `c` comes next, whatever follows. -/
def StopsAt {α : Type} (read : List Char → Lexeme α) (s : List Char) (c : Char) : Prop :=
  ∀ t, read (s ++ c :: t) = { read s with rest := (read s).rest ++ c :: t }

/-- No operator goes on with this text: it begins neither with a colon nor with a comparison. -/
def EndsOperator (t : List Char) : Prop :=
  ∀ c ∈ t.head?, c ≠ ':' ∧ beginsComparison c = false

theorem endsOperator_of_endsWord {t : List Char} (h : EndsWord t) : EndsOperator t := by
  intro c hc
  have hb := h c hc
  exact ⟨ne_of_isBlank hb (by decide), beginsComparison_of_isBlank hb⟩

/-- What follows is not looked at if no operator goes on with it. -/
theorem readOperator?_append_of_ends {t : List Char} (ht : EndsOperator t) (s : List Char) :
    readOperator? (s ++ t) = (readOperator? s).map fun l => { l with rest := l.rest ++ t } := by
  cases t with
  | nil => simp
  | cons c t =>
    obtain ⟨hne, hb⟩ : c ≠ ':' ∧ beginsComparison c = false := ht c rfl
    cases s with
    | nil =>
      rw [List.nil_append, readOperator?.eq_2 _ (by intro r h; exact hne (List.cons.inj h).1),
        Operator.strip?_cons hb]
      rfl
    | cons x r =>
      by_cases hx : x = ':'
      · subst hx
        simp only [List.cons_append, readOperator?, Operator.strip?_append hb]
        cases Operator.strip? r <;> rfl
      · rw [readOperator?.eq_2 _ (by intro u h; exact hx (List.cons.inj h).1),
          readOperator?.eq_2 _ (by intro u h; exact hx (List.cons.inj h).1),
          Operator.strip?_append hb]
        cases Operator.strip? (x :: r) <;> rfl

theorem readOperator?_append_blank {c : Char} (hc : isBlank c = true) (s t : List Char) :
    readOperator? (s ++ c :: t) =
      (readOperator? s).map fun l => { l with rest := l.rest ++ c :: t } := by
  refine readOperator?_append_of_ends (endsOperator_of_endsWord ?_) s
  intro d hd
  obtain rfl : c = d := by simpa using hd
  exact hc

theorem mem_text_of_readOperator? {s : List Char} {op : Lexeme Operator}
    (h : readOperator? s = some op) : ∀ c ∈ op.text, c = ':' ∨ beginsComparison c = true := by
  unfold readOperator? at h
  split at h
  · split at h
    · next hs =>
      cases h
      intro c hc
      rcases List.mem_cons.1 hc with rfl | hc
      · exact Or.inl rfl
      · exact Or.inr (Operator.beginsComparison_of_strip? hs c hc)
    · cases h
      intro c hc
      exact Or.inl (List.mem_singleton.1 hc)
  · split at h
    · next hs =>
      cases h
      intro c hc
      exact Or.inr (Operator.beginsComparison_of_strip? hs c hc)
    · cases h

theorem readWord_stopsAt {c : Char} (hc : isBlank c = true) (s : List Char) :
    StopsAt readWord s c := by
  intro t
  obtain ⟨ht, hd⟩ := takeWhile_append_cons (p := fun c => !isBlank c) (c := c) (by simp [hc]) s t
  rw [readWord, ht, hd]
  rfl

theorem readQuoted_of_closed {q c : Char} {s r : List Char} (h : dropUntil (· == q) s = c :: r) :
    readQuoted q s =
      ⟨unescape (takeUntil (· == q) s), q :: (takeUntil (· == q) s ++ [c]), r⟩ := by
  rw [readQuoted]
  split
  · next hn => exact absurd (hn.symm.trans h) (by simp)
  · next hn =>
    obtain ⟨rfl, rfl⟩ := List.cons.inj (hn.symm.trans h)
    rfl

theorem readQuoted_of_open {q : Char} {s : List Char} (h : dropUntil (· == q) s = []) :
    readQuoted q s = ⟨unescape s, q :: s, []⟩ := by
  rw [readQuoted]
  split
  · rw [takeUntil_eq_self h]
  · next hn => exact absurd (hn.symm.trans h) (by simp)

/-- Quoted text is closed by its quote, or it is left open and goes on up to the end. -/
theorem readQuoted_cases (q : Char) (s : List Char) :
    (dropUntil (· == q) s = [] ∧ readQuoted q s = ⟨unescape s, q :: s, []⟩) ∨
      ∃ r, dropUntil (· == q) s = q :: r ∧ readQuoted q s =
        ⟨unescape (takeUntil (· == q) s), q :: (takeUntil (· == q) s ++ [q]), r⟩ := by
  cases hd : dropUntil (· == q) s with
  | nil => exact Or.inl ⟨rfl, readQuoted_of_open hd⟩
  | cons c r =>
    obtain rfl : c = q := beq_iff_eq.1 (head?_dropUntil s c (by rw [hd]; rfl))
    exact Or.inr ⟨r, rfl, readQuoted_of_closed hd⟩

theorem readValue_quoted {q : Char} (hq : isQuote q = true) (r : List Char) :
    readValue (q :: r) = readQuoted q r := by
  rw [readValue, if_pos hq]

theorem readValue_bare {c : Char} (hc : isQuote c = false) (r : List Char) :
    readValue (c :: r) = readBare (c :: r) := by
  rw [readValue, if_neg (by simp [hc])]

theorem readValue_eq_readBare {s : List Char} (hs : ∀ c ∈ s.head?, isQuote c = false) :
    readValue s = readBare s := by
  cases s with
  | nil => rfl
  | cons c r => exact readValue_bare (hs c rfl) r

/-- A value is quoted or bare. -/
theorem quoted_or_bare (s : List Char) :
    (∃ q r, s = q :: r ∧ isQuote q = true) ∨ ∀ c ∈ s.head?, isQuote c = false := by
  cases s with
  | nil => exact Or.inr (by simp)
  | cons c r =>
    cases hc : isQuote c with
    | true => exact Or.inl ⟨c, r, rfl, hc⟩
    | false =>
      refine Or.inr fun d hd => ?_
      obtain rfl : c = d := by simpa using hd
      exact hc

theorem isQuote_backslash : isQuote '\\' = false := by decide

theorem beq_backslash_of_isQuote {q : Char} (hq : isQuote q = true) : ('\\' == q) = false := by
  rw [beq_eq_false_iff_ne]
  intro h
  rw [← h, isQuote_backslash] at hq
  exact absurd hq (by decide)

/-- A blank behind quoted text is part of it until the quote is closed. -/
theorem readQuoted_append_blank {q c : Char} (hq : isQuote q = true) (hc : isBlank c = true)
    (s : List Char) :
    StopsAt (readQuoted q) s c ∨
      ((readQuoted q s).rest = [] ∧ (readQuoted q (s ++ [c])).meaning ≠ [] ∧
        (readQuoted q (s ++ [c])).rest = []) := by
  have hback := beq_backslash_of_isQuote hq
  cases hd : dropUntil (· == q) s with
  | cons y u =>
    left
    intro t
    have hstopped := takeUntil_append_of_stopped hback (by rw [hd]; simp) (c :: t)
    rw [hd, List.cons_append] at hstopped
    rw [readQuoted_of_closed hstopped.2, readQuoted_of_closed hd, hstopped.1]
  | nil =>
    right
    have hcq : (c == q) = false := by
      rw [beq_eq_false_iff_ne]
      intro h
      rw [← h, isQuote_of_isBlank hc] at hq
      exact absurd hq (by decide)
    have hopen : dropUntil (· == q) (s ++ [c]) = [] := by
      cases he : escapesNext s with
      | true => exact (takeUntil_append_of_escaping hback hd he c []).2
      | false =>
        rw [(takeUntil_append_of_running hd he [c]).2,
          dropUntil_cons (ne_of_isBlank hc isBlank_backslash), hcq]
        rfl
    rw [readQuoted_of_open hd, readQuoted_of_open hopen]
    refine ⟨rfl, ?_, rfl⟩
    rw [Ne, unescape_eq_nil_iff]
    simp

/-- A blank ends a bare value unless it is escaped. -/
theorem readBare_append_blank {c : Char} (hc : isBlank c = true) (s : List Char) :
    StopsAt readBare s c ∨
      ((readBare s).rest = [] ∧ (readBare (s ++ [c])).meaning ≠ [] ∧
        (readBare (s ++ [c])).rest = []) := by
  have hne := ne_of_isBlank hc isBlank_backslash
  by_cases hd : dropUntil isBlank s = []
  · cases he : escapesNext s with
    | true =>
      right
      obtain ⟨ht, hr⟩ := takeUntil_append_of_escaping isBlank_backslash hd he c []
      rw [readBare, readBare, ht, hr]
      refine ⟨hd, ?_, rfl⟩
      rw [Ne, unescape_eq_nil_iff]
      simp
    | false =>
      left
      intro t
      obtain ⟨ht, hr⟩ := takeUntil_append_of_running hd he (c :: t)
      rw [takeUntil_cons hne, if_pos hc, List.append_nil] at ht
      rw [dropUntil_cons hne, if_pos hc] at hr
      rw [readBare, readBare, ht, hr, takeUntil_eq_self hd, hd]
      rfl
  · left
    intro t
    obtain ⟨ht, hr⟩ := takeUntil_append_of_stopped isBlank_backslash hd (c :: t)
    rw [readBare, readBare, ht, hr]

/-- White space behind a text ends the value there, or the value takes it in: it is then escaped, or
within quotes that are still open. -/
theorem readValue_append_blank {c : Char} (hc : isBlank c = true) (s : List Char) :
    StopsAt readValue s c ∨
      ((readValue s).rest = [] ∧ (readValue (s ++ [c])).meaning ≠ [] ∧
        (readValue (s ++ [c])).rest = []) := by
  cases s with
  | nil =>
    left
    intro t
    have hne := ne_of_isBlank hc isBlank_backslash
    rw [List.nil_append, readValue_bare (isQuote_of_isBlank hc), readBare, takeUntil_cons hne,
      dropUntil_cons hne, if_pos hc, if_pos hc]
    rfl
  | cons x r =>
    cases hx : isQuote x with
    | true =>
      simp only [StopsAt, List.cons_append, readValue_quoted hx]
      exact readQuoted_append_blank hx hc r
    | false =>
      simp only [StopsAt, List.cons_append, readValue_bare hx]
      exact readBare_append_blank hc (x :: r)

/-! ## One step -/

/-- A text begins with as many key characters as it can. -/
theorem exists_key (s : List Char) : ∃ key r, s = key ++ r ∧ (∀ c ∈ key, isKeyChar c = true) ∧
    ∀ c ∈ r.head?, isKeyChar c = false := by
  refine ⟨s.takeWhile isKeyChar, s.dropWhile isKeyChar,
    (List.takeWhile_append_dropWhile ..).symm, ?_, ?_⟩
  · exact List.all_eq_true.1 List.all_takeWhile
  · intro c hc
    have h := List.head?_dropWhile_not isKeyChar s
    rw [Option.mem_def.1 hc] at h
    simpa using h

/-- The clause that a key, an operator and a value make, if the value is not empty. -/
def clause? (key : List Char) (op : Operator) (value : List Char) : Option Clause :=
  if value.isEmpty then none else some ⟨key, op, value⟩

theorem clause?_of_ne_nil {key value : List Char} {op : Operator} (h : value ≠ []) :
    clause? key op value = some ⟨key, op, value⟩ := by
  rw [clause?, if_neg (by simpa using h)]

/-- A step that finds no key passes over a word. -/
theorem step_word {s : List Char} (hs : ∀ c ∈ s.head?, isKeyChar c = false) :
    step s = readWord s := by
  obtain ⟨hk, -⟩ := takeWhile_append_stop (p := isKeyChar) (k := []) (by simp) hs
  rw [List.nil_append] at hk
  unfold step
  simp only [hk]

/-- What a step does behind a key. -/
theorem step_key {key r : List Char} (hne : key ≠ []) (hk : ∀ c ∈ key, isKeyChar c = true)
    (hr : ∀ c ∈ r.head?, isKeyChar c = false) :
    step (key ++ r) = match readOperator? r with
      | none => ⟨none, key ++ (readWord r).text, (readWord r).rest⟩
      | some op =>
        let value := readValue op.rest
        ⟨clause? key op.meaning value.meaning, key ++ op.text ++ value.text, value.rest⟩ := by
  obtain ⟨ht, hd⟩ := takeWhile_append_stop hk hr
  unfold step
  simp only [ht, hd]
  cases key with
  | nil => exact absurd rfl hne
  | cons c k => cases readOperator? r <;> rfl

/-- White space behind a text ends the step there, or the step takes it in and finds a token. -/
theorem step_append_blank {c : Char} (hc : isBlank c = true) (s : List Char) :
    StopsAt step s c ∨ ((step s).rest = [] ∧ ∃ w, step (s ++ [c]) = ⟨some w, s ++ [c], []⟩) := by
  obtain ⟨key, r, rfl, hk, hr⟩ := exists_key s
  have hblank : ∀ t, ∀ d ∈ (r ++ c :: t).head?, isKeyChar d = false := fun t =>
    head?_append_false hr (by simpa using isKeyChar_of_isBlank hc)
  by_cases hne : key = []
  · subst hne
    left
    intro t
    rw [List.nil_append, step_word hr, step_word (hblank t)]
    exact readWord_stopsAt hc r t
  · have hstep := fun t => step_key hne hk (hblank t)
    simp only [readOperator?_append_blank hc] at hstep
    have hstep₀ := step_key hne hk hr
    cases hop : readOperator? r with
    | none =>
      left
      intro t
      simp only [hop, Option.map_none] at hstep hstep₀
      rw [List.append_assoc, hstep, hstep₀, readWord_stopsAt hc r t]
    | some op =>
      simp only [hop, Option.map_some] at hstep hstep₀
      rcases readValue_append_blank hc op.rest with hv | ⟨hv₀, hm, hv⟩
      · left
        intro t
        rw [List.append_assoc, hstep, hstep₀, hv t]
      · right
        rw [List.append_assoc, hstep, hstep₀, clause?_of_ne_nil hm, hv]
        refine ⟨hv₀, ⟨key, op.meaning, (readValue (op.rest ++ [c])).meaning⟩, ?_⟩
        have htext := readValue_append (op.rest ++ [c])
        rw [hv, List.append_nil] at htext
        rw [htext, List.append_assoc, ← List.append_assoc op.text, readOperator?_append hop]

/-- What a step does: it passes over a word, or it reads a key, an operator and a value. -/
theorem step_cases (s : List Char) :
    (∃ key r, s = key ++ r ∧ step s = ⟨none, key ++ (readWord r).text, (readWord r).rest⟩) ∨
      ∃ key op, key ≠ [] ∧ (∀ c ∈ key, isKeyChar c = true) ∧
        readOperator? (op.text ++ op.rest) = some op ∧ s = key ++ (op.text ++ op.rest) ∧
          step s = ⟨clause? key op.meaning (readValue op.rest).meaning,
            key ++ op.text ++ (readValue op.rest).text, (readValue op.rest).rest⟩ := by
  obtain ⟨key, r, rfl, hk, hr⟩ := exists_key s
  by_cases hne : key = []
  · subst hne
    exact Or.inl ⟨[], r, rfl, by rw [List.nil_append, step_word hr]; rfl⟩
  · have hstep := step_key hne hk hr
    cases hop : readOperator? r with
    | none =>
      simp only [hop] at hstep
      exact Or.inl ⟨key, r, rfl, hstep⟩
    | some op =>
      simp only [hop] at hstep
      have happ := readOperator?_append hop
      exact Or.inr ⟨key, op, hne, hk, by rw [happ, hop], by rw [happ], hstep⟩

/-- What a step that finds a token reads: a key, an operator and a value. -/
structure Finds (s : List Char) (w : Clause) (op : Lexeme Operator) : Prop where
  key_ne : w.key ≠ []
  isKeyChar_key : ∀ c ∈ w.key, isKeyChar c = true
  operator : readOperator? (op.text ++ op.rest) = some op
  operator_eq : w.operator = op.meaning
  value_eq : w.value = (readValue op.rest).meaning
  value_ne : w.value ≠ []
  text_eq : (step s).text = w.key ++ op.text ++ (readValue op.rest).text
  rest_eq : (step s).rest = (readValue op.rest).rest

theorem exists_finds {s : List Char} {w : Clause} (h : (step s).meaning = some w) :
    ∃ op, Finds s w op := by
  rcases step_cases s with ⟨key, r, -, hstep⟩ | ⟨key, op, hne, hk, hop, -, hstep⟩
  · rw [hstep] at h
    exact absurd h (by simp)
  · rw [hstep] at h
    simp only [clause?, Option.ite_none_left_eq_some, Option.some.injEq, List.isEmpty_iff] at h
    obtain ⟨hv, rfl⟩ := h
    exact ⟨op, hne, hk, hop, rfl, rfl, hv, by rw [hstep], by rw [hstep]⟩

theorem Finds.append {s : List Char} {w : Clause} {op : Lexeme Operator} (h : Finds s w op) :
    w.key ++ op.text ++ op.rest = s := by
  rw [← step_text_append_rest s, h.text_eq, h.rest_eq, List.append_assoc _ _ (readValue _).rest,
    readValue_append]

/-- In a text that has no quotes the value ends at white space. -/
theorem Finds.bare {s : List Char} {w : Clause} {op : Lexeme Operator} (h : Finds s w op)
    (hs : ∀ c ∈ s, isQuote c = false) :
    (step s).text = w.key ++ op.text ++ takeUntil isBlank op.rest ∧
      (step s).rest = dropUntil isBlank op.rest := by
  have hrest : ∀ c ∈ op.rest.head?, isQuote c = false := by
    intro c hc
    exact hs c (h.append ▸ List.mem_append_right _ (List.mem_of_mem_head? hc))
  rw [h.text_eq, h.rest_eq, readValue_eq_readBare hrest]
  exact ⟨rfl, rfl⟩

/-- Before the value of a token there are neither blanks nor backslashes. -/
theorem Finds.plain {s : List Char} {w : Clause} {op : Lexeme Operator} (h : Finds s w op) :
    ∀ c ∈ w.key ++ op.text, isBlank c = false ∧ c ≠ '\\' := by
  intro c hc
  rcases List.mem_append.1 hc with hc | hc
  · have hkey := h.isKeyChar_key c hc
    simp only [isKeyChar, Bool.not_eq_true', Bool.or_eq_false_iff, beq_eq_false_iff_ne] at hkey
    obtain ⟨⟨⟨⟨hblank, -⟩, -⟩, -⟩, hback⟩ := hkey
    exact ⟨hblank, hback⟩
  · rcases mem_text_of_readOperator? h.operator c hc with rfl | hcomp
    · decide
    · exact Operator.plain_of_beginsComparison hcomp

/-- White space ends what a step reads of a text that has no quotes. -/
theorem endsWord_readValue {s : List Char} (hs : ∀ c ∈ s, isQuote c = false) :
    EndsWord (readValue s).rest := by
  rw [readValue_eq_readBare fun c hc => hs c (List.mem_of_mem_head? hc)]
  exact endsWord_dropUntil s

theorem endsWord_step {s : List Char} (hs : ∀ c ∈ s, isQuote c = false) :
    EndsWord (step s).rest := by
  rcases step_cases s with ⟨key, r, -, hstep⟩ | ⟨key, op, -, -, -, rfl, hstep⟩
  · rw [hstep]
    exact endsWord_dropWhile r
  · rw [hstep]
    refine endsWord_readValue fun c hc => hs c ?_
    exact List.mem_append_right _ (List.mem_append_right _ hc)

/-! ## All steps -/

/-- The token of a clause which stands between two bytes. -/
def Clause.token (w : Clause) (start stop : Nat) : Token :=
  ⟨String.ofList w.key, w.operator, String.ofList w.value, ⟨start, stop⟩⟩

/-- The token that a step finds, if any, at byte `start`. -/
def Lexeme.tokens (l : Lexeme (Option Clause)) (start : Nat) : List Token :=
  match l.meaning with
  | none => []
  | some w => [w.token start (start + byteLength l.text)]

theorem Lexeme.mem_tokens_iff {l : Lexeme (Option Clause)} {n : Nat} {t : Token} :
    t ∈ l.tokens n ↔ ∃ w, l.meaning = some w ∧ t = w.token n (n + byteLength l.text) := by
  unfold Lexeme.tokens
  cases l.meaning with
  | none => simp
  | some w => simp

@[simp] theorem tokensFrom_nil (n : Nat) : tokensFrom n [] = [] := by
  rw [tokensFrom.eq_def]

theorem tokensFrom_blank {c : Char} (hc : isBlank c = true) (n : Nat) (r : List Char) :
    tokensFrom n (c :: r) = tokensFrom (n + c.utf8Size) r := by
  rw [tokensFrom.eq_def]
  exact if_pos hc

theorem tokensFrom_word {c : Char} (hc : isBlank c = false) (n : Nat) (r : List Char) :
    tokensFrom n (c :: r) = (step (c :: r)).tokens n ++
      tokensFrom (n + byteLength (step (c :: r)).text) (step (c :: r)).rest := by
  rw [tokensFrom.eq_def]
  simp only [hc, Bool.false_eq_true, if_false]
  cases h : (step (c :: r)).meaning with
  | none => simp [Lexeme.tokens, h]
  | some w => simp [Lexeme.tokens, h, Clause.token]

/-- What white space and each step of the reader hand on, from what follows to what is read. -/
@[elab_as_elim] theorem readerInduction {motive : Nat → List Char → Prop}
    (nil : ∀ n, motive n [])
    (blank : ∀ n c r, isBlank c = true → motive (n + c.utf8Size) r → motive n (c :: r))
    (word : ∀ n c r, isBlank c = false →
      motive (n + byteLength (step (c :: r)).text) (step (c :: r)).rest → motive n (c :: r))
    (n : Nat) (s : List Char) : motive n s := by
  induction hs : s.length using Nat.strongRecOn generalizing n s with
  | ind m ih =>
    cases s with
    | nil => exact nil n
    | cons c r =>
      cases hc : isBlank c with
      | true => exact blank n c r hc (ih r.length (by rw [← hs]; simp) _ r rfl)
      | false => exact word n c r hc (ih _ (by rw [← hs]; exact length_rest_step_lt hc) _ _ rfl)

/-- A token whose span begins `n` bytes later. -/
def Token.shift (n : Nat) (t : Token) : Token :=
  { t with span := ⟨n + t.span.start, n + t.span.stop⟩ }

/-- Where a text begins matters only for the places of its tokens. -/
theorem tokensFrom_add (n m : Nat) (s : List Char) :
    tokensFrom (n + m) s = (tokensFrom m s).map (Token.shift n) := by
  induction m, s using readerInduction with
  | nil m => simp
  | blank m c r hc ih => rw [tokensFrom_blank hc, tokensFrom_blank hc, Nat.add_assoc, ih]
  | word m c r hc ih =>
    rw [tokensFrom_word hc, tokensFrom_word hc, List.map_append, Nat.add_assoc, ih]
    congr 1
    unfold Lexeme.tokens
    cases (step (c :: r)).meaning with
    | none => rfl
    | some w => simp [Clause.token, Token.shift, Nat.add_assoc]

/-- No token begins before the text. -/
theorem le_start_of_mem {n : Nat} {s : List Char} {t : Token} (h : t ∈ tokensFrom n s) :
    n ≤ t.span.start := by
  rw [← Nat.add_zero n, tokensFrom_add, List.mem_map] at h
  obtain ⟨u, -, rfl⟩ := h
  exact Nat.le_add_right ..

end RowQuery.Query
