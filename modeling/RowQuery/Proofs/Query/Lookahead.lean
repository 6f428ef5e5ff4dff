import RowQuery.Proofs.Query.Reader

/-!
# How far the reader looks ahead

What a step reads is settled by its own text and the character right behind it.

* `SameNext t r`: seen from before it, `t` looks like `r`, or ends the text.
* `IsLocal read s`: what `read` finds at the start of `s` it finds again in front of each text that
  looks like what followed.
* `readWord_isLocal`, `readValue_isLocal`, `readOperator?_local`: the parts of a step.
* `step_isLocal`: a whole step, and `step_text`: what it has read, read on its own.
-/

namespace RowQuery.Query

open Text

/-- Seen from before it, `t` looks like `r`: it is empty or begins with the same character. -/
def SameNext (t r : List Char) : Prop :=
  t = [] ∨ t.head? = r.head?

namespace SameNext

variable {t r : List Char}

theorem cons (c : Char) (t r : List Char) : SameNext (c :: t) (c :: r) := Or.inr rfl

theorem nil (r : List Char) : SameNext [] r := Or.inl rfl

theorem eq_nil (h : SameNext t []) : t = [] := by
  rcases h with h | h
  · exact h
  · exact List.head?_eq_none_iff.1 h

/-- What holds of the first character of `r` holds of that of `t`. -/
theorem head? {p : Char → Prop} (h : SameNext t r) (hr : ∀ c ∈ r.head?, p c) :
    ∀ c ∈ t.head?, p c := by
  intro c hc
  rcases h with rfl | h
  · exact absurd hc (by simp)
  · exact hr c (h ▸ hc)

theorem append (h : SameNext t r) (s : List Char) : SameNext (s ++ t) (s ++ r) := by
  cases s with
  | nil => exact h
  | cons c s => exact cons c (s ++ t) (s ++ r)

end SameNext

/-- What `read` finds at the start of `s` it finds in the same characters wherever what follows
looks like what follows in `s`. -/
def IsLocal {α : Type} (read : List Char → Lexeme α) (s : List Char) : Prop :=
  ∀ t, SameNext t (read s).rest → read ((read s).text ++ t) = { read s with rest := t }

/-! ## The parts of a step -/

theorem readWord_append (s : List Char) : (readWord s).text ++ (readWord s).rest = s :=
  List.takeWhile_append_dropWhile ..

theorem readWord_isLocal (s : List Char) : IsLocal readWord s := by
  intro t ht
  have hall : ∀ c ∈ (readWord s).text, (!isBlank c) = true :=
    List.all_eq_true.1 List.all_takeWhile
  have hend : EndsWord t := ht.head? (endsWord_dropWhile s)
  obtain ⟨htake, hdrop⟩ := takeWhile_append_stop (p := fun c => !isBlank c) hall
    (fun c hc => by simp [hend c hc])
  rw [readWord, htake, hdrop]
  rfl

/-- A run is read again where its end is the end of the text or a stopping character. -/
theorem takeUntil_append_local {stop : Char → Bool} (hstop : stop '\\' = false) {s t : List Char}
    (ht : SameNext t (dropUntil stop s)) :
    takeUntil stop (takeUntil stop s ++ t) = takeUntil stop s ∧
      dropUntil stop (takeUntil stop s ++ t) = t := by
  have hrun : dropUntil stop (takeUntil stop s) = [] := dropUntil_takeUntil s
  cases he : escapesNext (takeUntil stop s) with
  | true =>
    -- the run ends on a backslash, so at the end of the text
    rw [dropUntil_eq_nil_of_escapesNext hstop he] at ht
    rw [ht.eq_nil, List.append_nil]
    exact ⟨takeUntil_eq_self hrun, hrun⟩
  | false =>
    obtain ⟨htake, hdrop⟩ := takeUntil_append_of_running hrun he t
    rw [htake, hdrop]
    cases t with
    | nil => exact ⟨List.append_nil _, rfl⟩
    | cons c t =>
      have hc : stop c = true := ht.head? (head?_dropUntil s) c rfl
      have hne : c ≠ '\\' := by
        intro h
        rw [h, hstop] at hc
        exact absurd hc (by decide)
      rw [takeUntil_cons hne, dropUntil_cons hne, if_pos hc, if_pos hc]
      exact ⟨List.append_nil _, rfl⟩

theorem readBare_isLocal (s : List Char) : IsLocal readBare s := by
  intro t ht
  obtain ⟨htake, hdrop⟩ := takeUntil_append_local isBlank_backslash ht
  show readBare (takeUntil isBlank s ++ t) = _
  rw [readBare, htake, hdrop]
  rfl

theorem readValue_quoted_isLocal {q : Char} (hq : isQuote q = true) (r : List Char) :
    IsLocal readValue (q :: r) := by
  intro t ht
  rw [readValue_quoted hq] at ht ⊢
  rcases readQuoted_cases q r with ⟨-, hread⟩ | ⟨u, hd, hread⟩
  · rw [hread] at ht ⊢
    rw [ht.eq_nil, List.append_nil]
    exact (readValue_quoted hq r).trans hread
  · have hsame : SameNext (q :: t) (dropUntil (· == q) r) := by
      rw [hd]
      exact .cons q t u
    obtain ⟨htake, hdrop⟩ := takeUntil_append_local (beq_backslash_of_isQuote hq :) hsame
    rw [hread]
    show readValue (q :: (takeUntil (· == q) r ++ [q] ++ t)) = _
    rw [List.append_assoc, List.singleton_append, readValue_quoted hq, readQuoted_of_closed hdrop,
      htake]

theorem readValue_isLocal (s : List Char) : IsLocal readValue s := by
  cases s with
  | nil =>
    intro t ht
    rw [SameNext.eq_nil ht]
    rfl
  | cons c r =>
    cases hc : isQuote c with
    | true => exact readValue_quoted_isLocal hc r
    | false =>
      intro t ht
      rw [readValue_bare hc] at ht ⊢
      have hhead : ∀ d ∈ ((readBare (c :: r)).text ++ t).head?, isQuote d = false := by
        refine (ht.append (readBare (c :: r)).text).head? ?_
        rw [show (readBare (c :: r)).text ++ (readBare (c :: r)).rest = c :: r from
          takeUntil_append_dropUntil isBlank (c :: r)]
        intro d hd
        obtain rfl : c = d := by simpa using hd
        exact hc
      rw [readValue_eq_readBare hhead]
      exact readBare_isLocal (c :: r) t ht

/-- No operator is found again in front of the rest of the word. -/
theorem readOperator?_none_local {s t : List Char} (hs : readOperator? s = none)
    (ht : SameNext t (readWord s).rest) : readOperator? ((readWord s).text ++ t) = none := by
  have hend : EndsWord (readWord s).rest := endsWord_dropWhile s
  rw [← readWord_append s, readOperator?_append_of_ends (endsOperator_of_endsWord hend),
    Option.map_eq_none_iff] at hs
  rw [readOperator?_append_of_ends (endsOperator_of_endsWord (ht.head? hend)), hs]
  rfl

/-- An operator is read again behind which `u` follows as before, if no operator goes on behind
that. -/
theorem readOperator?_append_swap {op : Lexeme Operator} {u r t : List Char}
    (hop : readOperator? (op.text ++ op.rest) = some op) (hrest : op.rest = u ++ r)
    (hr : EndsOperator r) (ht : EndsOperator t) :
    readOperator? (op.text ++ (u ++ t)) = some { op with rest := u ++ t } := by
  rw [hrest, ← List.append_assoc, readOperator?_append_of_ends hr, Option.map_eq_some_iff] at hop
  obtain ⟨l, hl, rfl⟩ := hop
  have hu : l.rest = u := List.append_cancel_right hrest
  rw [← List.append_assoc, readOperator?_append_of_ends ht]
  show (readOperator? (l.text ++ u)).map _ = _
  rw [hl, Option.map_some, hu]

theorem endsOperator_quote {q : Char} (hq : isQuote q = true) (r : List Char) :
    EndsOperator (q :: r) := by
  intro c hc
  obtain rfl : q = c := by simpa using hc
  simp only [isQuote, Bool.or_eq_true, beq_iff_eq] at hq
  rcases hq with rfl | rfl <;> decide

/-- An operator is read again in front of its value. -/
theorem readOperator?_local {op : Lexeme Operator} {t : List Char}
    (hop : readOperator? (op.text ++ op.rest) = some op)
    (ht : SameNext t (readValue op.rest).rest) :
    readOperator? (op.text ++ ((readValue op.rest).text ++ t)) =
      some { op with rest := (readValue op.rest).text ++ t } := by
  have happ := readValue_append op.rest
  rcases quoted_or_bare op.rest with ⟨q, r, hrest, hq⟩ | hbare
  · -- the operator ends at the quote
    have hends : EndsOperator op.rest := by
      rw [hrest]
      exact endsOperator_quote hq r
    have hends' : EndsOperator ((readValue op.rest).text ++ t) :=
      (ht.append (readValue op.rest).text).head? (by rwa [happ])
    exact readOperator?_append_swap (u := []) hop rfl hends hends'
  · -- it may go on with a bare value, but not with the white space behind that
    have hend : EndsWord (readValue op.rest).rest := by
      rw [readValue_eq_readBare hbare]
      exact endsWord_dropUntil op.rest
    exact readOperator?_append_swap hop happ.symm (endsOperator_of_endsWord hend)
      (endsOperator_of_endsWord (ht.head? hend))

/-! ## A whole step -/

/-- **A step looks no further than one character behind what it reads.** -/
theorem step_isLocal (s : List Char) : IsLocal step s := by
  obtain ⟨key, r, rfl, hk, hr⟩ := exists_key s
  by_cases hne : key = []
  · subst hne
    rw [List.nil_append]
    intro t ht
    rw [step_word hr] at ht ⊢
    have hsame := ht.append (readWord r).text
    rw [readWord_append] at hsame
    rw [step_word (hsame.head? hr)]
    exact readWord_isLocal r t ht
  · have hstep := step_key hne hk hr
    cases hop : readOperator? r with
    | none =>
      simp only [hop] at hstep
      intro t ht
      rw [hstep] at ht ⊢
      have hsame := ht.append (readWord r).text
      rw [readWord_append] at hsame
      rw [List.append_assoc, step_key hne hk (hsame.head? hr), readOperator?_none_local hop ht]
      simp only [readWord_isLocal r t ht]
    | some op =>
      simp only [hop] at hstep
      intro t ht
      rw [hstep] at ht ⊢
      have happ := readOperator?_append hop
      have hsame := (ht.append (readValue op.rest).text).append op.text
      rw [readValue_append, happ] at hsame
      have hagain := readOperator?_local (by rw [happ, hop]) ht
      rw [List.append_assoc, List.append_assoc, step_key hne hk (hsame.head? hr), hagain]
      simp only [readValue_isLocal op.rest t ht]

/-- What a step has read is read in the same way on its own. -/
theorem step_text (s : List Char) : step (step s).text = { step s with rest := [] } := by
  have h := step_isLocal s [] (SameNext.nil _)
  rwa [List.append_nil] at h

end RowQuery.Query
