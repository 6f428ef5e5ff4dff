import RowQuery.Proofs.Query.Spans

/-!
# Typing behind a text

Whatever is typed behind a text, the tokens that end before its end stay as they are.

* `step_append_of_ne_nil`: a step that ends inside a text is the same in front of more text.
* `byteLength_le_step_append`: a step that goes up to the end of a text goes at least so far then.
* `endedBefore_tokensFrom_append`: both, carried through all steps of the reader.
* `parse_append_endedBefore`: the same for whole texts.
-/

namespace RowQuery.Query

open Text

/-- A step that ends inside a text has seen all that it looks at. -/
theorem step_append_of_ne_nil {s : List Char} (h : (step s).rest ≠ []) (t : List Char) :
    step (s ++ t) = { step s with rest := (step s).rest ++ t } := by
  obtain ⟨c, r, hrest⟩ := List.exists_cons_of_ne_nil h
  have hlocal := step_isLocal s ((step s).rest ++ t) (by rw [hrest]; exact .cons ..)
  rwa [← List.append_assoc, step_text_append_rest] at hlocal

/-- A step that goes up to the end of a text does not stop earlier because of what comes behind. -/
theorem byteLength_le_step_append {s : List Char} (h : (step s).rest = []) (t : List Char) :
    byteLength s ≤ byteLength (step (s ++ t)).text := by
  rcases List.append_eq_append_iff.1 (step_text_append_rest (s ++ t)) with
    ⟨y, hs, hrest⟩ | ⟨y, htext, -⟩
  · cases y with
    | nil =>
      rw [List.append_nil] at hs
      exact Nat.le_of_eq (congrArg byteLength hs)
    | cons c y =>
      -- it would have stopped there without `t`, too
      have hlocal := step_isLocal (s ++ t) (c :: y) (by rw [hrest]; exact .cons ..)
      rw [← hs] at hlocal
      rw [hlocal] at h
      exact absurd h (List.cons_ne_nil _ _)
  · rw [htext, byteLength_append]
    omega

/-- The tokens that end before byte `n`. -/
def endedBefore (n : Nat) (ts : List Token) : List Token :=
  ts.filter fun t => t.span.stop < n

theorem endedBefore_append (n : Nat) (ts us : List Token) :
    endedBefore n (ts ++ us) = endedBefore n ts ++ endedBefore n us :=
  List.filter_append ..

theorem endedBefore_eq_nil {n : Nat} {ts : List Token} (h : ∀ t ∈ ts, n ≤ t.span.stop) :
    endedBefore n ts = [] := by
  refine List.filter_eq_nil_iff.2 fun t ht => ?_
  have hle := h t ht
  simp only [decide_eq_true_eq]
  omega

/-- What is read from byte `n` on does not end before byte `n`. -/
theorem endedBefore_tokensFrom {m n : Nat} (h : m ≤ n) (s : List Char) :
    endedBefore m (tokensFrom n s) = [] := by
  refine endedBefore_eq_nil fun t ht => ?_
  have hstart := le_start_of_mem ht
  have hlt := start_lt_stop_of_mem ht
  omega

/-- What a step finds that goes up to byte `m` does not end before byte `m`. -/
theorem endedBefore_tokens {l : Lexeme (Option Clause)} {m n : Nat}
    (h : m ≤ n + byteLength l.text) : endedBefore m (l.tokens n) = [] := by
  refine endedBefore_eq_nil fun t ht => ?_
  obtain ⟨w, -, rfl⟩ := Lexeme.mem_tokens_iff.1 ht
  exact h

theorem endedBefore_tokensFrom_append (n : Nat) (s t : List Char) :
    endedBefore (n + byteLength s) (tokensFrom n (s ++ t)) =
      endedBefore (n + byteLength s) (tokensFrom n s) := by
  induction n, s using readerInduction with
  | nil n =>
    have hle : n + byteLength [] ≤ n := Nat.le_refl n
    rw [endedBefore_tokensFrom hle, endedBefore_tokensFrom hle]
  | blank n c r hc ih =>
    rw [List.cons_append, tokensFrom_blank hc, tokensFrom_blank hc, byteLength_cons,
      ← Nat.add_assoc, ih]
  | word n c r hc ih =>
    rw [List.cons_append, tokensFrom_word hc, tokensFrom_word hc, ← List.cons_append]
    have hlen := congrArg byteLength (step_text_append_rest (c :: r))
    rw [byteLength_append] at hlen
    by_cases hrest : (step (c :: r)).rest = []
    · -- here and with `t` behind it, what the step finds reaches up to the end of the text
      have hle := byteLength_le_step_append hrest t
      rw [hrest, byteLength_nil] at hlen
      rw [endedBefore_append, endedBefore_append, endedBefore_tokens (by omega),
        endedBefore_tokens (by omega), endedBefore_tokensFrom (by omega),
        endedBefore_tokensFrom (by omega)]
    · have hsum : n + byteLength (c :: r) =
          n + byteLength (step (c :: r)).text + byteLength (step (c :: r)).rest := by omega
      rw [step_append_of_ne_nil hrest, endedBefore_append, endedBefore_append, hsum]
      exact congrArg _ ih

/-- **Typing at the end leaves the finished tokens alone.**  Whatever state the reader is in at the
end of `a`, what comes behind changes none of the tokens that end before that, and adds none. -/
theorem parse_append_endedBefore (a b : String) :
    endedBefore a.utf8ByteSize (parse (a ++ b)) = endedBefore a.utf8ByteSize (parse a) := by
  have h := endedBefore_tokensFrom_append 0 a.toList b.toList
  rwa [Nat.zero_add, byteLength_toList, ← String.toList_append] at h

/-- A quote left open swallows what is typed behind it, but not the token before it. -/
example : endedBefore 6 (parse ("a:1 b:" ++ "\"x y:2")) = [⟨"a", .contains, "1", ⟨0, 3⟩⟩] := by
  decide +kernel

end RowQuery.Query
