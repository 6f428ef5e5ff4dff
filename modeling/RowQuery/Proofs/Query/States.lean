import RowQuery.Proofs.Query.Reader

/-!
# The states of the reader

`Reads s ts lead rest`: in reading `s` the reader comes to a state in which it has found the tokens
`ts` in the part `lead`, and `rest` is still to be read.  What holds in the first state and is kept
by white space and by each step holds in all of them.

* `Reads.append`, `Reads.mem`, `Reads.tokens`, `Reads.stop_le`: what has been read and what has not.
* `Reads.exists_of_eq_append`, `Reads.exists_of_mem`: each token is found by a step from some state.
* `Reads.not_contains`: where a step finds no token, none is.
-/

namespace RowQuery.Query

open Text

/-- Whether byte `n` lies in a range. -/
def Span.Contains (p : Span) (n : Nat) : Prop :=
  p.start ≤ n ∧ n < p.stop

instance (p : Span) (n : Nat) : Decidable (p.Contains n) :=
  inferInstanceAs (Decidable (_ ∧ _))

inductive Reads (s : List Char) : List Token → List Char → List Char → Prop
  | start : Reads s [] [] s
  | blank {ts : List Token} {lead r : List Char} {c : Char} :
      Reads s ts lead (c :: r) → isBlank c = true → Reads s ts (lead ++ [c]) r
  | word {ts : List Token} {lead r : List Char} {c : Char} :
      Reads s ts lead (c :: r) → isBlank c = false →
        Reads s (ts ++ (step (c :: r)).tokens (byteLength lead)) (lead ++ (step (c :: r)).text)
          (step (c :: r)).rest

namespace Reads

variable {s lead rest : List Char} {ts : List Token}

theorem append (h : Reads s ts lead rest) : lead ++ rest = s := by
  induction h with
  | start => rfl
  | blank _ _ ih => rw [List.append_assoc]; exact ih
  | word _ _ ih => rw [List.append_assoc, step_text_append_rest]; exact ih

theorem mem (h : Reads s ts lead rest) {c : Char} (hc : c ∈ rest) : c ∈ s :=
  h.append ▸ List.mem_append_right lead hc

/-- The tokens that have been found come before those that will be. -/
theorem tokens (h : Reads s ts lead rest) :
    tokensFrom 0 s = ts ++ tokensFrom (byteLength lead) rest := by
  induction h with
  | start => rfl
  | blank _ hc ih =>
    rw [ih, tokensFrom_blank hc, byteLength_append, byteLength_cons, byteLength_nil, Nat.add_zero]
  | word _ hc ih => rw [ih, tokensFrom_word hc, byteLength_append, List.append_assoc]

theorem stop_le (h : Reads s ts lead rest) : ∀ t ∈ ts, t.span.stop ≤ byteLength lead := by
  induction h with
  | start =>
    intro t ht
    exact absurd ht (by simp)
  | blank _ _ ih =>
    intro t ht
    have hle := ih t ht
    rw [byteLength_append]
    omega
  | @word ts lead r c _ _ ih =>
    intro t ht
    rw [byteLength_append]
    rcases List.mem_append.1 ht with ht | ht
    · have hle := ih t ht
      omega
    · obtain ⟨w, -, rfl⟩ := Lexeme.mem_tokens_iff.1 ht
      exact Nat.le_refl _

/-- Each token is found by a step from a state in which the tokens before it have been found. -/
theorem exists_of_eq_append {t : Token} {us : List Token} (ht : tokensFrom 0 s = ts ++ t :: us) :
    ∃ lead c r w, Reads s ts lead (c :: r) ∧ isBlank c = false ∧
      (step (c :: r)).meaning = some w ∧
        t = w.token (byteLength lead) (byteLength lead + byteLength (step (c :: r)).text) := by
  have hall : ∀ n rest, ∀ found lead ts, Reads s found lead rest → n = byteLength lead →
      tokensFrom n rest = ts ++ t :: us →
        ∃ lead c r w, Reads s (found ++ ts) lead (c :: r) ∧ isBlank c = false ∧
          (step (c :: r)).meaning = some w ∧
            t = w.token (byteLength lead) (byteLength lead + byteLength (step (c :: r)).text) := by
    intro n rest
    induction n, rest using readerInduction with
    | nil n =>
      intro found lead ts _ _ ht
      rw [tokensFrom_nil] at ht
      exact absurd ht.symm (by simp)
    | blank n c r hc ih =>
      intro found lead ts h hn ht
      rw [tokensFrom_blank hc] at ht
      exact ih found (lead ++ [c]) ts (h.blank hc) (by simp [hn]) ht
    | word n c r hc ih =>
      intro found lead ts h hn ht
      have hnext := h.word hc
      have hn' : n + byteLength (step (c :: r)).text =
          byteLength (lead ++ (step (c :: r)).text) := by rw [byteLength_append, hn]
      rw [tokensFrom_word hc] at ht
      cases hm : (step (c :: r)).meaning with
      | none =>
        simp only [Lexeme.tokens, hm, List.nil_append, List.append_nil] at ht hnext
        exact ih found _ ts hnext hn' ht
      | some w =>
        simp only [Lexeme.tokens, hm, List.singleton_append] at ht hnext
        cases ts with
        | nil =>
          obtain ⟨rfl, -⟩ := List.cons.inj ht
          exact ⟨lead, c, r, w, by rwa [List.append_nil], hc, hm, by rw [hn]⟩
        | cons u ts =>
          obtain ⟨rfl, hlater⟩ := List.cons.inj ht
          have hfound := ih _ _ ts hnext hn' hlater
          rwa [List.append_assoc, List.singleton_append, ← hn] at hfound
  exact hall 0 s [] [] ts .start rfl ht

/-- Each token is found by a step from some state. -/
theorem exists_of_mem {t : Token} (ht : t ∈ tokensFrom 0 s) :
    ∃ ts lead c r w, Reads s ts lead (c :: r) ∧ isBlank c = false ∧
      (step (c :: r)).meaning = some w ∧
        t = w.token (byteLength lead) (byteLength lead + byteLength (step (c :: r)).text) := by
  obtain ⟨ts, us, hsplit⟩ := List.append_of_mem ht
  exact ⟨ts, exists_of_eq_append hsplit⟩

/-- The bytes that a step passes over without finding a token are in no token. -/
theorem not_contains {c : Char} {r : List Char} (h : Reads s ts lead (c :: r))
    (hc : isBlank c = false) (hm : (step (c :: r)).meaning = none) {n : Nat}
    (hlo : byteLength lead ≤ n) (hhi : n < byteLength lead + byteLength (step (c :: r)).text) :
    ∀ u ∈ tokensFrom 0 s, ¬ u.span.Contains n := by
  intro u hu hn
  have hnone : (step (c :: r)).tokens (byteLength lead) = [] := by rw [Lexeme.tokens, hm]
  have hnext := (h.word hc).tokens
  rw [hnone, List.append_nil, byteLength_append] at hnext
  rw [hnext, List.mem_append] at hu
  rcases hu with hu | hu
  · have hle := h.stop_le u hu
    have hlt := hn.2
    omega
  · have hge := le_start_of_mem hu
    have hle := hn.1
    omega

end Reads

end RowQuery.Query
