import RowQuery.Proofs.Query.Reader
import RowQuery.Proofs.Text.Bytes

/-!
# Texts one behind the other

If white space behind a text changes none of its tokens, whatever is written behind that is read on
its own.

* `tokensFrom_append_blank`: the step of `step_append_blank`, carried through all steps of the
  reader.
* `parse_append_blank_append`: the same for whole texts.
-/

namespace RowQuery.Query

open Text

/-- If a blank changes no token, then no step takes it in, and the reader goes on behind it. -/
theorem tokensFrom_append_blank {c : Char} (hc : isBlank c = true) (n : Nat) (s : List Char)
    (h : tokensFrom n (s ++ [c]) = tokensFrom n s) (t : List Char) :
    tokensFrom n (s ++ c :: t) =
      tokensFrom n s ++ tokensFrom (n + byteLength s + c.utf8Size) t := by
  induction n, s using readerInduction with
  | nil n =>
    rw [List.nil_append, tokensFrom_blank hc, tokensFrom_nil, List.nil_append, byteLength_nil,
      Nat.add_zero]
  | blank n x r hx ih =>
    rw [List.cons_append, tokensFrom_blank hx, tokensFrom_blank hx] at h
    rw [List.cons_append, tokensFrom_blank hx, tokensFrom_blank hx, ih h, byteLength_cons,
      ← Nat.add_assoc]
  | word n x r hx ih =>
    rcases step_append_blank hc (x :: r) with hstop | ⟨hrest, w, htaken⟩
    · have hread : ∀ u, tokensFrom n (x :: (r ++ c :: u)) = (step (x :: r)).tokens n ++
          tokensFrom (n + byteLength (step (x :: r)).text) ((step (x :: r)).rest ++ c :: u) := by
        intro u
        rw [tokensFrom_word hx, ← List.cons_append, hstop u]
        rfl
      rw [List.cons_append, hread [], tokensFrom_word hx] at h
      rw [List.cons_append, hread t, tokensFrom_word hx, ih (List.append_cancel_left h),
        List.append_assoc]
      have hlen := congrArg byteLength (step_text_append_rest (x :: r))
      rw [byteLength_append] at hlen
      rw [← hlen, ← Nat.add_assoc]
    · -- the token with the blank in it ends later than any token of `s`
      rw [List.cons_append, tokensFrom_word hx, ← List.cons_append, htaken, tokensFrom_nil,
        tokensFrom_word hx, hrest, tokensFrom_nil, List.append_nil, List.append_nil] at h
      have htext := step_text_append_rest (x :: r)
      rw [hrest, List.append_nil] at htext
      have hsize := c.utf8Size_pos
      unfold Lexeme.tokens at h
      rw [htext] at h
      cases hm : (step (x :: r)).meaning with
      | none => simp [hm] at h
      | some v =>
        simp only [hm, Clause.token, List.cons.injEq, Token.mk.injEq, Span.mk.injEq,
          byteLength_append, byteLength_cons, byteLength_nil] at h
        omega

/-- **Filters are read one by one at white space.**  If a blank behind `a` is no part of a token, so
that no quote and no escape is open there, then `b` is read as if it stood alone, but for its
place. -/
theorem parse_append_blank_append {a b : String} {c : Char} (hc : isBlank c = true)
    (h : parse (a ++ String.singleton c) = parse a) :
    parse (a ++ String.singleton c ++ b) =
      parse a ++ (parse b).map (Token.shift (a.utf8ByteSize + c.utf8Size)) := by
  unfold parse at h ⊢
  rw [String.toList_append, String.toList_singleton] at h
  rw [String.toList_append, String.toList_append, String.toList_singleton, List.append_assoc,
    List.singleton_append, tokensFrom_append_blank hc 0 a.toList h, ← byteLength_toList,
    Nat.zero_add, ← tokensFrom_add, Nat.add_zero]

/-- A quote that is closed and an operator without a value: the white space behind them changes
nothing, and what follows is read as a token of its own. -/
theorem parse_append_blank_append_quoted :
    let a := "owner:\"a b\" score:>"
    let owner : Token := ⟨"owner", .contains, "a b", ⟨0, 11⟩⟩
    isBlank ' ' = true ∧ parse (a ++ String.singleton ' ') = parse a ∧
      parse (a ++ String.singleton ' ' ++ "x:1") =
        parse a ++ (parse "x:1").map (Token.shift (a.utf8ByteSize + ' '.utf8Size)) ∧
      parse a = [owner] ∧
      parse (a ++ String.singleton ' ' ++ "x:1") = [owner, ⟨"x", .contains, "1", ⟨20, 23⟩⟩] := by
  intro a owner
  have hread : parse (a ++ String.singleton ' ') = parse a := by decide +kernel
  have hcut := parse_append_blank_append (b := "x:1") (by decide) hread
  have hbefore : parse a = [owner] := by decide +kernel
  have hbehind : (parse "x:1").map (Token.shift (a.utf8ByteSize + ' '.utf8Size)) =
      [⟨"x", .contains, "1", ⟨20, 23⟩⟩] := by decide +kernel
  refine ⟨by decide, hread, hcut, hbefore, ?_⟩
  rw [hcut, hbefore, hbehind]
  rfl

end RowQuery.Query
