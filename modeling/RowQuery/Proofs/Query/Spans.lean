import RowQuery.Proofs.Query.Lookahead
import RowQuery.Proofs.Query.States
import RowQuery.Proofs.Text.Bytes

/-!
# Where tokens stand

* `start_lt_stop_of_mem`, `pairwise_tokensFrom`: no token is empty, and each ends before the next
  one starts.
* `tokensFrom_text`: what a step has read gives the same token when it is read alone.
* `Token.IsExact`: what the place of a token says about it.  `parse_exact`: it does so in each text.
-/

namespace RowQuery.Query

open Text

/-! ## The order of tokens -/

theorem byteLength_text_step_pos {c : Char} {r : List Char} (hc : isBlank c = false) :
    0 < byteLength (step (c :: r)).text :=
  byteLength_pos (text_step_ne_nil hc)

theorem start_lt_stop_of_mem {n : Nat} {s : List Char} {t : Token} (h : t ∈ tokensFrom n s) :
    t.span.start < t.span.stop := by
  induction n, s using readerInduction with
  | nil n => exact absurd h (by simp)
  | blank n c r hc ih =>
    rw [tokensFrom_blank hc] at h
    exact ih h
  | word n c r hc ih =>
    rw [tokensFrom_word hc, List.mem_append] at h
    rcases h with h | h
    · obtain ⟨w, -, rfl⟩ := Lexeme.mem_tokens_iff.1 h
      have hpos := byteLength_text_step_pos (r := r) hc
      show n < n + byteLength (step (c :: r)).text
      omega
    · exact ih h

theorem pairwise_tokensFrom (n : Nat) (s : List Char) :
    (tokensFrom n s).Pairwise fun t u => t.span.stop ≤ u.span.start := by
  induction n, s using readerInduction with
  | nil n => simp
  | blank n c r hc ih =>
    rw [tokensFrom_blank hc]
    exact ih
  | word n c r hc ih =>
    rw [tokensFrom_word hc, List.pairwise_append]
    refine ⟨?_, ih, ?_⟩
    · unfold Lexeme.tokens
      cases (step (c :: r)).meaning with
      | none => exact List.Pairwise.nil
      | some w => exact List.pairwise_singleton _ _
    · intro t ht u hu
      obtain ⟨w, -, rfl⟩ := Lexeme.mem_tokens_iff.1 ht
      exact le_start_of_mem hu

/-! ## The text of a token -/

theorem exists_text_step_eq_cons {c : Char} {r : List Char} (hc : isBlank c = false) :
    ∃ x, (step (c :: r)).text = c :: x := by
  obtain ⟨d, x, hx⟩ := List.exists_cons_of_ne_nil (text_step_ne_nil (r := r) hc)
  have happ := step_text_append_rest (c :: r)
  rw [hx] at happ
  obtain ⟨rfl, -⟩ := List.cons.inj happ
  exact ⟨x, hx⟩

/-- What a step has read is read alone as it was. -/
theorem tokensFrom_text {c : Char} {r : List Char} (hc : isBlank c = false) (n : Nat) :
    tokensFrom n (step (c :: r)).text = (step (c :: r)).tokens n := by
  have hstep := step_text (c :: r)
  obtain ⟨x, hx⟩ := exists_text_step_eq_cons (r := r) hc
  rw [hx] at hstep
  rw [hx, tokensFrom_word hc, hstep, tokensFrom_nil, List.append_nil]
  rfl

/-- The characters of a text between the two ends of a token. -/
def Token.textIn (t : Token) (s : String) : List Char :=
  slice s.toList t.span.start t.span.stop

/-- A token stands where its span says: between two boundaries of the text, and what is there begins
with the key and is this token, read on its own. -/
structure Token.IsExact (t : Token) (s : String) : Prop where
  start_lt_stop : t.span.start < t.span.stop
  stop_le : t.span.stop ≤ s.utf8ByteSize
  start_boundary : IsBoundary s.toList t.span.start
  stop_boundary : IsBoundary s.toList t.span.stop
  key_prefix : t.key.toList <+: t.textIn s
  parse_text : parse (String.ofList (t.textIn s)) =
    [{ t with span := ⟨0, byteLength (t.textIn s)⟩ }]

theorem isExact_of_mem_parse {s : String} {t : Token} (h : t ∈ parse s) : t.IsExact s := by
  have hlt := start_lt_stop_of_mem h
  obtain ⟨ts, lead, c, r, w, hreads, hc, hm, rfl⟩ := Reads.exists_of_mem h
  obtain ⟨op, hf⟩ := exists_finds hm
  have hsplit : s.toList = lead ++ (step (c :: r)).text ++ (step (c :: r)).rest := by
    rw [List.append_assoc, step_text_append_rest, hreads.append]
  have htext : (w.token (byteLength lead)
      (byteLength lead + byteLength (step (c :: r)).text)).textIn s = (step (c :: r)).text := by
    show slice s.toList (byteLength lead) (byteLength lead + byteLength (step (c :: r)).text) = _
    rw [hsplit, slice_append]
  refine ⟨hlt, ?_, ?_, ?_, ?_, ?_⟩
  · have hlen := congrArg byteLength hsplit
    rw [byteLength_toList, byteLength_append, byteLength_append] at hlen
    show byteLength lead + byteLength (step (c :: r)).text ≤ _
    omega
  · exact ⟨lead, _, hsplit.trans (List.append_assoc ..), rfl⟩
  · exact ⟨lead ++ (step (c :: r)).text, _, hsplit, byteLength_append _ _⟩
  · rw [htext, hf.text_eq, List.append_assoc]
    show (String.ofList w.key).toList <+: _
    rw [String.toList_ofList]
    exact List.prefix_append ..
  · rw [htext, parse, String.toList_ofList, tokensFrom_text hc, Lexeme.tokens, hm, Nat.zero_add]
    rfl

/-- **Spans are exact.**  Each token stands where its span says, and is known from the text that is
there alone; the tokens stand one behind the other. -/
theorem parse_exact (s : String) :
    (∀ t ∈ parse s, t.IsExact s) ∧
      (parse s).Pairwise fun t u => t.span.stop ≤ u.span.start :=
  ⟨fun _ => isExact_of_mem_parse, pairwise_tokensFrom 0 s.toList⟩

/-- A token right behind the quote that ends the one before it, and a word that is no token. -/
theorem parse_exact_behind_quote :
    let s := "né:\"ü b\"x>1 k:"
    let t : Token := ⟨"x", .greater, "1", ⟨10, 13⟩⟩
    t ∈ parse s ∧ t.IsExact s := by
  intro s t
  have ht : t ∈ parse s := by decide +kernel
  exact ⟨ht, (parse_exact s).1 t ht⟩

end RowQuery.Query
