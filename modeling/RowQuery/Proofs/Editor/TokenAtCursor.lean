import RowQuery.Proofs.Editor.Cursor
import RowQuery.Proofs.Query.States
import RowQuery.Proofs.Text.Bytes

/-!
# The token at the cursor

The reader goes through a text from left to right, and the word at the cursor is looked for from
right to left.  Without quotes both find the same words, if each backslash belongs to a token: the
reader passes over a word that is no token without regard to its backslashes.

* `Gap`: how the reader and the search agree on a state, and `gap_of_reads`: they always do.
* `exists_word_of_mem_parse`: a token is a word for the search.
* `context_of_mem_parse`: the context at each place of a token.
-/

namespace RowQuery.Editor

open Text Query

/-- Each backslash of a text stands in one of its tokens. -/
def EscapesInTokens (text : String) : Prop :=
  ∀ n, CharAt text.toList n '\\' → ∃ u ∈ parse text, u.span.Contains n

/-- Between `lead` and `rest` there is no word of the search that goes on from one to the other, and
no escape. -/
structure Gap (lead rest : List Char) : Prop where
  word : BeginsWord lead ∨ EndsWord rest
  escape : rest = [] ∨ escapesNext lead = false

namespace Gap

variable {lead r : List Char} {c : Char}

theorem start (s : List Char) : Gap [] s where
  word := Or.inl (Or.inl rfl)
  escape := Or.inr rfl

theorem free (h : Gap lead (c :: r)) : escapesNext lead = false :=
  h.escape.resolve_left (by simp)

theorem begins (h : Gap lead (c :: r)) (hc : isBlank c = false) : BeginsWord lead :=
  h.word.resolve_right (not_endsWord_cons hc r)

theorem blank (h : Gap lead (c :: r)) (hc : isBlank c = true) : Gap (lead ++ [c]) r where
  word := Or.inl (Or.inr ⟨lead, c, rfl, hc, h.free⟩)
  escape := by
    right
    have hne := ne_of_isBlank hc isBlank_backslash
    rw [escapesNext_append_singleton]
    simp [hne]

/-- Behind a word without backslashes. -/
theorem word_of_none (h : Gap lead (c :: r)) (hq : ∀ d ∈ c :: r, isQuote d = false)
    (hb : '\\' ∉ (step (c :: r)).text) :
    Gap (lead ++ (step (c :: r)).text) (step (c :: r)).rest where
  word := Or.inr (endsWord_step hq)
  escape := by
    right
    rw [escapesNext_append h.free]
    exact escapesNext_of_not_mem hb

/-- Behind a token, whose value takes its escapes in whole. -/
theorem word_of_some (h : Gap lead (c :: r)) (hq : ∀ d ∈ c :: r, isQuote d = false) {w : Clause}
    (hm : (step (c :: r)).meaning = some w) :
    Gap (lead ++ (step (c :: r)).text) (step (c :: r)).rest where
  word := Or.inr (endsWord_step hq)
  escape := by
    obtain ⟨op, hf⟩ := exists_finds hm
    obtain ⟨htext, hrest⟩ := hf.bare hq
    have hplain : escapesNext (lead ++ (w.key ++ op.text)) = false := by
      rw [escapesNext_append h.free]
      exact escapesNext_of_not_mem fun hmem => (hf.plain _ hmem).2 rfl
    rw [htext, hrest, ← List.append_assoc lead, escapesNext_append hplain]
    cases he : escapesNext (takeUntil isBlank op.rest) with
    | true => exact Or.inl (dropUntil_eq_nil_of_escapesNext isBlank_backslash he)
    | false => exact Or.inr rfl

end Gap

theorem gap_of_reads {s lead rest : List Char} {ts : List Token}
    (hquote : ∀ c ∈ s, isQuote c = false)
    (hescape : ∀ n, CharAt s n '\\' → ∃ u ∈ tokensFrom 0 s, u.span.Contains n)
    (h : Reads s ts lead rest) : Gap lead rest := by
  induction h with
  | start => exact Gap.start s
  | blank _ hc ih => exact ih.blank hc
  | @word ts lead r c h hc ih =>
    have hq : ∀ d ∈ c :: r, isQuote d = false := fun d hd => hquote d (h.mem hd)
    cases hm : (step (c :: r)).meaning with
    | some w => exact ih.word_of_some hq hm
    | none =>
      refine ih.word_of_none hq fun hb => ?_
      -- no token is there for this backslash
      obtain ⟨x, y, hxy⟩ := List.append_of_mem hb
      have hs : s = (lead ++ x) ++ '\\' :: (y ++ (step (c :: r)).rest) := by
        calc s = lead ++ ((step (c :: r)).text ++ (step (c :: r)).rest) := by
              rw [step_text_append_rest, h.append]
          _ = lead ++ (x ++ '\\' :: y ++ (step (c :: r)).rest) := by rw [hxy]
          _ = (lead ++ x) ++ '\\' :: (y ++ (step (c :: r)).rest) := by simp
      have hat : CharAt s (byteLength (lead ++ x)) '\\' := hs ▸ charAt_append ..
      obtain ⟨u, hu, hn⟩ := hescape _ hat
      have hlen := congrArg byteLength hxy
      rw [byteLength_append, byteLength_cons] at hlen
      have hback : 0 < '\\'.utf8Size := by decide
      refine h.not_contains hc hm ?_ ?_ u hu hn
      · rw [byteLength_append]
        omega
      · rw [byteLength_append, hlen]
        omega

/-- A token is a word for the search, and begins with its key. -/
theorem exists_word_of_mem_parse {text : String} {t : Token}
    (hquote : ∀ c ∈ text.toList, isQuote c = false) (hescape : EscapesInTokens text)
    (ht : t ∈ parse text) :
    ∃ lead word rest, text.toList = lead ++ (word ++ rest) ∧ BeginsWord lead ∧
      Unbroken lead word ∧ byteLength lead = t.span.start ∧
        byteLength lead + byteLength word = t.span.stop ∧ t.key.toList <+: word ∧
          ∀ c ∈ t.key.toList, isKeyChar c = true := by
  obtain ⟨ts, lead, c, r, w, h, hc, hm, rfl⟩ := Reads.exists_of_mem ht
  obtain ⟨op, hf⟩ := exists_finds hm
  have hgap := gap_of_reads hquote hescape h
  obtain ⟨htext, -⟩ := hf.bare fun d hd => hquote d (h.mem hd)
  have happ : text.toList = lead ++ ((step (c :: r)).text ++ (step (c :: r)).rest) := by
    rw [step_text_append_rest, h.append]
  have hkey : ∀ start stop, (w.token start stop).key.toList = w.key := fun _ _ =>
    String.toList_ofList
  refine ⟨lead, (step (c :: r)).text, (step (c :: r)).rest, happ, hgap.begins hc, ?_, rfl, rfl,
    ?_, ?_⟩
  · rw [htext]
    exact unbroken_append hgap.free hf.plain (dropUntil_takeUntil op.rest)
  · rw [hkey, htext, List.append_assoc]
    exact List.prefix_append ..
  · rw [hkey]
    exact hf.isKeyChar_key

/-- Left of a place behind the colon stand the key, the colon and the beginning of the value. -/
theorem exists_value {lead key typed after tail : List Char}
    (h : lead ++ typed ++ after = lead ++ key ++ ':' :: tail)
    (hlt : byteLength lead + byteLength key < byteLength (lead ++ typed)) :
    ∃ value, typed = key ++ ':' :: value := by
  have hone : ':'.utf8Size = 1 := by decide
  have hle : byteLength (lead ++ key ++ [':']) ≤ byteLength (lead ++ typed) := by
    simp only [byteLength_append, byteLength_cons, byteLength_nil] at hlt ⊢
    omega
  have hcut : (lead ++ key ++ [':']) ++ tail = (lead ++ typed) ++ after := by
    rw [h]
    simp
  obtain ⟨value, hvalue, -⟩ := exists_append_of_byteLength_le hcut hle
  exact ⟨value, by simpa using hvalue⟩

/-- **The word at the cursor is the token at the cursor.**  Up to the colon it is the part of the
key that is left of the cursor; behind the colon it is that part of the value, as it is written. -/
theorem context_of_mem_parse {text : String} {t : Token} {cursor : Nat}
    (hquote : ∀ c ∈ text.toList, isQuote c = false) (hescape : EscapesInTokens text)
    (ht : t ∈ parse text)
    (hcolon : CharAt text.toList (t.span.start + byteLength t.key.toList) ':')
    (hcursor : IsBoundary text.toList cursor) (hlo : t.span.start ≤ cursor)
    (hhi : cursor ≤ t.span.stop) :
    let colon := t.span.start + byteLength t.key.toList
    Context.ofCursor text cursor =
      if cursor ≤ colon then
        ⟨String.ofList (slice text.toList t.span.start cursor), t.span.start, .key⟩
      else
        ⟨String.ofList (slice text.toList (colon + 1) cursor), colon + 1, .value t.key colon⟩ := by
  intro colon
  obtain ⟨lead, word, rest, htext, hlead, hword, hstart, hstop, ⟨more, hkey⟩, hchars⟩ :=
    exists_word_of_mem_parse hquote hescape ht
  obtain ⟨before, after, hcut, rfl⟩ := hcursor
  -- the part of the token before the cursor
  obtain ⟨typed, rfl, htyped⟩ := exists_append_of_byteLength_le (htext.symm.trans hcut)
    (by rw [hstart]; exact hlo)
  obtain ⟨untyped, hsplit, -⟩ := exists_append_of_byteLength_le htyped.symm
    (by rw [byteLength_append] at hhi; omega)
  have hunbroken : Unbroken lead typed := (hsplit ▸ hword).of_append
  rw [Context.ofCursor, hcut, takeBytes_append]
  have hnocolon := colon_not_mem hchars
  by_cases hle : byteLength (lead ++ typed) ≤ colon
  · obtain ⟨tail, htail, -⟩ := exists_append_of_byteLength_le (hsplit.symm.trans hkey.symm)
      (by rw [byteLength_append] at hle; omega)
    have hfree : ':' ∉ typed := by
      intro h
      exact hnocolon (htail ▸ List.mem_append_left _ h)
    rw [if_pos hle, Context.ofBefore_key hlead hunbroken hfree, ← hstart, byteLength_append,
      slice_append]
  · have hall : text.toList = (lead ++ t.key.toList) ++ (more ++ rest) := by
      rw [htext, ← hkey]
      simp
    rw [hall, ← hstart, ← byteLength_append] at hcolon
    obtain ⟨b, hb⟩ := hcolon.exists_cons
    have hplace : colon = byteLength lead + byteLength t.key.toList := by rw [hstart]
    obtain ⟨value, rfl⟩ := exists_value (by rw [← hcut, hall, hb]) (by omega)
    rw [if_neg hle, Context.ofBefore_value hlead hunbroken hnocolon, String.ofList_toList, hplace,
      slice_behind_colon]

/-- Behind a word that is no token, and with a blank and a colon in the value. -/
theorem context_of_mem_parse_escaped_blank :
    let text := "odd k:\\ b:c"
    let t : Token := ⟨"k", .contains, " b:c", ⟨4, 11⟩⟩
    (∀ c ∈ text.toList, isQuote c = false) ∧ EscapesInTokens text ∧ t ∈ parse text ∧
      CharAt text.toList (t.span.start + byteLength t.key.toList) ':' ∧
        IsBoundary text.toList 10 ∧ Context.ofCursor text 10 = ⟨"\\ b:", 6, .value "k" 5⟩ := by
  intro text t
  have htext : text.toList = ['o', 'd', 'd', ' ', 'k', ':', '\\', ' ', 'b', ':', 'c'] := by
    decide +kernel
  have ht : t ∈ parse text := by decide +kernel
  have hquote : ∀ c ∈ text.toList, isQuote c = false := by
    rw [htext]
    simp [isQuote]
  have hescape : EscapesInTokens text := by
    intro n hn
    rw [htext] at hn
    simp only [charAt_cons, not_charAt_nil, Char.reduceEq, false_and, true_and, and_false,
      exists_eq_right, exists_false, or_false, false_or] at hn
    subst hn
    exact ⟨t, ht, by decide⟩
  have hcolon : CharAt text.toList (t.span.start + byteLength t.key.toList) ':' :=
    ⟨['o', 'd', 'd', ' ', 'k'], _, htext, by decide +kernel⟩
  have hcursor : IsBoundary text.toList 10 :=
    ⟨['o', 'd', 'd', ' ', 'k', ':', '\\', ' ', 'b', ':'], ['c'], htext, by decide⟩
  have hcontext := context_of_mem_parse hquote hescape ht hcolon hcursor (by decide) (by decide)
  exact ⟨hquote, hescape, ht, hcolon, hcursor, hcontext.trans (by decide +kernel)⟩

end RowQuery.Editor
