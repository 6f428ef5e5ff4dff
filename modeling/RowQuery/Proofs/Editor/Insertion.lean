import RowQuery.Proofs.Editor.Completion
import RowQuery.Proofs.Editor.ForwardScan

/-!
# Putting a text in place of the current word

An insertion replaces the word at the cursor and nothing else.  Where this word begins is found out
anew from the changed text, and it is found at the same place as long as what has been inserted is
one word: it has no white space, and no colon where a key is typed.  So one choice after another can
be tried out, and only the last one stays.

* `exists_current_word`: a text is what is left of the current word, this word and the rest.
* `ofCursor_insertAt_of_fits`: behind an insertion the context is the same but for the word.
* `insertAt_insertAt`, `insertAt_foldl`: a choice overwrites the one before it, and all before it.
* `insertAt_replaces_word`: what an insertion gives.
-/

namespace RowQuery.Editor

open Text

/-- Whether a text stays one word in a place. -/
structure Place.Fits (place : Place) (x : String) : Prop where
  not_blank : ∀ c ∈ x.toList, isBlank c = false
  no_colon : place = .key → ':' ∉ x.toList

variable {text : String} {cursor : Nat} {x : String}

/-! ## The parts of a text -/

/-- A context is that of a word behind `lead`, and of all words that may stand in its place. -/
structure Context.Follows (context : Context) (lead word : List Char) : Prop where
  word : context.word = String.ofList word
  start : context.start = byteLength lead
  replaced : ∀ x : String, context.place.Fits x →
    Context.ofBefore (lead ++ x.toList) = ⟨x, context.start, context.place⟩

theorem Context.exists_follows (before : List Char) :
    ∃ lead word, before = lead ++ word ∧ (ofBefore before).Follows lead word := by
  have hend := endOf_ofBefore before
  generalize ofBefore before = context at hend ⊢
  cases hend with
  | @key lead word hl hw hcolon =>
    refine ⟨lead, word, rfl, rfl, rfl, fun x hx => ?_⟩
    have hnew := ofBefore_key hl (unbroken_of_not_blank hx.not_blank) (hx.no_colon rfl)
    rwa [String.ofList_toList] at hnew
  | @value lead key typed hl hw hcolon =>
    -- what stays of the word is its key and the colon
    have hone : ':'.utf8Size = 1 := by decide
    have hsplit (t : List Char) : lead ++ (key ++ [':']) ++ t = lead ++ (key ++ ':' :: t) := by simp
    refine ⟨lead ++ (key ++ [':']), typed, (hsplit typed).symm, rfl, ?_, fun x hx => ?_⟩
    · simp only [byteLength_append, byteLength_cons, byteLength_nil, hone]
      omega
    · have hkept : Unbroken lead (key ++ [':']) := by
        have hcut : key ++ ':' :: typed = (key ++ [':']) ++ typed := by simp
        rw [hcut] at hw
        exact hw.of_append
      have hword : Unbroken lead (key ++ ':' :: x.toList) := by
        simpa using hkept.append (unbroken_of_not_blank hx.not_blank)
      have hnew := ofBefore_value hl hword hcolon
      rwa [String.ofList_toList, ← hsplit] at hnew

/-- A text is what is left of the current word, this word, and what is right of the cursor. -/
theorem exists_current_word (text : String) (cursor : Nat) :
    ∃ lead word rest, text.toList = lead ++ word ++ rest ∧
      takeBytes cursor text.toList = lead ++ word ∧ dropBytes cursor text.toList = rest ∧
        (Context.ofCursor text cursor).Follows lead word := by
  obtain ⟨lead, word, hcut, hfollows⟩ := Context.exists_follows (takeBytes cursor text.toList)
  refine ⟨lead, word, _, ?_, hcut, rfl, hfollows⟩
  rw [← hcut, takeBytes_append_dropBytes]

/-! ## One insertion -/

/-- Behind an insertion the context is the same but for the word. -/
theorem ofCursor_insertAt_of_fits (hx : (Context.ofCursor text cursor).place.Fits x) :
    Context.ofCursor (insertAt text cursor x).text (insertAt text cursor x).cursor =
      { Context.ofCursor text cursor with word := x } := by
  obtain ⟨lead, word, rest, -, htake, -, hfollows⟩ := exists_current_word text cursor
  rw [ofCursor_insertAt x htake hfollows.start]
  exact hfollows.replaced x hx

/-! ## Insertions one after another -/

/-- **A choice overwrites the one before it** and leaves nothing of it. -/
theorem insertAt_insertAt (hx : (Context.ofCursor text cursor).place.Fits x) (y : String) :
    insertAt (insertAt text cursor x).text (insertAt text cursor x).cursor y =
      insertAt text cursor y := by
  have hcontext := ofCursor_insertAt_of_fits hx
  obtain ⟨lead, word, rest, htext, htake, hdrop, hfollows⟩ := exists_current_word text cursor
  rw [insertAt_eq x htake hfollows.start] at hcontext ⊢
  have htake' : takeBytes (byteLength (lead ++ x.toList))
      (String.ofList (lead ++ x.toList ++ dropBytes cursor text.toList)).toList =
        lead ++ x.toList := by rw [String.toList_ofList, takeBytes_append]
  have hstart : (Context.ofCursor (String.ofList (lead ++ x.toList ++ dropBytes cursor text.toList))
      (byteLength (lead ++ x.toList))).start = byteLength lead := by
    rw [hcontext]
    exact hfollows.start
  rw [insertAt_eq y htake' hstart, insertAt_eq y htake hfollows.start, String.toList_ofList,
    dropBytes_append]

/-- However many choices are tried out one after another, only the last one stays. -/
theorem insertAt_foldl (tried : List String)
    (h : ∀ x ∈ tried, (Context.ofCursor text cursor).place.Fits x) (y : String) :
    let last := tried.foldl (fun after x => insertAt after.text after.cursor x) ⟨text, cursor⟩
    insertAt last.text last.cursor y = insertAt text cursor y := by
  induction tried generalizing text cursor with
  | nil => rfl
  | cons x tried ih =>
    have hx := h x (List.mem_cons_self ..)
    have hrest : ∀ z ∈ tried,
        (Context.ofCursor (insertAt text cursor x).text (insertAt text cursor x).cursor).place.Fits
          z := by
      intro z hz
      rw [ofCursor_insertAt_of_fits hx]
      exact h z (List.mem_cons_of_mem _ hz)
    exact (ih hrest).trans (insertAt_insertAt hx y)

/-! ## What an insertion gives -/

/-- **An insertion replaces exactly the current word.**  The text is what is left of this word, the
word, and what is right of the boundary `c` at which the cursor counts; the first and the last part
stay, and the cursor then stands behind what has been inserted.  The word itself gives the text
back, and a second choice takes the place of a first one that is one word. -/
theorem insertAt_replaces_word (text : String) (cursor : Nat) (x : String) :
    let context := Context.ofCursor text cursor
    let after := insertAt text cursor x
    ∃ lead word rest c,
      IsGreatest {n | IsBoundary text.toList n ∧ n ≤ min cursor text.utf8ByteSize} c ∧
      text.toList = lead ++ word ++ rest ∧ byteLength lead = context.start ∧
      byteLength (lead ++ word) = c ∧ String.ofList word = context.word ∧
      after.text.toList = lead ++ x.toList ++ rest ∧
      after.cursor = byteLength (lead ++ x.toList) ∧ IsBoundary after.text.toList after.cursor ∧
      insertAt text cursor context.word = ⟨text, c⟩ ∧
      (context.place.Fits x →
        ∀ y, insertAt after.text after.cursor y = insertAt text cursor y) := by
  intro context after
  obtain ⟨lead, word, rest, htext, htake, hdrop, hfollows⟩ := exists_current_word text cursor
  have hgreatest := isGreatest_takeBytes cursor text.toList
  rw [byteLength_toList, htake] at hgreatest
  have hafter : after = ⟨String.ofList (lead ++ x.toList ++ rest), byteLength (lead ++ x.toList)⟩ :=
    hdrop ▸ insertAt_eq x htake hfollows.start
  have hword : insertAt text cursor context.word = ⟨text, byteLength (lead ++ word)⟩ := by
    rw [insertAt_eq _ htake hfollows.start, hfollows.word, String.toList_ofList, hdrop, ← htext,
      String.ofList_toList]
  refine ⟨lead, word, rest, _, hgreatest, htext, hfollows.start.symm, rfl, hfollows.word.symm, ?_,
    ?_, ?_, hword, insertAt_insertAt⟩
  · rw [hafter, String.toList_ofList]
  · rw [hafter]
  · rw [hafter, String.toList_ofList]
    exact ⟨lead ++ x.toList, rest, rfl, rfl⟩

/-- A value behind a key with an escaped blank, with the cursor inside the character that follows,
and in its place another one with a colon and a backslash at its end. -/
theorem insertAt_replaces_word_inside_character :
    let text := "a\\ b:wé tail"
    let after := insertAt text 7 "x:y\\"
    (Context.ofCursor text 7).place.Fits "x:y\\" ∧ insertAt text 7 "w" = ⟨text, 6⟩ ∧
      after = ⟨"a\\ b:x:y\\é tail", 9⟩ ∧
      (∀ y, insertAt after.text after.cursor y = insertAt text 7 y) ∧
      insertAt text 7 "ok " = ⟨"a\\ b:ok é tail", 8⟩ := by
  intro text after
  obtain ⟨_, _, _, _, -, -, -, -, -, -, -, -, -, hagain⟩ := insertAt_replaces_word text 7 "x:y\\"
  have hplace : (Context.ofCursor text 7).place = .value "a\\ b" 4 := by decide +kernel
  have hfits : (Context.ofCursor text 7).place.Fits "x:y\\" := by
    have hblank : "x:y\\".toList.all (!isBlank ·) = true := by decide +kernel
    refine ⟨fun c hc => ?_, fun hkey => ?_⟩
    · simpa using List.all_eq_true.1 hblank c hc
    · rw [hplace] at hkey
      cases hkey
  exact ⟨hfits, by decide +kernel, by decide +kernel, hagain hfits, by decide +kernel⟩

/-- A first choice of two words leaves one of them behind. -/
example : insertAt "k:v" 3 "x y" = ⟨"k:x y", 5⟩ ∧ insertAt "k:x y" 5 "z" = ⟨"k:x z", 5⟩ := by
  decide +kernel

end RowQuery.Editor
