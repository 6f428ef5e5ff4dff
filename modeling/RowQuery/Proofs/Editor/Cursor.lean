import RowQuery.Editor.Cursor
import RowQuery.Proofs.Text.Scan

/-!
# The word at the cursor, read from the left

The word at the cursor is looked for from its end, with a count of backslashes at each blank.  Read
from the left, it is the word behind the last free white space.

* `isEscaped_eq`: the backslashes that lead up to a place say what reading from the left says.
* `splitWord_append`: the cut is where a word begins and is unbroken from there on.
* `ofBefore_key`, `ofBefore_value`: what this word is.
* `Context.endOf_ofBefore`: its context says where it lies.
-/

namespace RowQuery.Editor

open Text

theorem isEscaped_cons (c : Char) (before : List Char) :
    isEscaped (c :: before) = (c == '\\' && !isEscaped before) := by
  unfold isEscaped
  by_cases hc : c = '\\'
  · rw [List.takeWhile_cons, if_pos (by simp [hc]), List.length_cons]
    have hparity := Nat.mod_two_eq_zero_or_one (before.takeWhile (· == '\\')).length
    rcases hparity with h | h
    · simp [hc, Nat.add_mod, h]
    · simp [hc, Nat.add_mod, h]
  · rw [List.takeWhile_cons, if_neg (by simp [hc])]
    simp [hc]

theorem isEscaped_eq (before : List Char) : isEscaped before = escapesNext before.reverse := by
  induction before with
  | nil => rfl
  | cons c r ih => rw [isEscaped_cons, List.reverse_cons, escapesNext_append_singleton, ih]

/-! ## The cut -/

theorem goBack_beginsWord {lead : List Char} (h : BeginsWord lead) (word : List Char) :
    goBack word lead.reverse = (lead, word) := by
  rcases h with rfl | ⟨s, c, rfl, hc, hs⟩
  · rfl
  · have hfree : isEscaped s.reverse = false := by
      rw [isEscaped_eq, List.reverse_reverse, hs]
    rw [List.reverse_append, List.reverse_singleton, List.singleton_append, goBack, hc, hfree]
    simp

/-- Over an unbroken word the search goes back to where it begins. -/
theorem goBack_unbroken {lead r : List Char} (h : Unbroken lead r.reverse) (word : List Char) :
    goBack word (r ++ lead.reverse) = goBack (r.reverse ++ word) lead.reverse := by
  induction r generalizing word with
  | nil => rfl
  | cons c r ih =>
    rw [List.reverse_cons] at h
    have hcut : (isBlank c && !isEscaped (r ++ lead.reverse)) = false := by
      cases hc : isBlank c with
      | false => rfl
      | true =>
        rw [isEscaped_eq, List.reverse_append, List.reverse_reverse, h r.reverse c [] rfl hc]
        rfl
    rw [List.cons_append, goBack, hcut, if_neg (by decide), ih h.of_append, List.reverse_cons,
      List.append_assoc, List.singleton_append]

theorem splitWord_append {lead word : List Char} (hl : BeginsWord lead) (hw : Unbroken lead word) :
    splitWord (lead ++ word) = (lead, word) := by
  have hback := goBack_unbroken (r := word.reverse) (by rwa [List.reverse_reverse]) []
  rw [List.reverse_reverse, List.append_nil, goBack_beginsWord hl] at hback
  rw [splitWord, List.reverse_append, hback]

/-! ## The context -/

namespace Context

theorem ofBefore_key {lead word : List Char} (hl : BeginsWord lead) (hw : Unbroken lead word)
    (hcolon : ':' ∉ word) :
    ofBefore (lead ++ word) = ⟨String.ofList word, byteLength lead, .key⟩ := by
  have hall : ∀ c ∈ word, (c != ':') = true := by
    intro c hc
    rw [bne_iff_ne]
    intro h
    exact hcolon (h ▸ hc)
  obtain ⟨-, hd⟩ := takeWhile_append_stop (r := []) hall (by simp)
  rw [List.append_nil] at hd
  rw [ofBefore, splitWord_append hl hw]
  simp only [hd]

theorem ofBefore_value {lead key typed : List Char} (hl : BeginsWord lead)
    (hw : Unbroken lead (key ++ ':' :: typed)) (hcolon : ':' ∉ key) :
    ofBefore (lead ++ (key ++ ':' :: typed)) =
      ⟨String.ofList typed, byteLength lead + byteLength key + 1,
        .value (String.ofList key) (byteLength lead + byteLength key)⟩ := by
  have hall : ∀ c ∈ key, (c != ':') = true := by
    intro c hc
    rw [bne_iff_ne]
    intro h
    exact hcolon (h ▸ hc)
  obtain ⟨ht, hd⟩ := takeWhile_append_stop (r := ':' :: typed) hall (by simp)
  rw [ofBefore, splitWord_append hl hw]
  simp only [ht, hd]

end Context

/-! ## The word of each place -/

/-- How a context lies at the end of the text left of the cursor. -/
inductive Context.EndOf : List Char → Context → Prop
  | key {lead word : List Char} : BeginsWord lead → Unbroken lead word → ':' ∉ word →
      EndOf (lead ++ word) ⟨String.ofList word, byteLength lead, .key⟩
  | value {lead key typed : List Char} : BeginsWord lead → Unbroken lead (key ++ ':' :: typed) →
      ':' ∉ key → EndOf (lead ++ (key ++ ':' :: typed))
        ⟨String.ofList typed, byteLength lead + byteLength key + 1,
          .value (String.ofList key) (byteLength lead + byteLength key)⟩

theorem Context.endOf_ofBefore (before : List Char) : EndOf before (ofBefore before) := by
  obtain ⟨lead, word, rfl, hl, hw, -⟩ := (Scan.describes_ofText before).word
  by_cases hcolon : ':' ∈ word
  · obtain ⟨key, typed, rfl, hkey⟩ := List.eq_append_cons_of_mem hcolon
    rw [ofBefore_value hl hw hkey]
    exact .value hl hw hkey
  · rw [ofBefore_key hl hw hcolon]
    exact .key hl hw hcolon

end RowQuery.Editor
