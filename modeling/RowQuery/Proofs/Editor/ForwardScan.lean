import Mathlib.Order.Bounds.Defs
import RowQuery.Proofs.Editor.Cursor
import RowQuery.Proofs.Text.Bytes

/-!
# The word at the cursor, found from the left

The search from the cursor to the left finds the word that a scan of the text left of the cursor
ends in.

* `isGreatest_takeBytes`: where a cursor counts that lies inside a character or behind the text.
* `isLeast_colon`: the colon between the key and the value of the last word.
* `isWordAt_ofBefore`: the context of the last word, by the bytes where it begins and ends.
* `ofCursor_eq_scan`: the context at each cursor.
-/

namespace RowQuery.Editor

open Text

theorem byteLength_le_takeBytes {a : List Char} {n : Nat} (h : byteLength a ≤ n) (b : List Char) :
    byteLength a ≤ byteLength (takeBytes n (a ++ b)) := by
  induction a generalizing n with
  | nil => exact Nat.zero_le _
  | cons c a ih =>
    rw [byteLength_cons] at h
    have hrest := ih (n := n - c.utf8Size) (by omega)
    rw [List.cons_append, takeBytes, if_pos (by omega), byteLength_cons, byteLength_cons]
    omega

/-- A cursor counts as the last boundary that is not behind it. -/
theorem isGreatest_takeBytes (n : Nat) (s : List Char) :
    IsGreatest {m | IsBoundary s m ∧ m ≤ min n (byteLength s)} (byteLength (takeBytes n s)) := by
  have happ := takeBytes_append_dropBytes n s
  have hlen := congrArg byteLength happ
  rw [byteLength_append] at hlen
  have hle := byteLength_takeBytes_le n s
  constructor
  · exact ⟨⟨_, _, happ.symm, rfl⟩, by omega⟩
  · rintro m ⟨⟨a, b, rfl, rfl⟩, hm⟩
    exact byteLength_le_takeBytes (by omega) b

/-- The first colon of the last word is the first one behind where this begins. -/
theorem isLeast_colon {lead key : List Char} (hkey : ':' ∉ key) (r : List Char) :
    IsLeast {n | byteLength lead ≤ n ∧ CharAt (lead ++ (key ++ ':' :: r)) n ':'}
      (byteLength lead + byteLength key) := by
  constructor
  · refine ⟨Nat.le_add_right .., ?_⟩
    rw [← byteLength_append, ← List.append_assoc]
    exact charAt_append _ _ _
  · rintro n ⟨hn, a, b, hab, rfl⟩
    obtain ⟨m, rfl, hm⟩ := exists_append_of_byteLength_le hab hn
    rw [byteLength_append]
    refine Nat.le_of_not_lt fun hlt => ?_
    have hcolon : byteLength [':'] = 1 := by decide
    have hle : byteLength (m ++ [':']) ≤ byteLength key := by
      rw [byteLength_append]
      omega
    have hcut : (m ++ [':']) ++ b = key ++ ':' :: r := by rw [hm]; simp
    obtain ⟨x, hx, -⟩ := exists_append_of_byteLength_le hcut hle
    exact hkey (by rw [hx]; simp)

/-- The context of the word between two bytes of a text: a key as long as there is no colon in it,
and then, behind its first colon, the value of the key before that. -/
inductive Context.IsWordAt (s : List Char) (start stop : Nat) : Context → Prop
  | key : ':' ∉ slice s start stop →
      IsWordAt s start stop ⟨String.ofList (slice s start stop), start, .key⟩
  | value {colon : Nat} : ':' ∈ slice s start stop →
      IsLeast {n | start ≤ n ∧ CharAt s n ':'} colon →
        IsWordAt s start stop ⟨String.ofList (slice s (colon + 1) stop), colon + 1,
          .value (String.ofList (slice s start colon)) colon⟩

theorem isWordAt_ofBefore {lead word : List Char} (hl : BeginsWord lead) (hw : Unbroken lead word)
    (after : List Char) :
    (Context.ofBefore (lead ++ word)).IsWordAt (lead ++ word ++ after) (byteLength lead)
      (byteLength (lead ++ word)) := by
  have hslice : slice (lead ++ word ++ after) (byteLength lead) (byteLength (lead ++ word)) =
      word := by rw [byteLength_append, slice_append]
  by_cases hcolon : ':' ∈ word
  · obtain ⟨key, typed, rfl, hkey⟩ := List.eq_append_cons_of_mem hcolon
    have hleast := @isLeast_colon lead key hkey (typed ++ after)
    have hassoc : lead ++ (key ++ ':' :: (typed ++ after)) =
        lead ++ (key ++ ':' :: typed) ++ after := by simp
    rw [hassoc] at hleast
    have hvalue := Context.IsWordAt.value (by rw [hslice]; exact hcolon) hleast
    have htyped := slice_behind_colon lead key typed after
    have hname := slice_append lead key (':' :: typed ++ after)
    rw [show lead ++ key ++ (':' :: typed ++ after) = lead ++ (key ++ ':' :: typed) ++ after by
      simp] at hname
    rw [htyped, hname] at hvalue
    rwa [Context.ofBefore_value hl hw hkey]
  · have hkey := Context.IsWordAt.key (by rw [hslice]; exact hcolon)
    rw [hslice] at hkey
    rwa [Context.ofBefore_key hl hw hcolon]

/-- **The context at a cursor is found in one pass from the left.**  The cursor counts as the last
boundary `c` that is not behind it, and what is right of it does not matter.  The word at the cursor
begins where the pass says. -/
theorem ofCursor_eq_scan (text : String) (cursor : Nat) :
    ∃ c, IsGreatest {n | IsBoundary text.toList n ∧ n ≤ min cursor text.utf8ByteSize} c ∧
      let before := takeBytes c text.toList
      let start := (Scan.ofText before).word
      Context.ofCursor text cursor = Context.ofCursor (String.ofList before) c ∧
        IsBoundary text.toList start ∧ start ≤ c ∧
          (Context.ofCursor text cursor).IsWordAt text.toList start c := by
  have happ := takeBytes_append_dropBytes cursor text.toList
  have hgreatest := isGreatest_takeBytes cursor text.toList
  rw [byteLength_toList] at hgreatest
  refine ⟨_, hgreatest, ?_⟩
  have htake := takeBytes_append (takeBytes cursor text.toList) (dropBytes cursor text.toList)
  rw [happ] at htake
  obtain ⟨lead, word, hsplit, hl, hw, hstart⟩ :=
    (Scan.describes_ofText (takeBytes cursor text.toList)).word
  have hword := isWordAt_ofBefore hl hw (dropBytes cursor text.toList)
  rw [← hsplit, happ] at hword
  dsimp only
  rw [htake, ← hstart]
  refine ⟨?_, ⟨lead, word ++ dropBytes cursor text.toList, ?_, rfl⟩, ?_, hword⟩
  · have hself := takeBytes_append (takeBytes cursor text.toList) []
    rw [List.append_nil] at hself
    rw [Context.ofCursor, Context.ofCursor, String.toList_ofList, hself]
  · rw [← List.append_assoc, ← hsplit, happ]
  · rw [hsplit, byteLength_append]
    omega

/-- A blank behind two backslashes ends a word, and one behind a single backslash does not. -/
example : Context.ofCursor "a\\\\ k:b\\ c" 99 = ⟨"b\\ c", 6, .value "k" 5⟩ := by
  decide +kernel

end RowQuery.Editor
