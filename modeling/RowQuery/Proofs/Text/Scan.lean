import RowQuery.Text.Bytes
import RowQuery.Proofs.Text.Words

/-!
# The last word of a text

One pass over a text, from left to right and with one character in mind, finds where its last word
begins.

* `LastWordAt s n`: the last word of `s` begins at byte `n`.
* `Scan`: what the pass keeps.  `Scan.Describes`: what this says of the text that has been read.
* `Scan.Describes.next`, `Scan.Describes.foldl`: one character further, and all that come.
* `Scan.describes_ofText`: a whole text, which therefore has a last word.
-/

namespace RowQuery.Text

/-- The last word of `s`, which may be empty, begins at byte `n`. -/
def LastWordAt (s : List Char) (n : Nat) : Prop :=
  ∃ lead word, s = lead ++ word ∧ BeginsWord lead ∧ Unbroken lead word ∧ byteLength lead = n

/-- Where no free white space comes, the last word goes on. -/
theorem LastWordAt.append_singleton {s : List Char} {n : Nat} (h : LastWordAt s n) {c : Char}
    (hc : isBlank c = true → escapesNext s = true) : LastWordAt (s ++ [c]) n := by
  obtain ⟨lead, word, rfl, hl, hw, hn⟩ := h
  exact ⟨lead, word ++ [c], List.append_assoc .., hl, hw.append_singleton hc, hn⟩

/-- What is known of the part of a text that has been read from the left: how long it is, where its
last word begins, and whether it ends on a backslash that escapes what comes next. -/
structure Scan where
  offset : Nat
  word : Nat
  escaped : Bool

namespace Scan

/-- One character further.  An escaped character is passed over, a backslash that is not escaped
escapes the next one, and behind white space a word begins. -/
def next (k : Scan) (c : Char) : Scan :=
  let offset := k.offset + c.utf8Size
  if k.escaped then ⟨offset, k.word, false⟩
  else if c = '\\' then ⟨offset, k.word, true⟩
  else if isBlank c then ⟨offset, offset, false⟩
  else ⟨offset, k.word, false⟩

/-- The pass over a whole text. -/
def ofText (s : List Char) : Scan :=
  s.foldl next ⟨0, 0, false⟩

/-- `k` is what there is to know of `s`. -/
structure Describes (k : Scan) (s : List Char) : Prop where
  offset : k.offset = byteLength s
  escaped : k.escaped = escapesNext s
  word : LastWordAt s k.word

variable {k : Scan} {s : List Char}

theorem Describes.next (h : k.Describes s) (c : Char) : (k.next c).Describes (s ++ [c]) := by
  have hoffset : k.offset + c.utf8Size = byteLength (s ++ [c]) := by
    rw [byteLength_append, h.offset]
    rfl
  have hesc := escapesNext_append_singleton s c
  unfold Scan.next
  cases he : k.escaped with
  | true =>
    have hs : escapesNext s = true := h.escaped.symm.trans he
    rw [hs] at hesc
    refine ⟨hoffset, ?_, h.word.append_singleton fun _ => hs⟩
    rw [hesc]
    simp
  | false =>
    have hs : escapesNext s = false := h.escaped.symm.trans he
    rw [hs] at hesc
    by_cases hback : c = '\\'
    · subst hback
      refine ⟨hoffset, hesc.symm, h.word.append_singleton fun hblank => ?_⟩
      exact absurd hblank (by decide)
    · have hfree : escapesNext (s ++ [c]) = false := by rw [hesc]; simp [hback]
      simp only [Bool.false_eq_true, if_false, if_neg hback]
      by_cases hblank : isBlank c = true
      · rw [if_pos hblank]
        refine ⟨hoffset, hfree.symm, s ++ [c], [], (List.append_nil _).symm, ?_, ?_, hoffset.symm⟩
        · exact Or.inr ⟨s, c, rfl, hblank, hs⟩
        · exact unbroken_of_not_blank (by simp)
      · rw [if_neg hblank]
        exact ⟨hoffset, hfree.symm, h.word.append_singleton fun hb => absurd hb hblank⟩

theorem Describes.foldl (h : k.Describes s) (t : List Char) :
    (t.foldl Scan.next k).Describes (s ++ t) := by
  induction t generalizing k s with
  | nil => rwa [List.append_nil]
  | cons c t ih =>
    have hnext := ih (h.next c)
    rwa [List.append_assoc, List.singleton_append] at hnext

theorem describes_ofText (s : List Char) : (ofText s).Describes s := by
  have hstart : (⟨0, 0, false⟩ : Scan).Describes [] :=
    ⟨rfl, rfl, [], [], rfl, Or.inl rfl, unbroken_of_not_blank (by simp), rfl⟩
  exact hstart.foldl s

end Scan

end RowQuery.Text
