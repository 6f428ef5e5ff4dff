import RowQuery.Text.Bytes

/-!
# Cuts between two characters

* `takeBytes_append`, `dropBytes_append`: a cut at a boundary gives the two parts.
* `eq_of_byteLength_eq`: a text has one cut at each boundary.
* `slice`: the characters between two offsets.
* `IsBoundary`, `CharAt`: the offsets of cuts and of characters.
-/

namespace RowQuery.Text

theorem byteLength_toList (s : String) : byteLength s.toList = s.utf8ByteSize := by
  have hlist : ∀ l : List Char, byteLength l = (String.ofList l).utf8ByteSize := by
    intro l
    induction l with
    | nil => simp
    | cons c r ih =>
      have hc : String.ofList (c :: r) = String.singleton c ++ String.ofList r := by
        rw [String.singleton_eq_ofList, ← String.ofList_append, List.singleton_append]
      rw [byteLength_cons, hc, String.utf8ByteSize_append, String.utf8ByteSize_singleton, ih]
  rw [hlist, String.ofList_toList]

theorem byteLength_pos {s : List Char} (h : s ≠ []) : 0 < byteLength s := by
  cases s with
  | nil => exact absurd rfl h
  | cons c r =>
    have := c.utf8Size_pos
    rw [byteLength_cons]
    omega

theorem takeBytes_zero (s : List Char) : takeBytes 0 s = [] := by
  cases s with
  | nil => rfl
  | cons c r =>
    have := c.utf8Size_pos
    rw [takeBytes, if_neg (by omega)]

theorem takeBytes_append (s t : List Char) : takeBytes (byteLength s) (s ++ t) = s := by
  induction s with
  | nil => exact takeBytes_zero t
  | cons c r ih =>
    rw [List.cons_append, byteLength_cons, takeBytes, if_pos (by omega), Nat.add_sub_cancel_left,
      ih]

theorem takeBytes_byteLength (s : List Char) : takeBytes (byteLength s) s = s := by
  have h := takeBytes_append s []
  rwa [List.append_nil] at h

theorem dropBytes_append (s t : List Char) : dropBytes (byteLength s) (s ++ t) = t := by
  have h := takeBytes_append_dropBytes (byteLength s) (s ++ t)
  rw [takeBytes_append] at h
  exact List.append_cancel_left h

theorem eq_of_byteLength_eq {a b c d : List Char} (h : a ++ b = c ++ d)
    (hl : byteLength a = byteLength c) : a = c ∧ b = d := by
  have ha := takeBytes_append a b
  rw [h, hl, takeBytes_append] at ha
  subst ha
  exact ⟨rfl, List.append_cancel_left h⟩

/-- Of two cuts the one at the smaller offset comes first. -/
theorem exists_append_of_byteLength_le {a b c d : List Char} (h : a ++ b = c ++ d)
    (hl : byteLength a ≤ byteLength c) : ∃ m, c = a ++ m ∧ b = m ++ d := by
  rcases List.append_eq_append_iff.1 h with ⟨m, hc, hb⟩ | ⟨m, ha, hd⟩
  · exact ⟨m, hc, hb⟩
  · have hm : byteLength m = 0 := by
      rw [ha, byteLength_append] at hl
      omega
    obtain rfl : m = [] := Classical.byContradiction fun hne => by
      have hpos := byteLength_pos hne
      omega
    exact ⟨[], by simpa using ha.symm, by simpa using hd.symm⟩

/-- The characters of a text from byte `start` up to byte `stop`. -/
def slice (s : List Char) (start stop : Nat) : List Char :=
  dropBytes start (takeBytes stop s)

theorem slice_append (a w b : List Char) :
    slice (a ++ w ++ b) (byteLength a) (byteLength a + byteLength w) = w := by
  rw [slice, ← byteLength_append, takeBytes_append, dropBytes_append]

theorem slice_behind_colon (lead key value after : List Char) :
    slice (lead ++ (key ++ ':' :: value) ++ after) (byteLength lead + byteLength key + 1)
      (byteLength (lead ++ (key ++ ':' :: value))) = value := by
  have hone : ':'.utf8Size = 1 := by decide
  have h := slice_append (lead ++ key ++ [':']) value after
  simpa [hone, Nat.add_assoc] using h

/-! ## Offsets -/

/-- Byte `n` of a text is a boundary between characters or one of its two ends. -/
def IsBoundary (s : List Char) (n : Nat) : Prop :=
  ∃ a b, s = a ++ b ∧ byteLength a = n

/-- At byte `n` of a text stands the character `c`. -/
def CharAt (s : List Char) (n : Nat) (c : Char) : Prop :=
  ∃ a b, s = a ++ c :: b ∧ byteLength a = n

theorem charAt_append (a b : List Char) (c : Char) : CharAt (a ++ c :: b) (byteLength a) c :=
  ⟨a, b, rfl, rfl⟩

theorem CharAt.exists_cons {a b : List Char} {c : Char} (h : CharAt (a ++ b) (byteLength a) c) :
    ∃ r, b = c :: r := by
  obtain ⟨x, r, hx, hlen⟩ := h
  exact ⟨r, (eq_of_byteLength_eq hx hlen.symm).2⟩

theorem not_charAt_nil (n : Nat) (c : Char) : ¬ CharAt [] n c := by
  rintro ⟨a, b, h, -⟩
  exact absurd h.symm (by simp)

theorem charAt_cons {x c : Char} {r : List Char} {n : Nat} :
    CharAt (x :: r) n c ↔ (x = c ∧ n = 0) ∨ ∃ m, n = x.utf8Size + m ∧ CharAt r m c := by
  constructor
  · rintro ⟨a, b, h, rfl⟩
    cases a with
    | nil => exact Or.inl ⟨(List.cons.inj h).1, rfl⟩
    | cons y a =>
      obtain ⟨rfl, rfl⟩ := List.cons.inj h
      exact Or.inr ⟨byteLength a, rfl, charAt_append a b c⟩
  · rintro (⟨rfl, rfl⟩ | ⟨m, rfl, a, b, rfl, rfl⟩)
    · exact ⟨[], r, rfl, rfl⟩
    · exact ⟨x :: a, b, rfl, rfl⟩

end RowQuery.Text
