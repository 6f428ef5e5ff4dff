import RowQuery.Text.Basic
import RowQuery.Text.LetterCase

/-!
# Lowercase texts stay as they are

The lowercase form of a letter is never a letter that has one itself, so nothing in a lowercase
text is changed when it is mapped again, and the neighbours of a letter no longer matter.

* `not_covers_lower`: the table of lowercase forms has none of them as an entry.
* `Settled`: a character that is kept wherever it stands.
* `settled_of_isBlank`: white space is such, and `settled_of_mem_lowercase`: a lowercase text has no
  other characters.
* `lowercase_lowercase`, `fold_fold`: mapping to lowercase twice is mapping once.
-/

namespace RowQuery.Text

/-! ## The table -/

/-- The code points of a run. -/
def Run.codePoints (r : Run) : List Nat :=
  List.range' r.first ((r.last - r.first) / r.step + 1) r.step

theorem Run.mem_codePoints {r : Run} {n : Nat} (h : r.covers n = true) : n ∈ r.codePoints := by
  simp only [covers, Bool.and_eq_true, decide_eq_true_eq, beq_iff_eq] at h
  obtain ⟨⟨hfirst, hlast⟩, hstep⟩ := h
  have hn : r.step * ((n - r.first) / r.step) = n - r.first :=
    Nat.mul_div_cancel' (Nat.dvd_of_mod_eq_zero hstep)
  have hle : (n - r.first) / r.step ≤ (r.last - r.first) / r.step :=
    Nat.div_le_div_right (by omega)
  exact List.mem_range'.2 ⟨(n - r.first) / r.step, by omega, by omega⟩

/-- A set of numbers as the binary digits of one number. -/
def bits (l : List Nat) : Nat :=
  l.foldr (fun n b => 1 <<< n ||| b) 0

theorem testBit_bits (l : List Nat) (n : Nat) : (bits l).testBit n = decide (n ∈ l) := by
  induction l with
  | nil => simp [bits]
  | cons m l ih =>
    rw [bits, List.foldr_cons, ← bits, Nat.testBit_or, ih, Nat.one_shiftLeft, Nat.testBit_two_pow]
    by_cases h : n = m
    · simp [h]
    · simp [h, Ne.symm h]

/-- No letter has a lowercase form that has one itself. -/
theorem bits_codePoints_and_bits_lower :
    bits (lowercaseRuns.flatMap Run.codePoints) &&&
      bits (lowercaseRuns.flatMap fun r => r.codePoints.map r.lower) = 0 := by
  decide +kernel

theorem not_covers_lower {r s : Run} (hr : r ∈ lowercaseRuns) (hs : s ∈ lowercaseRuns) {n : Nat}
    (hn : r.covers n = true) : s.covers (r.lower n) = false := by
  rw [Bool.eq_false_iff]
  intro hcovers
  have hupper : r.lower n ∈ lowercaseRuns.flatMap Run.codePoints :=
    List.mem_flatMap.2 ⟨s, hs, Run.mem_codePoints hcovers⟩
  have hlower : r.lower n ∈ lowercaseRuns.flatMap fun r => r.codePoints.map r.lower :=
    List.mem_flatMap.2 ⟨r, hr, List.mem_map_of_mem (Run.mem_codePoints hn)⟩
  have hdisjoint := congrArg (·.testBit (r.lower n)) bits_codePoints_and_bits_lower
  simp only [Nat.testBit_and, testBit_bits, hupper, hlower, Nat.zero_testBit] at hdisjoint
  exact absurd hdisjoint (by decide)

/-- The lowercase forms of a run are characters, and none is `İ`. -/
theorem lower_bounds : ∀ r ∈ lowercaseRuns,
    (r.lower r.last < 0x130 ∨ 0x130 < r.lower r.first) ∧
      (r.lower r.last < 0xD800 ∨ 0xDFFF < r.lower r.first ∧ r.lower r.last < 0x110000) := by
  decide +kernel

theorem lower_mem_bounds {r : Run} {n : Nat} (h : r.covers n = true) :
    r.lower r.first ≤ r.lower n ∧ r.lower n ≤ r.lower r.last := by
  simp only [Run.covers, Bool.and_eq_true, decide_eq_true_eq] at h
  simp only [Run.lower]
  omega

/-! ## Characters -/

/-- A character that a text in lowercase may have: it is mapped to itself, and it is none of the two
letters that are mapped in another way. -/
def Settled (c : Char) : Prop :=
  c ≠ 'Σ' ∧ c ≠ 'İ' ∧ lowerChar c = c

instance (c : Char) : Decidable (Settled c) :=
  inferInstanceAs (Decidable (_ ∧ _ ∧ _))

/-- Of the first characters, only the capital letters are changed. -/
theorem settled_of_ascii : ∀ n < 0x80, Settled (lowerChar (Char.ofNat n)) ∧
    (n < 0x41 ∨ 0x5A < n → Settled (Char.ofNat n)) := by
  decide +kernel

theorem capitals_mem : (⟨0x41, 0x5A, 1, 0x61⟩ : Run) ∈ lowercaseRuns :=
  List.mem_cons_self ..

theorem settled_of_not_covered {c : Char} (hdot : c ≠ 'İ')
    (h : ∀ r ∈ lowercaseRuns, r.covers c.toNat = false) : Settled c := by
  by_cases hascii : c.toNat < 0x80
  · have hcapital : c.toNat < 0x41 ∨ 0x5A < c.toNat := by
      have hno := h _ capitals_mem
      simp only [Run.covers, Nat.mod_one, beq_self_eq_true, Bool.and_true, Bool.and_eq_false_iff,
        decide_eq_false_iff_not] at hno
      omega
    have hsettled := (settled_of_ascii c.toNat hascii).2 hcapital
    rwa [Char.ofNat_toNat] at hsettled
  · have hsigma : ∃ r ∈ lowercaseRuns, r.covers 'Σ'.toNat = true := by decide +kernel
    refine ⟨?_, hdot, ?_⟩
    · rintro rfl
      obtain ⟨r, hr, hcovers⟩ := hsigma
      rw [h r hr] at hcovers
      exact absurd hcovers (by decide)
    · have hnone : lowercaseRuns.find? (·.covers c.toNat) = none :=
        List.find?_eq_none.2 fun r hr => by simp [h r hr]
      rw [lowerChar, if_neg hascii, hnone]

theorem settled_lowerChar {c : Char} (hdot : c ≠ 'İ') : Settled (lowerChar c) := by
  by_cases hascii : c.toNat < 0x80
  · have hsettled := (settled_of_ascii c.toNat hascii).1
    rwa [Char.ofNat_toNat] at hsettled
  · rw [lowerChar, if_neg hascii]
    cases hrun : lowercaseRuns.find? (·.covers c.toNat) with
    | none =>
      have hno := List.find?_eq_none.1 hrun
      exact settled_of_not_covered hdot fun r hr => by simpa using hno r hr
    | some r =>
      have hr := List.mem_of_find?_eq_some hrun
      have hcovers : r.covers c.toNat = true := by simpa using List.find?_some hrun
      obtain ⟨hlow, hhigh⟩ := lower_mem_bounds hcovers
      obtain ⟨hnotdot, hvalid⟩ := lower_bounds r hr
      have hchar : (r.lower c.toNat).isValidChar := by
        unfold Nat.isValidChar
        omega
      have hnat : (Char.ofNat (r.lower c.toNat)).toNat = r.lower c.toNat := by
        rw [Char.ofNat, dif_pos hchar]
        rfl
      show Settled (Char.ofNat (r.lower c.toNat))
      refine settled_of_not_covered ?_ fun s hs => ?_
      · intro heq
        have hnumber : 'İ'.toNat = 0x130 := by decide
        rw [heq, hnumber] at hnat
        omega
      · rw [hnat]
        exact not_covers_lower hr hs hcovers

/-- White space has no case. -/
theorem settled_of_isBlank {c : Char} (h : isBlank c = true) : Settled c := by
  have hall : ∀ n ∈ List.range' 0x9 5 ++ (List.range' 0x2000 11 ++
      [0x20, 0x85, 0xA0, 0x1680, 0x2028, 0x2029, 0x202F, 0x205F, 0x3000]),
        Settled (Char.ofNat n) := by decide +kernel
  simp only [isBlank, Bool.or_eq_true, Bool.and_eq_true, decide_eq_true_eq, beq_iff_eq] at h
  have hsettled := hall c.toNat (by
    simp only [List.mem_append, List.mem_range'_1, List.mem_cons, List.not_mem_nil, or_false]
    omega)
  rwa [Char.ofNat_toNat] at hsettled

/-! ## Texts -/

theorem settled_of_mem_lowercaseAfter {c : Char} {before s : List Char}
    (h : c ∈ lowercaseAfter before s) : Settled c := by
  induction s generalizing before with
  | nil => exact absurd h List.not_mem_nil
  | cons d r ih =>
    rw [lowercaseAfter] at h
    split at h
    · rcases List.mem_cons.1 h with rfl | h
      · split <;> decide +kernel
      · exact ih h
    · split at h
      · rcases List.mem_cons.1 h with rfl | h
        · decide +kernel
        · rcases List.mem_cons.1 h with rfl | h
          · decide +kernel
          · exact ih h
      · next hdot =>
        rcases List.mem_cons.1 h with rfl | h
        · exact settled_lowerChar hdot
        · exact ih h

theorem settled_of_mem_lowercase {c : Char} {s : List Char} (h : c ∈ lowercase s) : Settled c :=
  settled_of_mem_lowercaseAfter h

/-- Without the two letters that are mapped in another way, neighbours do not matter. -/
theorem lowercaseAfter_eq_map {s : List Char} (h : ∀ c ∈ s, c ≠ 'Σ' ∧ c ≠ 'İ')
    (before : List Char) : lowercaseAfter before s = s.map lowerChar := by
  induction s generalizing before with
  | nil => rfl
  | cons c r ih =>
    obtain ⟨hsigma, hdot⟩ := h c (List.mem_cons_self ..)
    rw [lowercaseAfter, if_neg hsigma, if_neg hdot, List.map_cons,
      ih fun d hd => h d (List.mem_cons_of_mem _ hd)]

theorem lowercaseAfter_of_settled {s : List Char} (h : ∀ c ∈ s, Settled c) (before : List Char) :
    lowercaseAfter before s = s := by
  rw [lowercaseAfter_eq_map fun c hc => ⟨(h c hc).1, (h c hc).2.1⟩]
  have hkept : s.map lowerChar = s.map id := List.map_congr_left fun c hc => (h c hc).2.2
  rw [hkept, List.map_id]

/-- **A lowercase text is its own lowercase form.** -/
theorem lowercase_lowercase (s : List Char) : lowercase (lowercase s) = lowercase s :=
  lowercaseAfter_of_settled (fun _ hc => settled_of_mem_lowercase hc) []

@[simp] theorem fold_fold (s : String) : fold (fold s) = fold s := by
  rw [fold, toList_fold, lowercase_lowercase, fold]

end RowQuery.Text
