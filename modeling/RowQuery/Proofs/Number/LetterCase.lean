import RowQuery.Number.Decimal
import RowQuery.Proofs.Text.Blank
import RowQuery.Proofs.Text.LetterCase

/-!
# Numbers in any case

The only letter of a number is that of its exponent, which may be written in either case.  So texts
that differ in case only spell the same number.

* `Decimal.ofText?_map`: the letter of the exponent in lowercase.
* `Decimal.isNumeral_of_mem`: the characters of a number.
* `number?_lowercase`: the lowercase form of a number is that number.
* `number?_eq_of_lowercase_eq`: two numbers that differ in case only are one.
-/

namespace RowQuery

open Text (isBlank lowercase lowerChar)

/-- The lowercase form of the letter that an exponent begins with; all else is kept. -/
def lowerExponent (c : Char) : Char :=
  if c = 'E' then 'e' else c

theorem lowerExponent_eq_iff {c d : Char} (hd : d ≠ 'e' ∧ d ≠ 'E') :
    lowerExponent c = d ↔ c = d := by
  unfold lowerExponent
  split
  · next hc =>
    rw [hc]
    exact ⟨fun h => absurd h.symm hd.1, fun h => absurd h.symm hd.2⟩
  · exact Iff.rfl

theorem lowerExponent_letter (c : Char) :
    (lowerExponent c = 'e' ∨ lowerExponent c = 'E') ↔ (c = 'e' ∨ c = 'E') := by
  unfold lowerExponent
  split
  · next hc => simp [hc]
  · exact Iff.rfl

theorem isDigit_lowerExponent (c : Char) : (lowerExponent c).isDigit = c.isDigit := by
  unfold lowerExponent
  split
  · next hc =>
    rw [hc]
    decide
  · rfl

theorem isBlank_lowerExponent (c : Char) : isBlank (lowerExponent c) = isBlank c := by
  unfold lowerExponent
  split
  · next hc =>
    rw [hc]
    decide
  · rfl

namespace Decimal

variable {s : List Char}

/-! ## Parts of a number -/

theorem sign_cons (c : Char) (r : List Char) :
    sign (c :: r) =
      if c = '-' then (true, r) else if c = '+' then (false, r) else (false, c :: r) := by
  unfold sign
  split <;> simp_all

theorem fraction_cons (c : Char) (r : List Char) :
    fraction (c :: r) = if c = '.' then (leadingDigits r, afterDigits r) else ([], c :: r) := by
  unfold fraction
  split <;> simp_all

theorem leadingDigits_map (s : List Char) :
    leadingDigits (s.map lowerExponent) = leadingDigits s := by
  induction s with
  | nil => rfl
  | cons c r ih =>
    unfold leadingDigits at ih ⊢
    rw [List.map_cons, List.takeWhile_cons, List.takeWhile_cons, isDigit_lowerExponent, ih]
    split
    · next hdigit =>
      have hne : c ≠ 'E' := by
        rintro rfl
        exact absurd hdigit (by decide)
      rw [lowerExponent, if_neg hne]
    · rfl

theorem afterDigits_map (s : List Char) :
    afterDigits (s.map lowerExponent) = (afterDigits s).map lowerExponent := by
  unfold afterDigits
  rw [List.dropWhile_map]
  congr 2
  funext c
  exact isDigit_lowerExponent c

theorem sign_map (s : List Char) :
    sign (s.map lowerExponent) = ((sign s).1, (sign s).2.map lowerExponent) := by
  cases s with
  | nil => rfl
  | cons c r =>
    rw [List.map_cons, sign_cons, sign_cons]
    simp only [lowerExponent_eq_iff (d := '-') (by decide),
      lowerExponent_eq_iff (d := '+') (by decide)]
    split
    · rfl
    · split <;> rfl

theorem fraction_map (s : List Char) :
    fraction (s.map lowerExponent) = ((fraction s).1, (fraction s).2.map lowerExponent) := by
  cases s with
  | nil => rfl
  | cons c r =>
    rw [List.map_cons, fraction_cons, fraction_cons]
    simp only [lowerExponent_eq_iff (d := '.') (by decide), leadingDigits_map, afterDigits_map]
    split <;> rfl

theorem exponent?_map (s : List Char) : exponent? (s.map lowerExponent) =
    (exponent? s).map fun p => (p.1, p.2.map lowerExponent) := by
  unfold exponent?
  simp only [sign_map, leadingDigits_map, afterDigits_map]
  split <;> rfl

/-- The letter of the exponent may be written in either case. -/
theorem ofText?_map (s : List Char) : ofText? (s.map lowerExponent) = ofText? s := by
  unfold ofText?
  simp only [sign_map, leadingDigits_map, afterDigits_map, fraction_map]
  generalize fraction (afterDigits (sign s).2) = p
  obtain ⟨part, rest⟩ := p
  cases rest with
  | nil => rfl
  | cons c r =>
    simp only [List.map_cons, lowerExponent_letter, exponent?_map]
    cases exponent? r with
    | none => rfl
    | some p =>
      obtain ⟨e, rest⟩ := p
      cases rest <;> rfl

/-! ## The characters of a number -/

/-- A character that a number may have. -/
def IsNumeral (c : Char) : Prop :=
  c.isDigit = true ∨ c ∈ ['+', '-', '.', 'e', 'E']

theorem mem_sign {c : Char} (h : c ∈ s) : IsNumeral c ∨ c ∈ (sign s).2 := by
  cases s with
  | nil => exact absurd h List.not_mem_nil
  | cons d r =>
    rw [sign_cons]
    rcases List.mem_cons.1 h with rfl | h
    · split
      · next hc => exact Or.inl (Or.inr (by simp [hc]))
      · split
        · next hc => exact Or.inl (Or.inr (by simp [hc]))
        · exact Or.inr (List.mem_cons_self ..)
    · split
      · exact Or.inr h
      · split
        · exact Or.inr h
        · exact Or.inr (List.mem_cons_of_mem _ h)

theorem mem_afterDigits {c : Char} (h : c ∈ s) : IsNumeral c ∨ c ∈ afterDigits s := by
  have happ : s.takeWhile Char.isDigit ++ afterDigits s = s := List.takeWhile_append_dropWhile
  rw [← happ] at h
  rcases List.mem_append.1 h with h | h
  · exact Or.inl (Or.inl (List.all_eq_true.1 List.all_takeWhile c h))
  · exact Or.inr h

theorem mem_fraction {c : Char} (h : c ∈ s) : IsNumeral c ∨ c ∈ (fraction s).2 := by
  cases s with
  | nil => exact absurd h List.not_mem_nil
  | cons d r =>
    rw [fraction_cons]
    split
    · next hd =>
      rcases List.mem_cons.1 h with rfl | h
      · exact Or.inl (Or.inr (by simp [hd]))
      · exact mem_afterDigits h
    · exact Or.inr h

theorem isNumeral_of_exponent {e : Int} (h : exponent? s = some (e, [])) :
    ∀ c ∈ s, IsNumeral c := by
  intro c hc
  unfold exponent? at h
  dsimp only at h
  split at h
  · cases h
  · obtain ⟨-, hend⟩ := Prod.mk.inj (Option.some.inj h)
    rcases mem_sign hc with hc | hc
    · exact hc
    · rcases mem_afterDigits hc with hc | hc
      · exact hc
      · rw [hend] at hc
        exact absurd hc List.not_mem_nil

theorem isNumeral_of_mem {d : Decimal} (h : ofText? s = some d) : ∀ c ∈ s, IsNumeral c := by
  intro c hc
  have hrest : IsNumeral c ∨ c ∈ (fraction (afterDigits (sign s).2)).2 := by
    rcases mem_sign hc with hc | hc
    · exact Or.inl hc
    · rcases mem_afterDigits hc with hc | hc
      · exact Or.inl hc
      · exact mem_fraction hc
  refine hrest.elim id fun hc => ?_
  unfold ofText? at h
  dsimp only at h
  generalize (fraction (afterDigits (sign s).2)).2 = rest at h hc
  split at h
  · cases h
  · cases rest with
    | nil => exact absurd hc List.not_mem_nil
    | cons b r =>
      dsimp only at h
      split at h
      · next hletter =>
        split at h
        · next e he =>
          rcases List.mem_cons.1 hc with rfl | hc
          · exact Or.inr (by rcases hletter with rfl | rfl <;> simp)
          · exact isNumeral_of_exponent he c hc
        · cases h
      · cases h

end Decimal

/-! ## Lowercase forms -/

theorem trimLeft_map (s : List Char) :
    Text.trimLeft (s.map lowerExponent) = (Text.trimLeft s).map lowerExponent := by
  unfold Text.trimLeft
  rw [List.dropWhile_map]
  congr 2
  funext c
  exact isBlank_lowerExponent c

theorem trim_map (s : List Char) :
    Text.trim (s.map lowerExponent) = (Text.trim s).map lowerExponent := by
  rw [Text.trim, trimLeft_map, ← List.map_reverse, trimLeft_map, ← List.map_reverse, Text.trim]

theorem number?_map (s : List Char) : number? (s.map lowerExponent) = number? s := by
  rw [number?, trim_map, Decimal.ofText?_map, number?]

theorem lowerChar_of_settled {c : Char} (h : Text.Settled c) (hcapital : c ≠ 'E') :
    c ≠ 'Σ' ∧ c ≠ 'İ' ∧ lowerChar c = lowerExponent c := by
  rw [lowerExponent, if_neg hcapital]
  exact h

theorem lowerChar_of_isNumeral {c : Char} (h : Decimal.IsNumeral c) :
    c ≠ 'Σ' ∧ c ≠ 'İ' ∧ lowerChar c = lowerExponent c := by
  by_cases hcapital : c = 'E'
  · subst hcapital
    decide +kernel
  · have hrange : c.toNat < 0x80 ∧ (c.toNat < 0x41 ∨ 0x5A < c.toNat) := by
      rcases h with hdigit | hmem
      · have hrange : 48 ≤ c.toNat ∧ c.toNat ≤ 57 := by
          simpa [Char.isDigit, UInt32.le_iff_toNat_le] using hdigit
        omega
      · simp only [List.mem_cons, hcapital, List.not_mem_nil, or_false] at hmem
        rcases hmem with rfl | rfl | rfl | rfl <;> decide
    have hsettled := (Text.settled_of_ascii c.toNat hrange.1).2 hrange.2
    rw [Char.ofNat_toNat] at hsettled
    exact lowerChar_of_settled hsettled hcapital

theorem lowerChar_of_isBlank {c : Char} (h : isBlank c = true) :
    c ≠ 'Σ' ∧ c ≠ 'İ' ∧ lowerChar c = lowerExponent c := by
  refine lowerChar_of_settled (Text.settled_of_isBlank h) ?_
  rintro rfl
  exact absurd h (by decide)

/-- In lowercase, only the letter of the exponent of a number is changed. -/
theorem lowercase_of_number {s : List Char} {x : Double} (h : number? s = some x) :
    lowercase s = s.map lowerExponent := by
  obtain ⟨hx, -⟩ := Option.filter_eq_some_iff.1 h
  obtain ⟨d, hd, -⟩ := Option.map_eq_some_iff.1 hx
  have hchars (c : Char) (hc : c ∈ s) : c ≠ 'Σ' ∧ c ≠ 'İ' ∧ lowerChar c = lowerExponent c :=
    (Text.isBlank_or_mem_trim hc).elim lowerChar_of_isBlank fun hc =>
      lowerChar_of_isNumeral (Decimal.isNumeral_of_mem hd c hc)
  rw [lowercase, Text.lowercaseAfter_eq_map fun c hc => ⟨(hchars c hc).1, (hchars c hc).2.1⟩]
  exact List.map_congr_left fun c hc => (hchars c hc).2.2

theorem number?_lowercase {s : List Char} {x : Double} (h : number? s = some x) :
    number? (lowercase s) = some x := by
  rw [lowercase_of_number h, number?_map, h]

/-- Numbers that differ in case only are one number. -/
theorem number?_eq_of_lowercase_eq {s t : List Char} {x y : Double} (hs : number? s = some x)
    (ht : number? t = some y) (h : lowercase s = lowercase t) : x = y := by
  have hx := number?_lowercase hs
  rw [h, number?_lowercase ht] at hx
  exact (Option.some.inj hx).symm

end RowQuery
