import Mathlib.Algebra.Group.Nat.Defs
import RowQuery.Number.Decimal

/-!
# Rounded numbers stay as they are

A ratio is rounded to 53 significant bits, and a number that has no more of them is its own rounded
form, whatever ratio it is written as.

* `roundUnits_mul_right`: only the value of a ratio matters.
* `IsRounded`: a number of units with at most 53 significant bits.
* `isRounded_roundUnits`, `roundUnits_of_isRounded`: rounding gives such numbers, and keeps them.
* `Double.IsReadable`, `Double.isReadable_ofRatio`: the finite doubles that ratios are rounded to.
* `Double.ofRatio_mul_self`: such a double needs no rounding.
* `Double.isReadable_mul`, `Double.isReadable_div`: products and quotients are such.
-/

namespace RowQuery

/-! ## Rounding ratios -/

theorem roundDiv_mul_right (num den : Nat) {k : Nat} (hk : 0 < k) :
    roundDiv (num * k) (den * k) = roundDiv num den := by
  have hlt (a b : Nat) : a * k < b * k ↔ a < b := Nat.mul_lt_mul_right hk
  simp only [roundDiv, Nat.mul_div_mul_right num den hk, Nat.mul_mod_mul_right, ← Nat.mul_assoc,
    hlt]

theorem lastBit_mul_right (num den : Nat) {k : Nat} (hk : 0 < k) :
    lastBit (num * k) (den * k) = lastBit num den := by
  rw [lastBit, Nat.mul_div_mul_right num den hk, lastBit]

/-- Only the value of a ratio matters. -/
theorem roundUnits_mul_right (num den : Nat) {k : Nat} (hk : 0 < k) :
    roundUnits (num * k) (den * k) = roundUnits num den := by
  rw [roundUnits, lastBit_mul_right num den hk, Nat.mul_right_comm den k,
    roundDiv_mul_right _ _ hk, roundUnits]

theorem roundDiv_self_mul (n : Nat) {den : Nat} (h : 0 < den) : roundDiv (n * den) den = n := by
  simp [roundDiv, Nat.mul_div_cancel n h, Nat.mul_mod_left, h]

theorem roundDiv_le (num den : Nat) : roundDiv num den ≤ num / den + 1 := by
  unfold roundDiv
  dsimp only
  split
  · omega
  · split <;> omega

/-! ## Rounded numbers -/

/-- Whether a number has at most 53 significant bits. -/
def IsRounded (n : Nat) : Prop :=
  2 ^ (n.log2 - 52) ∣ n

theorem isRounded_zero : IsRounded 0 := by
  simp [IsRounded]

/-- Up to 53 bits with zeros after them. -/
theorem isRounded_mul_two_pow {n : Nat} (h : n ≤ 2 ^ 53) (k : Nat) : IsRounded (n * 2 ^ k) := by
  rcases Nat.eq_zero_or_pos n with rfl | hpos
  · rw [Nat.zero_mul]
    exact isRounded_zero
  have hne : n * 2 ^ k ≠ 0 := Nat.mul_ne_zero (by omega) (by simp)
  rcases Nat.lt_or_eq_of_le h with hlt | rfl
  · have hbits : (n * 2 ^ k).log2 < 53 + k := by
      rw [Nat.log2_lt hne, Nat.pow_add]
      exact Nat.mul_lt_mul_of_pos_right hlt (Nat.two_pow_pos k)
    exact Nat.dvd_trans (Nat.pow_dvd_pow 2 (by omega)) (Nat.dvd_mul_left ..)
  · have hbits : (2 ^ 53 * 2 ^ k).log2 < 54 + k := by
      rw [Nat.log2_lt hne, ← Nat.pow_add]
      exact Nat.pow_lt_pow_right (by decide) (by omega)
    rw [IsRounded, ← Nat.pow_add] at *
    exact Nat.pow_dvd_pow 2 (by omega)

/-- After the bits that are not kept are cut off, no more than 53 are left. -/
theorem roundDiv_lastBit_le (num den : Nat) :
    roundDiv num (den * 2 ^ lastBit num den) ≤ 2 ^ 53 := by
  have hle := roundDiv_le num (den * 2 ^ lastBit num den)
  have hlt : num / (den * 2 ^ lastBit num den) < 2 ^ 53 := by
    rw [← Nat.div_div_eq_div_mul, Nat.div_lt_iff_lt_mul (Nat.two_pow_pos _), ← Nat.pow_add]
    have hself : num / den < 2 ^ ((num / den).log2 + 1) := Nat.lt_log2_self
    exact Nat.lt_of_lt_of_le hself (Nat.pow_le_pow_right (by decide) (by unfold lastBit; omega))
  omega

theorem isRounded_roundUnits (num den : Nat) : IsRounded (roundUnits num den) :=
  isRounded_mul_two_pow (roundDiv_lastBit_le num den) (lastBit num den)

/-- A rounded number is its own rounded form. -/
theorem roundUnits_of_isRounded {n : Nat} (h : IsRounded n) {k : Nat} (hk : 0 < k) :
    roundUnits (n * k) k = n := by
  obtain ⟨m, hm⟩ := h
  have hone := roundUnits_mul_right n 1 hk
  rw [Nat.one_mul] at hone
  have hbit : lastBit n 1 = n.log2 - 52 := by rw [lastBit, Nat.div_one]
  have hround : roundUnits n 1 = roundDiv (m * 2 ^ (n.log2 - 52)) (2 ^ (n.log2 - 52)) *
      2 ^ (n.log2 - 52) := by
    rw [roundUnits, hbit, Nat.one_mul, Nat.mul_comm m, ← hm]
    rfl
  rw [hone, hround, roundDiv_self_mul m (Nat.two_pow_pos _), Nat.mul_comm, ← hm]

/-! ## Doubles -/

theorem unitsLimit_pos : 0 < unitsLimit := by decide +kernel

namespace Double

/-- A finite double that some number is rounded to. -/
inductive IsReadable : Double → Prop
  | finite (negative : Bool) {units : Nat} (rounded : IsRounded units)
      (lt_limit : units < unitsLimit) : IsReadable (.finite negative units)

theorem ofRatio_eq (negative : Bool) (num den : Nat) : ofRatio negative num den =
    if roundUnits num den < unitsLimit then .finite negative (roundUnits num den)
    else .infinite negative := rfl

theorem ofRatio_of_lt (negative : Bool) {num den : Nat} (h : roundUnits num den < unitsLimit) :
    ofRatio negative num den = .finite negative (roundUnits num den) := by
  rw [ofRatio_eq, if_pos h]

theorem roundUnits_lt_of_isFinite {negative : Bool} {num den : Nat}
    (h : (ofRatio negative num den).isFinite = true) : roundUnits num den < unitsLimit := by
  rcases Nat.lt_or_ge (roundUnits num den) unitsLimit with hlt | hge
  · exact hlt
  · rw [ofRatio_eq, if_neg (Nat.not_lt.2 hge)] at h
    cases h

theorem isReadable_ofRatio {negative : Bool} {num den : Nat}
    (h : (ofRatio negative num den).isFinite = true) : (ofRatio negative num den).IsReadable := by
  have hlt := roundUnits_lt_of_isFinite h
  rw [ofRatio_of_lt negative hlt]
  exact .finite negative (isRounded_roundUnits num den) hlt

/-- A ratio that is a rounded number needs no rounding. -/
theorem ofRatio_mul_self (negative : Bool) {units : Nat} (hrounded : IsRounded units)
    (hlt : units < unitsLimit) {k : Nat} (hk : 0 < k) :
    ofRatio negative (units * k) k = .finite negative units := by
  have hself := roundUnits_of_isRounded hrounded hk
  rw [ofRatio_of_lt negative (by rw [hself]; exact hlt), hself]

/-- Only the value of a ratio matters. -/
theorem ofRatio_mul_right (negative : Bool) (num den : Nat) {k : Nat} (hk : 0 < k) :
    ofRatio negative (num * k) (den * k) = ofRatio negative num den := by
  unfold ofRatio
  rw [roundUnits_mul_right num den hk]

/-! ### Products and quotients -/

variable {x y : Double}

theorem isReadable_zero (negative : Bool) : (finite negative 0).IsReadable :=
  .finite negative isRounded_zero unitsLimit_pos

theorem IsReadable.neg (h : x.IsReadable) : x.neg.IsReadable := by
  cases h with
  | finite negative hrounded hlt => exact .finite (!negative) hrounded hlt

theorem isReadable_mul (h : (x.mul y).isFinite = true) : (x.mul y).IsReadable := by
  cases x with
  | finite s m =>
    cases y with
    | finite t n =>
      rw [mul] at h ⊢
      exact isReadable_ofRatio h
    | infinite t =>
      rw [mul] at h
      split at h <;> cases h
    | nan => cases h
  | infinite s =>
    cases y with
    | finite t n =>
      rw [mul] at h
      split at h <;> cases h
    | infinite t | nan => cases h
  | nan => cases h

theorem isReadable_div (h : (x.div y).isFinite = true) : (x.div y).IsReadable := by
  cases x with
  | finite s m =>
    cases y with
    | finite t n =>
      rw [div] at h ⊢
      split
      · next hzero =>
        rw [if_pos hzero] at h
        split at h <;> cases h
      · next hne =>
        rw [if_neg hne] at h
        exact isReadable_ofRatio h
    | infinite t => exact isReadable_zero (s != t)
    | nan => cases h
  | infinite s => cases y <;> cases h
  | nan => cases h

end Double

end RowQuery
