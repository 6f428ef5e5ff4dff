import RowQuery.Proofs.Number.Rounding

/-!
# The double nearest to a decimal number

* `Decimal.toDouble_natCast`, `Decimal.toDouble_neg`: the ratio that is rounded, for powers of ten
  that are not far too large or small.
* `Decimal.toDouble_tenths`: zeros may be written behind the digits.
* `exists_position`: a text that spells a number spells a finite one.
-/

namespace RowQuery

theorem unitsPerOne_pos : 0 < unitsPerOne := by decide +kernel

theorem unitsLimit_eq : unitsLimit = 2 ^ 1024 * unitsPerOne := by decide +kernel

namespace Decimal

variable {digits k : Nat}

theorem toDouble_zero (negative : Bool) (scale : Int) :
    (⟨negative, 0, scale⟩ : Decimal).toDouble = .finite negative 0 := by
  rw [toDouble, if_pos rfl]

theorem toDouble_natCast (h : digits ≠ 0) (hk : k ≤ 400) (negative : Bool) :
    (⟨negative, digits, k⟩ : Decimal).toDouble =
      .ofRatio negative (digits * 10 ^ k * unitsPerOne) 1 := by
  rw [toDouble, if_neg h, if_neg (by simp only; omega), if_neg (by simp only; omega)]
  rfl

theorem toDouble_neg (h : digits ≠ 0) (hk : k ≤ 1100) (negative : Bool) :
    (⟨negative, digits, -k⟩ : Decimal).toDouble =
      .ofRatio negative (digits * unitsPerOne) (10 ^ k) := by
  rw [toDouble, if_neg h, if_neg (by simp only; omega), if_neg (by simp only; omega)]
  cases k with
  | zero =>
    show Double.ofRatio negative (digits * 1 * unitsPerOne) 1 = _
    rw [Nat.mul_one, Nat.pow_zero]
  | succ k => rfl

/-- Zeros behind the digits and one behind the point change nothing. -/
theorem toDouble_tenths (h : digits ≠ 0) (hk : k ≤ 400) (negative : Bool) :
    (⟨negative, digits * 10 ^ (k + 1), -1⟩ : Decimal).toDouble =
      (⟨negative, digits, k⟩ : Decimal).toDouble := by
  have hpos : digits * 10 ^ (k + 1) ≠ 0 :=
    Nat.mul_ne_zero h (Nat.ne_of_gt (Nat.pow_pos (by decide)))
  have hsplit : digits * 10 ^ (k + 1) * unitsPerOne = digits * 10 ^ k * unitsPerOne * 10 := by
    rw [Nat.pow_succ, ← Nat.mul_assoc, Nat.mul_right_comm]
  have htenths := toDouble_neg (k := 1) hpos (by decide) negative
  have hratio := Double.ofRatio_mul_right negative (digits * 10 ^ k * unitsPerOne) 1
    (k := 10) (by decide)
  rw [toDouble_natCast h hk, ← hratio, ← hsplit]
  exact htenths

end Decimal

/-- The finite number that a text spells lies somewhere. -/
theorem exists_position {text : List Char} {x : Double} (h : number? text = some x) :
    ∃ units, x.position = some units := by
  obtain ⟨-, hfinite⟩ := Option.filter_eq_some_iff.1 h
  cases x with
  | finite negative units => exact ⟨Double.signed negative units, rfl⟩
  | infinite negative => cases hfinite
  | nan => cases hfinite

end RowQuery
