import Mathlib.Data.Nat.Prime.Basic
import RowQuery.Number.Shortest
import RowQuery.Proofs.Number.Decimal

/-!
# The shortest decimal is read as the double it stands for

Digits are dropped only if what is left is read as the same double, and with all its digits a
decimal is the double itself, which is rounded already.

* `exactDecimal_spec`: all digits of a double.
* `shortestFrom_cases`: no digit is dropped, or what is left has been tested.
* `toDouble_shortest`: the shortest decimal is read back.
-/

namespace RowQuery

/-! ## All digits -/

theorem unitsPerOne_eq : unitsPerOne = 2 ^ 1074 := by decide +kernel

/-- A fraction of a power of two is extended to one of a power of ten. -/
theorem exact_two_pow (units : Nat) {one n : Nat} (hone : one = 2 ^ n) :
    units / units.gcd one * 5 ^ (one / units.gcd one).log2 * one =
        units * 10 ^ (one / units.gcd one).log2 ∧
      (one / units.gcd one).log2 ≤ n := by
  have hdvd_one : units.gcd one ∣ 2 ^ n := hone ▸ Nat.gcd_dvd_right units one
  obtain ⟨j, hj, hcommon⟩ := (Nat.dvd_prime_pow Nat.prime_two).1 hdvd_one
  have hdvd : 2 ^ j ∣ units := hcommon ▸ Nat.gcd_dvd_left units one
  have hplaces : (one / 2 ^ j).log2 = n - j := by
    rw [hone, Nat.pow_div hj (by decide), Nat.log2_two_pow]
  have hsplit : one = 2 ^ j * 2 ^ (n - j) := by rw [hone, ← Nat.pow_add, Nat.add_sub_cancel' hj]
  rw [hcommon, hplaces]
  refine ⟨?_, Nat.sub_le n j⟩
  calc units / 2 ^ j * 5 ^ (n - j) * one
      = units / 2 ^ j * 2 ^ j * (5 ^ (n - j) * 2 ^ (n - j)) := by
        rw [hsplit, Nat.mul_assoc, Nat.mul_left_comm (5 ^ (n - j)), ← Nat.mul_assoc]
    _ = units * 10 ^ (n - j) := by
        rw [Nat.div_mul_cancel hdvd, ← Nat.mul_pow]

/-- All digits of a number of units spell that number. -/
theorem exactDecimal_spec (units : Nat) :
    (exactDecimal units).1 * unitsPerOne = units * 10 ^ (exactDecimal units).2 ∧
      (exactDecimal units).2 ≤ 1074 := by
  simp only [exactDecimal, Nat.pow_eq]
  exact exact_two_pow units unitsPerOne_eq

theorem exactDecimal_ne_zero {units : Nat} (h : units ≠ 0) : (exactDecimal units).1 ≠ 0 := by
  intro hzero
  obtain ⟨hexact, -⟩ := exactDecimal_spec units
  rw [hzero, Nat.zero_mul] at hexact
  exact absurd hexact.symm (Nat.mul_ne_zero h (Nat.ne_of_gt (Nat.pow_pos (by decide))))

theorem toDouble_exactDecimal {units : Nat} (h : units ≠ 0) (hrounded : IsRounded units)
    (hlt : units < unitsLimit) :
    (⟨false, (exactDecimal units).1, -(exactDecimal units).2⟩ : Decimal).toDouble =
      .finite false units := by
  obtain ⟨hexact, hplaces⟩ := exactDecimal_spec units
  rw [Decimal.toDouble_neg (exactDecimal_ne_zero h) (by omega), hexact]
  exact Double.ofRatio_mul_self false hrounded hlt (Nat.pow_pos (by decide))

/-! ## Fewer digits -/

theorem shortened?_eq_some {units digits places drop : Nat} {d : Decimal}
    (h : shortened? units digits places drop = some d) :
    d.negative = false ∧ d.toDouble = .finite false units := by
  unfold shortened? at h
  extract_lets power below candidate fits nearest other at h
  by_cases hnearest : fits nearest = true
  · rw [if_pos hnearest] at h
    cases h
    exact ⟨rfl, of_decide_eq_true hnearest⟩
  · rw [if_neg hnearest] at h
    by_cases hother : fits other = true
    · rw [if_pos hother] at h
      cases h
      exact ⟨rfl, of_decide_eq_true hother⟩
    · rw [if_neg hother] at h
      cases h

/-- No digit is dropped, or what is left has been tested. -/
theorem shortestFrom_cases (units digits places drop : Nat) :
    shortestFrom units digits places drop = ⟨false, digits, -places⟩ ∨
      (shortestFrom units digits places drop).negative = false ∧
        (shortestFrom units digits places drop).toDouble = .finite false units := by
  induction drop with
  | zero => exact Or.inl rfl
  | succ drop ih =>
    rw [shortestFrom]
    cases hd : shortened? units digits places (drop + 1) with
    | none => exact ih
    | some d => exact Or.inr (shortened?_eq_some hd)

theorem shortest_eq (units : Nat) : shortest units = shortestFrom units (exactDecimal units).1
    (exactDecimal units).2 (digitCount (exactDecimal units).1) := by
  unfold shortest
  split
  next digits places h => rw [h]

theorem shortest_cases (units : Nat) :
    shortest units = ⟨false, (exactDecimal units).1, -(exactDecimal units).2⟩ ∨
      (shortest units).negative = false ∧ (shortest units).toDouble = .finite false units := by
  rw [shortest_eq]
  exact shortestFrom_cases units _ _ _

theorem negative_shortest (units : Nat) : (shortest units).negative = false := by
  obtain hexact | ⟨hnegative, -⟩ := shortest_cases units
  · rw [hexact]
  · exact hnegative

theorem digits_shortest_ne_zero {units : Nat} (h : units ≠ 0) : (shortest units).digits ≠ 0 := by
  obtain hexact | ⟨hnegative, hread⟩ := shortest_cases units
  · rw [hexact]
    exact exactDecimal_ne_zero h
  · intro hzero
    have heq : shortest units = ⟨(shortest units).negative, 0, (shortest units).scale⟩ := by
      rw [← hzero]
    rw [heq, Decimal.toDouble_zero, hnegative] at hread
    exact h (Double.finite.inj hread).2.symm

/-- **The shortest decimal is read as the double it stands for.** -/
theorem toDouble_shortest {units : Nat} (h : units ≠ 0) (hrounded : IsRounded units)
    (hlt : units < unitsLimit) : (shortest units).toDouble = .finite false units := by
  obtain hexact | ⟨-, hread⟩ := shortest_cases units
  · rw [hexact]
    exact toDouble_exactDecimal h hrounded hlt
  · exact hread

end RowQuery
