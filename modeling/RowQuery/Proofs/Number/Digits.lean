import Mathlib.Algebra.Group.Nat.Defs
import Mathlib.Data.List.Basic
import RowQuery.Number.Digits

/-!
# Numbers with zeros before or behind them

* `length_padded`: a number that has no more digits than wanted is written with as many as wanted.
* `digitsValue_padded`: leading zeros do not change the number.
* `digitsValue_append_zeros`: zeros behind the digits multiply it.
* `head?_digitsOf`: only zero itself is written with a leading zero.
-/

namespace RowQuery

theorem isDigit_of_mem_zeros {k : Nat} {c : Char} (h : c ∈ List.replicate k '0') :
    c.isDigit = true := by
  rw [List.eq_of_mem_replicate h]
  rfl

theorem isDigit_of_mem_padded {width n : Nat} {c : Char} (h : c ∈ padded width n) :
    c.isDigit = true := by
  rcases List.mem_append.1 h with h | h
  · exact isDigit_of_mem_zeros h
  · exact isDigit_of_mem_digitsOf h

theorem padded_ne_nil (width n : Nat) : padded width n ≠ [] := by
  intro h
  exact digitsOf_ne_nil n (List.append_eq_nil_iff.1 h).2

theorem digitCount_pos (n : Nat) : 0 < digitCount n := by
  rw [digitCount]
  split <;> omega

theorem digitCount_le {width n : Nat} (hw : 0 < width) (h : n < 10 ^ width) :
    digitCount n ≤ width := by
  induction width generalizing n with
  | zero => exact absurd hw (by decide)
  | succ w ih =>
    rw [digitCount]
    split
    · omega
    · next hn =>
      have hpos : 0 < w := by
        rcases Nat.eq_zero_or_pos w with rfl | hpos
        · exact absurd h hn
        · exact hpos
      have hdiv : n / 10 < 10 ^ w := by
        rw [Nat.pow_succ] at h
        omega
      exact Nat.succ_le_succ (ih hpos hdiv)

theorem length_padded {width n : Nat} (hw : 0 < width) (h : n < 10 ^ width) :
    (padded width n).length = width := by
  have hle := digitCount_le hw h
  rw [padded, List.length_append, List.length_replicate, length_digitsOf]
  omega

theorem digitsValue_zeros (k : Nat) (s : List Char) :
    digitsValue (List.replicate k '0' ++ s) = digitsValue s := by
  induction k with
  | zero => rfl
  | succ k ih =>
    rw [List.replicate_succ, List.cons_append]
    exact ih

theorem digitsValue_padded (width n : Nat) : digitsValue (padded width n) = n := by
  rw [padded, digitsValue_zeros, digitsValue_digitsOf]

theorem digitsValue_append_zeros (s : List Char) (k : Nat) :
    digitsValue (s ++ List.replicate k '0') = digitsValue s * 10 ^ k := by
  induction k with
  | zero => simp
  | succ k ih =>
    have hzero : '0'.toNat - '0'.toNat = 0 := rfl
    rw [List.replicate_succ', ← List.append_assoc, digitsValue_append_singleton, ih, hzero,
      Nat.add_zero, Nat.pow_succ, Nat.mul_comm (10 ^ k), Nat.mul_left_comm]

theorem digitChar_ne_zero {d : Nat} (hd : d < 10) (h : d ≠ 0) : Nat.digitChar d ≠ '0' := by
  have all : ∀ d < 10, d ≠ 0 → Nat.digitChar d ≠ '0' := by decide
  exact all d hd h

theorem head?_digitsOf {n : Nat} (h : n ≠ 0) : (digitsOf n).head? ≠ some '0' := by
  induction n using Nat.strongRecOn with
  | ind n ih =>
    rw [digitsOf]
    split
    · next hn => simpa using digitChar_ne_zero hn h
    · rw [List.head?_append_of_ne_nil _ (digitsOf_ne_nil _)]
      exact ih (n / 10) (by omega) (by omega)

end RowQuery
