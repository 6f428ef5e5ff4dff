/-!
# Decimal digits

* `digitsOf`: a natural number as it is written, without leading zeros.
* `digitsValue`: the number that a run of digits spells, leading zeros or not.
* `digitsValue_digitsOf`: what is written is read back.
-/

namespace RowQuery

/-- The decimal digits of a natural number. -/
def digitsOf (n : Nat) : List Char :=
  if n < 10 then [Nat.digitChar n] else digitsOf (n / 10) ++ [Nat.digitChar (n % 10)]

/-- How many digits a natural number has. -/
def digitCount (n : Nat) : Nat :=
  if n < 10 then 1 else digitCount (n / 10) + 1

/-- The digits of a number with zeros before them, at least `width` characters. -/
def padded (width n : Nat) : List Char :=
  List.replicate (width - (digitsOf n).length) '0' ++ digitsOf n

/-- The number that a run of digits spells. -/
def digitsValue (s : List Char) : Nat :=
  s.foldl (fun n c => 10 * n + (c.toNat - '0'.toNat)) 0

/-! ## Writing and reading -/

theorem digitChar_cases {d : Nat} (h : d < 10) :
    (Nat.digitChar d).isDigit = true ∧ (Nat.digitChar d).toNat - '0'.toNat = d := by
  have all : ∀ d < 10, (Nat.digitChar d).isDigit = true ∧
      (Nat.digitChar d).toNat - '0'.toNat = d := by decide
  exact all d h

theorem length_digitsOf (n : Nat) : (digitsOf n).length = digitCount n := by
  induction n using Nat.strongRecOn with
  | ind n ih =>
    rw [digitsOf, digitCount]
    split
    · rfl
    · simp [ih (n / 10) (by omega)]

theorem digitsOf_ne_nil (n : Nat) : digitsOf n ≠ [] := by
  rw [digitsOf]
  split <;> simp

theorem isDigit_of_mem_digitsOf {n : Nat} {c : Char} (h : c ∈ digitsOf n) : c.isDigit = true := by
  induction n using Nat.strongRecOn with
  | ind n ih =>
    rw [digitsOf] at h
    split at h
    · next hn =>
      rw [List.mem_singleton.1 h]
      exact (digitChar_cases hn).1
    · next hn =>
      rcases List.mem_append.1 h with h | h
      · exact ih (n / 10) (by omega) h
      · rw [List.mem_singleton.1 h]
        exact (digitChar_cases (Nat.mod_lt _ (by decide))).1

theorem digitsValue_append_singleton (s : List Char) (c : Char) :
    digitsValue (s ++ [c]) = 10 * digitsValue s + (c.toNat - '0'.toNat) := by
  simp [digitsValue]

theorem digitsValue_digitsOf (n : Nat) : digitsValue (digitsOf n) = n := by
  induction n using Nat.strongRecOn with
  | ind n ih =>
    rw [digitsOf]
    split
    · next hn => simpa [digitsValue] using (digitChar_cases hn).2
    · rw [digitsValue_append_singleton, ih (n / 10) (by omega),
        (digitChar_cases (Nat.mod_lt n (by decide))).2]
      omega

end RowQuery
