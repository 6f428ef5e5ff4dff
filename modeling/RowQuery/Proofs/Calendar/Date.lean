import RowQuery.Calendar.Instant
import RowQuery.Proofs.Number.Digits
import RowQuery.Proofs.Text.Blank
import RowQuery.Proofs.Text.Words

/-!
# Dates that are written and read

The text of a date is neither a date with a time nor anything but the date.

* `Date.mem_text`: the characters of a date.
* `Instant.readDate_text`: a date is read back, whatever follows it.
* `Instant.ofText?_text`: the text of a date spells the midnight at which it begins.
-/

namespace RowQuery

open Text (isBlank trim trimLeft takeWhile_append_stop trimLeft_cons trimLeft_of_head
  trim_of_not_blank)

theorem isBlank_of_isDigit {c : Char} (h : c.isDigit = true) : isBlank c = false := by
  have hrange : 48 ≤ c.toNat ∧ c.toNat ≤ 57 := by
    simpa [Char.isDigit, UInt32.le_iff_toNat_le] using h
  rw [Bool.eq_false_iff]
  intro hb
  simp only [isBlank, Bool.or_eq_true, Bool.and_eq_true, decide_eq_true_eq, beq_iff_eq] at hb
  omega

/-! ## Writing -/

namespace Date

/-- A date is written with digits, hyphens and at most a sign before them. -/
theorem mem_text {d : Date} {c : Char} (h : c ∈ d.text) :
    c.isDigit = true ∨ c = '-' ∨ c = '+' := by
  have hyear : c ∈ yearText d.year → c.isDigit = true ∨ c = '-' ∨ c = '+' := by
    unfold yearText
    split
    · exact fun h => Or.inl (isDigit_of_mem_padded h)
    · intro h
      rcases List.mem_cons.1 h with rfl | h
      · split <;> simp
      · exact Or.inl (isDigit_of_mem_padded h)
  rw [text] at h
  simp only [List.mem_append, List.mem_cons] at h
  rcases h with h | rfl | h | rfl | h
  · exact hyear h
  · exact Or.inr (Or.inl rfl)
  · exact Or.inl (isDigit_of_mem_padded h)
  · exact Or.inr (Or.inl rfl)
  · exact Or.inl (isDigit_of_mem_padded h)

theorem text_ne_nil (d : Date) : d.text ≠ [] := by
  simp [text]

theorem trim_text (d : Date) : trim d.text = d.text := by
  refine trim_of_not_blank fun c hc => ?_
  rcases mem_text hc with hc | rfl | rfl
  · exact isBlank_of_isDigit hc
  · decide
  · decide

/-! ## Bounds -/

theorem daysInMonth_le (year : Int) (month : Nat) : daysInMonth year month ≤ 31 := by
  unfold daysInMonth
  split
  · split <;> omega
  · split <;> omega

theorem month_lt (d : Date) : d.month < 10 ^ 2 := by
  have h := d.valid
  simp only [isDate, Bool.and_eq_true, decide_eq_true_eq] at h
  omega

theorem day_lt (d : Date) : d.day < 10 ^ 2 := by
  have h := d.valid
  have hle := daysInMonth_le d.year d.month
  simp only [isDate, Bool.and_eq_true, decide_eq_true_eq] at h
  omega

theorem ofNumbers?_eq (d : Date) : ofNumbers? d.year d.month d.day = some d :=
  dif_pos d.valid

end Date

/-! ## Reading -/

/-- The digits of a number are read to their end. -/
theorem run_padded (width n : Nat) {r : List Char} (hr : ∀ c ∈ r.head?, c.isDigit = false) :
    Decimal.leadingDigits (padded width n ++ r) = padded width n ∧
      Decimal.afterDigits (padded width n ++ r) = r :=
  takeWhile_append_stop (fun _ hc => isDigit_of_mem_padded hc) hr

theorem takeWhile_padded (width n : Nat) :
    (padded width n).takeWhile Char.isDigit = padded width n := by
  have h := (run_padded width n (r := []) (by simp)).1
  rwa [List.append_nil] at h

theorem head?_padded (width n : Nat) {p : Char → Bool} (hp : ∀ c, c.isDigit = true → p c = false)
    (r : List Char) : ∀ c ∈ (padded width n ++ r).head?, p c = false := by
  intro c hc
  cases h : padded width n with
  | nil => exact absurd h (padded_ne_nil width n)
  | cons x t =>
    have hx : x.isDigit = true := isDigit_of_mem_padded (h ▸ List.mem_cons_self ..)
    rw [h] at hc
    obtain rfl : x = c := by simpa using hc
    exact hp x hx

namespace Instant

theorem readFixed_padded {width n : Nat} (hw : 0 < width) (h : n < 10 ^ width) (r : List Char) :
    readFixed width (padded width n ++ r) = some (n, r) := by
  have hlen := length_padded hw h
  rw [readFixed, List.take_left' hlen, List.drop_left' hlen, takeWhile_padded, if_pos hlen,
    digitsValue_padded]

theorem readUpTo_padded {width n : Nat} (hw : 0 < width) (h : n < 10 ^ width) (r : List Char) :
    readUpTo width (padded width n ++ r) = some (n, r) := by
  have hlen := length_padded hw h
  have htrim : trimLeft (padded width n ++ r) = padded width n ++ r :=
    trimLeft_of_head (head?_padded width n (fun _ => isBlank_of_isDigit) r)
  rw [readUpTo, htrim]
  simp only [List.take_left' hlen, takeWhile_padded]
  rw [if_neg (by simpa using padded_ne_nil width n), digitsValue_padded, List.drop_left' rfl]

theorem readChar_cons (c : Char) (r : List Char) : readChar c (c :: r) = some r := if_pos rfl

/-- A number without a sign is read as a year up to its fourth digit. -/
theorem readYear_padded {n : Nat} (h : n < 10 ^ 4) (r : List Char) :
    readYear (padded 4 n ++ r) = some ((n : Int), r) := by
  have hsign : ∀ c ∈ (padded 4 n ++ r).head?, (c == '-' || c == '+') = false :=
    head?_padded 4 n (p := fun c => c == '-' || c == '+') (fun c hc => by
      rw [Bool.or_eq_false_iff, beq_eq_false_iff_ne, beq_eq_false_iff_ne]
      constructor
      · rintro rfl
        exact absurd hc (by decide)
      · rintro rfl
        exact absurd hc (by decide)) r
  unfold readYear
  dsimp only
  rw [trimLeft_of_head (head?_padded 4 n (fun _ => isBlank_of_isDigit) r)]
  split
  · next hminus => exact absurd (hsign '-' (by rw [hminus]; rfl)) (by decide)
  · next hplus => exact absurd (hsign '+' (by rw [hplus]; rfl)) (by decide)
  · rw [readUpTo_padded (by decide) h]
    rfl

/-- A number with a sign is read as a year to its end. -/
theorem readYear_signed (negative : Bool) (n : Nat) {r : List Char}
    (hr : ∀ c ∈ r.head?, c.isDigit = false) :
    readYear ((if negative then '-' else '+') :: (padded 4 n ++ r)) =
      some (Double.signed negative n, r) := by
  obtain ⟨hlead, hafter⟩ := run_padded 4 n hr
  have hne : (padded 4 n).isEmpty = false := by
    rw [Bool.eq_false_iff, Ne, List.isEmpty_iff]
    exact padded_ne_nil 4 n
  unfold readYear
  cases negative with
  | true =>
    rw [if_pos rfl, trimLeft_cons (by decide)]
    simp only [hlead, hafter, hne, digitsValue_padded, Bool.false_eq_true, if_false]
  | false =>
    rw [if_neg (by decide), trimLeft_cons (by decide)]
    simp only [hlead, hafter, hne, digitsValue_padded, Bool.false_eq_true, if_false]

theorem readYear_text (year : Int) (r : List Char) :
    readYear (Date.yearText year ++ '-' :: r) = some (year, '-' :: r) := by
  have hr : ∀ c ∈ ('-' :: r).head?, c.isDigit = false := by
    intro c hc
    obtain rfl : '-' = c := by simpa using hc
    decide
  unfold Date.yearText
  by_cases hshort : 0 ≤ year ∧ year ≤ 9999
  · have hyear : (year.natAbs : Int) = year := by omega
    rw [if_pos hshort, readYear_padded (by omega), hyear]
  · rw [if_neg hshort, List.cons_append]
    by_cases hneg : year < 0
    · have hyear : Double.signed true year.natAbs = year := by
        rw [Double.signed, if_pos rfl]
        omega
      have hread := readYear_signed true year.natAbs hr
      rw [hyear, if_pos rfl] at hread
      rw [if_pos hneg, hread]
    · have hyear : Double.signed false year.natAbs = year := by
        rw [Double.signed, if_neg (by decide)]
        omega
      have hread := readYear_signed false year.natAbs hr
      rw [hyear, if_neg (by decide)] at hread
      rw [if_neg hneg, hread]

/-- A date is read back, whatever follows it. -/
theorem readDate_text (d : Date) (r : List Char) : readDate (d.text ++ r) = some (d, r) := by
  have hsplit : d.text ++ r = Date.yearText d.year ++
      '-' :: (padded 2 d.month ++ '-' :: (padded 2 d.day ++ r)) := by simp [Date.text]
  have htwo : 0 < 2 := by decide
  rw [hsplit, readDate, readYear_text]
  simp only [Option.bind_eq_bind, Option.bind_some, readChar_cons,
    readUpTo_padded htwo d.month_lt, readUpTo_padded htwo d.day_lt, d.ofNumbers?_eq]
  rfl

/-- A date alone has no time. -/
theorem readWithOffset_text (d : Date) : readWithOffset d.text = none := by
  have htwo : 0 < 2 := by decide
  have hsplit : d.text = Date.yearText d.year ++
      '-' :: (padded 2 d.month ++ '-' :: (padded 2 d.day ++ [])) := by simp [Date.text]
  rw [hsplit, readWithOffset]
  unfold Date.yearText
  by_cases hshort : 0 ≤ d.year ∧ d.year ≤ 9999
  · rw [if_pos hshort, readFixed_padded (by decide) (by omega)]
    dsimp only [Option.bind_eq_bind, Option.bind_some]
    rw [readChar_cons, Option.bind_some, readFixed_padded htwo d.month_lt]
    dsimp only [Option.bind_some]
    rw [readChar_cons, Option.bind_some, readFixed_padded htwo d.day_lt]
    rfl
  · -- a sign is no digit
    have hsign : ∀ r, readFixed 4 ((if d.year < 0 then '-' else '+') :: r) = none := by
      intro r
      unfold readFixed
      split <;> simp
    rw [if_neg hshort, List.cons_append, hsign]
    rfl

theorem readWithTime_text (d : Date) : readWithTime d.text = none := by
  have hdate := readDate_text d []
  rw [List.append_nil] at hdate
  rw [readWithTime, hdate]
  rfl

theorem readMidnight_text (d : Date) : readMidnight d.text = some (midnight d) := by
  have hdate := readDate_text d []
  rw [List.append_nil] at hdate
  rw [readMidnight, hdate]
  rfl

/-- **The text of a date spells the midnight at which it begins.** -/
theorem ofText?_text (d : Date) : ofText? d.text = some (midnight d) := by
  rw [ofText?, d.trim_text, readWithOffset_text, readWithTime_text, readMidnight_text]
  rfl

end Instant

end RowQuery
