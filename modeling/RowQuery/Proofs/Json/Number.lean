import RowQuery.Proofs.Json.Numeral

/-!
# Numbers that are read back

A double is read with two roundings, so not each one is read back from its text.  The first rounding
changes nothing if there are few digits, and the second is then the only one if the power of ten is
a double as well.

* `Number.IsReadBack`: whether the text of a number is read as the number.
* `shift?_eq_toDouble`: a few digits and a small power of ten give the nearest double.
* `Numeral.isReadable_of_number?`: what has been read is a rounded number.
* `Number.IsOrdinary.isReadBack`: whole numbers of 64 bits are read back, and doubles that have been
  read and have such texts.
-/

namespace RowQuery.Json

variable {m k : Nat}

namespace Number

/-- Whether a number is a double with a text. -/
def IsFiniteDouble (n : Number) : Prop :=
  ∃ x, n = .double x ∧ x.isFinite = true

/-- Whether the text of a number is read as the number. -/
def IsReadBack (x : Number) : Prop :=
  (readNumeral x.text).bind (·.1.number?) = some x

instance (x : Number) : Decidable x.IsReadBack :=
  inferInstanceAs (Decidable (_ = _))

theorem isReadBack_iff {x : Number} {n : Numeral} (h : n.IsWellFormed) (htext : n.text = x.text) :
    x.IsReadBack ↔ n.number? = some x := by
  have hread := readNumeral_text h endsNumber_nil
  rw [List.append_nil, htext] at hread
  rw [IsReadBack, hread, Option.bind_some]

/-- Such a number is read whatever follows it. -/
theorem IsReadBack.readNumeral {x : Number} (h : x.IsReadBack) {r : List Char}
    (hr : EndsNumber r) :
    ∃ n, Json.readNumeral (x.text ++ r) = some (n, r) ∧ n.number? = some x := by
  obtain hnull | ⟨n, hn, htext⟩ := exists_numeral x
  · rw [IsReadBack, hnull] at h
    cases h
  · refine ⟨n, ?_, (isReadBack_iff hn htext).1 h⟩
    rw [← htext]
    exact readNumeral_text hn hr

/-! ## Whole numbers -/

/-- Whole numbers of 64 bits, with or without a sign, are read back. -/
theorem isReadBack_int {n : Int} (hlow : -2 ^ 63 ≤ n) (hhigh : n < 2 ^ 64) :
    (Number.int n).IsReadBack := by
  rw [isReadBack_iff (Numeral.isWellFormed_ofInt n) (Numeral.text_ofInt n)]
  have hwhole : Double.signed (decide (n < 0)) (digitsValue (digitsOf n.natAbs)) = n := by
    rw [digitsValue_digitsOf, Double.signed]
    by_cases hn : n < 0
    · rw [decide_eq_true hn, if_pos rfl]
      omega
    · rw [decide_eq_false hn, if_neg (by decide)]
      omega
  have hzero : ¬(decide (n < 0) = true ∧ n = 0) := by
    rintro ⟨hn, rfl⟩
    cases hn
  simp only [Numeral.number?, Numeral.ofInt, hwhole]
  rw [if_pos ⟨rfl, hzero, hlow, hhigh⟩]

end Number

/-! ## Few digits -/

/-- The number that digits spell behind another one. -/
def digitsBehind (n : Nat) (s : List Char) : Nat :=
  s.foldl (fun n c => 10 * n + (c.toNat - '0'.toNat)) n

theorem le_digitsBehind (n : Nat) (s : List Char) : n ≤ digitsBehind n s := by
  induction s generalizing n with
  | nil => exact Nat.le_refl n
  | cons c s ih =>
    have hnext : n ≤ 10 * n + (c.toNat - '0'.toNat) := by omega
    exact Nat.le_trans hnext (ih _)

/-- All digits are taken if what they spell fits into 64 bits. -/
theorem takeDigits_of_lt {n : Nat} {s : List Char} (h : digitsBehind n s < 2 ^ 64) :
    takeDigits n s = (digitsBehind n s, s.length) := by
  induction s generalizing n with
  | nil => rfl
  | cons c s ih =>
    have hnext : 10 * n + (c.toNat - '0'.toNat) < 2 ^ 64 :=
      Nat.lt_of_le_of_lt (le_digitsBehind _ s) h
    have htake := ih h
    simp only [takeDigits, Nat.pow_eq, if_pos hnext, htake]
    rfl

theorem Numeral.leading_of_lt {n : Numeral} (h : n.decimal.digits < 2 ^ 64) :
    n.leading = (n.decimal.digits, n.decimal.scale) := by
  have hdigits : n.decimal.digits = digitsBehind (digitsValue n.whole) n.fraction := by
    rw [Numeral.decimal, Decimal.ofParts, digitsValue, List.foldl_append]
    rfl
  rw [hdigits] at h
  have hwhole : takeDigits 0 n.whole = (digitsValue n.whole, n.whole.length) :=
    takeDigits_of_lt (Nat.lt_of_le_of_lt (le_digitsBehind _ _) h)
  simp only [Numeral.leading, hwhole, takeDigits_of_lt h, hdigits, Nat.sub_self]
  simp [Numeral.decimal, Decimal.ofParts]

/-! ## Doubles that are exact -/

/-- Up to 53 bits with zeros after them make a double. -/
theorem ofNat_mul_two_pow (hm : m ≤ 2 ^ 53) (hlt : m * 2 ^ k < 2 ^ 1024) :
    Double.ofNat (m * 2 ^ k) = .finite false (m * 2 ^ k * unitsPerOne) := by
  have hrounded : IsRounded (m * 2 ^ k * unitsPerOne) := by
    rw [unitsPerOne_eq, Nat.mul_assoc, ← Nat.pow_add]
    exact isRounded_mul_two_pow hm (k + 1074)
  have hunits : m * 2 ^ k * unitsPerOne < unitsLimit := by
    rw [unitsLimit_eq]
    exact Nat.mul_lt_mul_of_pos_right hlt unitsPerOne_pos
  have hexact := Double.ofRatio_mul_self false hrounded hunits (k := 1) (by decide)
  rwa [Nat.mul_one] at hexact

theorem ofNat_of_le (hm : m ≤ 2 ^ 53) : Double.ofNat m = .finite false (m * unitsPerOne) := by
  have hexact := ofNat_mul_two_pow (k := 0) hm
    (Nat.lt_of_le_of_lt (by omega) (show 2 ^ 53 < 2 ^ 1024 by decide +kernel))
  rwa [Nat.pow_zero, Nat.mul_one] at hexact

/-- The powers of ten up to the 22nd are doubles. -/
theorem powerOfTen_of_le (hk : k ≤ 22) : powerOfTen k = .finite false (10 ^ k * unitsPerOne) := by
  have hten : Nat.pow 10 k = 5 ^ k * 2 ^ k := by rw [Nat.pow_eq, ← Nat.mul_pow]
  have hfive : 5 ^ k ≤ 2 ^ 53 :=
    Nat.le_trans (Nat.pow_le_pow_right (by decide) hk) (show 5 ^ 22 ≤ 2 ^ 53 by decide +kernel)
  have hlt : 5 ^ k * 2 ^ k < 2 ^ 1024 := by
    rw [← Nat.mul_pow]
    exact Nat.lt_of_le_of_lt (Nat.pow_le_pow_right (by decide) hk)
      (show 10 ^ 22 < 2 ^ 1024 by decide +kernel)
  rw [powerOfTen, hten, ofNat_mul_two_pow hfive hlt, ← Nat.mul_pow]

/-! ## One rounding -/

theorem mul_powerOfTen (hm : m ≤ 2 ^ 53) (hk : k ≤ 22) :
    (Double.ofNat m).mul (powerOfTen k) = .ofRatio false (m * 10 ^ k * unitsPerOne) 1 := by
  have hratio := Double.ofRatio_mul_right false (m * 10 ^ k * unitsPerOne) 1 unitsPerOne_pos
  have hnum : m * unitsPerOne * (10 ^ k * unitsPerOne) =
      m * 10 ^ k * unitsPerOne * unitsPerOne := by
    rw [← Nat.mul_assoc, Nat.mul_right_comm m]
  rw [ofNat_of_le hm, powerOfTen_of_le hk, Double.mul, hnum, ← hratio, Nat.one_mul]
  rfl

theorem div_powerOfTen (hm : m ≤ 2 ^ 53) (hk : k ≤ 22) :
    (Double.ofNat m).div (powerOfTen k) = .ofRatio false (m * unitsPerOne) (10 ^ k) := by
  have hpos : 10 ^ k * unitsPerOne ≠ 0 :=
    Nat.mul_ne_zero (Nat.ne_of_gt (Nat.pow_pos (by decide))) (Nat.ne_of_gt unitsPerOne_pos)
  rw [ofNat_of_le hm, powerOfTen_of_le hk, Double.div, if_neg hpos,
    Double.ofRatio_mul_right _ _ _ unitsPerOne_pos]
  rfl

/-- **A few digits and a small power of ten are rounded once.**  So they give the nearest double. -/
theorem shift?_eq_toDouble (hne : m ≠ 0) (hm : m ≤ 2 ^ 53) {scale : Int}
    (hscale : scale.natAbs ≤ 22)
    (hfinite : (⟨false, m, scale⟩ : Decimal).toDouble.isFinite = true) :
    shift? (.ofNat m) scale = some (⟨false, m, scale⟩ : Decimal).toDouble := by
  cases scale with
  | ofNat k =>
    have hk : k ≤ 22 := hscale
    have hnearest := Decimal.toDouble_natCast (k := k) hne (by omega) false
    rw [Int.ofNat_eq_natCast, hnearest] at hfinite ⊢
    rw [← Int.ofNat_eq_natCast, shift?, if_pos (by omega), mul_powerOfTen hm hk,
      Option.filter_some_pos hfinite]
  | negSucc k =>
    have hk : k + 1 ≤ 22 := hscale
    have hnearest := Decimal.toDouble_neg (k := k + 1) hne (by omega) false
    rw [shift?, if_pos (by omega), div_powerOfTen hm hk, ← hnearest]
    rfl

/-! ## Doubles that have been read -/

theorem isReadable_of_shift? {x : Double} {scale : Int} (h : shift? (.ofNat m) scale = some x)
    (hx : x.isFinite = true) : x.IsReadable := by
  cases scale with
  | ofNat k =>
    rw [shift?] at h
    split at h
    · have hmul := (Option.filter_eq_some_iff.1 h).1
      rw [← Option.some.inj hmul] at hx ⊢
      exact Double.isReadable_mul hx
    · split at h
      · next hzero =>
        rw [← Option.some.inj h, hzero]
        exact Double.isReadable_zero false
      · cases h
  | negSucc k =>
    rw [shift?] at h
    split at h <;> rw [← Option.some.inj h] at hx ⊢ <;> exact Double.isReadable_div hx

/-- What has been read is a rounded number. -/
theorem Numeral.isReadable_of_number? {n : Numeral} {x : Double}
    (h : n.number? = some (.double x)) (hx : x.isFinite = true) : x.IsReadable := by
  unfold Numeral.number? at h
  dsimp only at h
  split at h
  · cases h
  · obtain ⟨y, hy, heq⟩ := Option.map_eq_some_iff.1 h
    cases heq
    split at hx
    · next hnegative =>
      rw [if_pos hnegative]
      refine (isReadable_of_shift? hy ?_).neg
      cases y <;> first | rfl | cases hx
    · next hpositive =>
      rw [if_neg hpositive]
      exact isReadable_of_shift? hy hx

theorem toDouble_laidOut {d : Decimal} (h : d.digits ≠ 0) : (laidOut d).toDouble = d.toDouble := by
  rw [laidOut]
  split
  · next hscale =>
    obtain ⟨hpos, hle⟩ := hscale
    obtain ⟨negative, digits, scale⟩ := d
    obtain ⟨k, rfl⟩ := Int.eq_ofNat_of_zero_le hpos
    exact Decimal.toDouble_tenths (k := k) h (by simp only at hle; omega) negative
  · rfl

/-- The digits that are written for a double are nearest to it, whatever its sign. -/
theorem exists_finiteDecimal (negative : Bool) {units : Nat} (hne : units ≠ 0)
    (hrounded : IsRounded units) (hlt : units < unitsLimit) :
    ∃ digits scale, finiteDecimal negative units = ⟨negative, digits, scale⟩ ∧ digits ≠ 0 ∧
      (⟨false, digits, scale⟩ : Decimal).toDouble = .finite false units := by
  have hdigits := digits_shortest_ne_zero hne
  have hshortest : (⟨false, (shortest units).digits, (shortest units).scale⟩ : Decimal).toDouble =
      .finite false units := by
    rw [← toDouble_shortest hne hrounded hlt, ← negative_shortest units]
  obtain ⟨digits, scale, hlaid⟩ : ∃ digits scale, ∀ negative,
      laidOut ⟨negative, (shortest units).digits, (shortest units).scale⟩ =
        ⟨negative, digits, scale⟩ := by
    simp only [laidOut]
    split <;> exact ⟨_, _, fun _ => rfl⟩
  have hread : (⟨false, digits, scale⟩ : Decimal).toDouble = .finite false units := by
    rw [← hlaid false]
    exact (toDouble_laidOut (d := ⟨false, _, _⟩) hdigits).trans hshortest
  refine ⟨digits, scale, ?_, ?_, hread⟩
  · rw [finiteDecimal, if_neg hne, hlaid]
  · rintro rfl
    rw [Decimal.toDouble_zero] at hread
    exact hne (Double.finite.inj hread).2.symm

namespace Number

/-- A double that has been read is read back, if its text has few digits and a small power of
ten. -/
theorem isReadBack_double {n : Numeral} {negative : Bool} {units : Nat}
    (h : n.number? = some (.double (.finite negative units)))
    (hdigits : (finiteDecimal negative units).digits ≤ 2 ^ 53)
    (hscale : (finiteDecimal negative units).scale.natAbs ≤ 22) :
    (Number.double (.finite negative units)).IsReadBack := by
  obtain ⟨_, hrounded, hlt⟩ := Numeral.isReadable_of_number? h rfl
  by_cases hzero : units = 0
  · subst hzero
    cases negative <;> decide +kernel
  obtain ⟨n, hn⟩ := exists_spells negative units
  obtain ⟨digits, scale, hdecimal, hne, hnearest⟩ :=
    exists_finiteDecimal negative hzero hrounded hlt
  rw [hdecimal] at hdigits hscale hn
  have hleading : n.leading = (digits, scale) := by
    have hfits : n.decimal.digits < 2 ^ 64 := by
      rw [hn.decimal_eq]
      exact Nat.lt_of_le_of_lt hdigits (by decide)
    rw [n.leading_of_lt hfits, hn.decimal_eq]
  have hshift : shift? (.ofNat digits) scale = some (.finite false units) := by
    rw [shift?_eq_toDouble hne hdigits hscale (by rw [hnearest]; rfl), hnearest]
  have hsign : n.negative = negative := congrArg Decimal.negative hn.decimal_eq
  rw [isReadBack_iff (x := .double (.finite negative units)) hn.isWellFormed hn.text_eq,
    Numeral.number?, hn.not_integer, hleading, hsign]
  simp only [Bool.false_eq_true, false_and, if_false, hshift, Option.map_some]
  cases negative <;> rfl

/-- Numbers as they usually stand in texts: whole numbers of 64 bits, and doubles that have been
read and are written with few digits and a small power of ten. -/
inductive IsOrdinary : Number → Prop
  | int {n : Int} (low : -2 ^ 63 ≤ n) (high : n < 2 ^ 64) : IsOrdinary (.int n)
  | double {n : Numeral} {negative : Bool} {units : Nat}
      (read : n.number? = some (.double (.finite negative units)))
      (digits : (finiteDecimal negative units).digits ≤ 2 ^ 53)
      (scale : (finiteDecimal negative units).scale.natAbs ≤ 22) :
      IsOrdinary (.double (.finite negative units))

/-- **Ordinary numbers are read back.** -/
theorem IsOrdinary.isReadBack {x : Number} (h : x.IsOrdinary) : x.IsReadBack := by
  cases h with
  | int low high => exact isReadBack_int low high
  | double read digits scale => exact isReadBack_double read digits scale

end Number

end RowQuery.Json
