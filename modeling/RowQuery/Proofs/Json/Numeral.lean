import RowQuery.Json.Number
import RowQuery.Proofs.Number.Digits
import RowQuery.Proofs.Number.Shortest
import RowQuery.Proofs.Text.Words

/-!
# The parts of numbers that are written

* `EndsNumber`: what follows a number and is not taken for a part of it.
* `Numeral.text`, `readNumeral_text`: a number as it is written from its parts is read part by part.
* `Numeral.ofInt`, `Numeral.text_ofInt`: the parts of a whole number.
* `layOut_eq`, `exists_layOut`: digits that are laid out are such a text, and spell the same number,
  perhaps with a zero behind the point.
* `exists_numeral`: each number is written from some parts.
-/

namespace RowQuery.Json

open Text (takeWhile_append_stop)

/-! ## What follows a number -/

/-- A text that does not go on with the number before it. -/
def EndsNumber (r : List Char) : Prop :=
  ∀ c ∈ r.head?, c.isDigit = false ∧ c ≠ '.' ∧ c ≠ 'e' ∧ c ≠ 'E'

theorem endsNumber_nil : EndsNumber [] := by
  simp [EndsNumber]

/-! ## Writing the parts -/

/-- The point and the digits after it; the point is left out where no digits follow. -/
def pointText : List Char → List Char
  | [] => []
  | ds => '.' :: ds

theorem pointText_of_ne_nil {ds : List Char} (h : ds ≠ []) : pointText ds = '.' :: ds := by
  rw [pointText]
  exact h

/-- The exponent with its letter and its sign. -/
def powerText : Option Int → List Char
  | none => []
  | some e => 'e' :: (if e < 0 then '-' else '+') :: digitsOf e.natAbs

namespace Numeral

/-- A number as it is written from its parts. -/
def text (n : Numeral) : List Char :=
  (if n.negative then ['-'] else []) ++ (n.whole ++ (pointText n.fraction ++ powerText n.exponent))

/-- The decimal that the parts spell. -/
def decimal (n : Numeral) : Decimal :=
  .ofParts n.negative n.whole n.fraction (n.exponent.getD 0)

/-- Parts as they can be read. -/
structure IsWellFormed (n : Numeral) : Prop where
  whole_digits : ∀ c ∈ n.whole, c.isDigit = true
  whole_ne_nil : n.whole ≠ []
  /-- No zero stands before other digits. -/
  leading_zero : n.whole.head? = some '0' → n.whole = ['0']
  fraction_digits : ∀ c ∈ n.fraction, c.isDigit = true

end Numeral

/-! ## Reading the parts -/

variable {ds r : List Char}

theorem run_digits (hds : ∀ c ∈ ds, c.isDigit = true) (hr : ∀ c ∈ r.head?, c.isDigit = false) :
    Decimal.leadingDigits (ds ++ r) = ds ∧ Decimal.afterDigits (ds ++ r) = r :=
  takeWhile_append_stop hds hr

theorem readExponent_powerText (e : Option Int) (hr : EndsNumber r) :
    readExponent (powerText e ++ r) = some (e, r) := by
  cases e with
  | none =>
    cases r with
    | nil => rfl
    | cons c r =>
      obtain ⟨-, -, he, hE⟩ := hr c rfl
      rw [powerText, List.nil_append, readExponent, if_neg (by simp [he, hE])]
  | some e =>
    have hdigits : ∀ c ∈ digitsOf e.natAbs, c.isDigit = true := fun _ => isDigit_of_mem_digitsOf
    obtain ⟨hlead, hafter⟩ := run_digits hdigits fun c hc => (hr c hc).1
    have hne : (digitsOf e.natAbs).isEmpty = false := by simpa using digitsOf_ne_nil e.natAbs
    have hsign : Decimal.sign ((if e < 0 then '-' else '+') :: (digitsOf e.natAbs ++ r)) =
        (decide (e < 0), digitsOf e.natAbs ++ r) := by
      by_cases hneg : e < 0 <;> simp [Decimal.sign, hneg]
    have hvalue : Double.signed (decide (e < 0)) e.natAbs = e := by
      by_cases hneg : e < 0
      · simp only [Double.signed, hneg, decide_true, if_true]
        omega
      · simp only [Double.signed, hneg, decide_false, Bool.false_eq_true, if_false]
        omega
    rw [powerText, List.cons_append, List.cons_append, readExponent, if_pos (Or.inl rfl)]
    simp only [Decimal.exponent?, hsign, hlead, hafter, hne, digitsValue_digitsOf, hvalue]
    rfl

/-- An exponent begins with no digit and with no point. -/
theorem head_powerText (e : Option Int) (hr : EndsNumber r) :
    ∀ c ∈ (powerText e ++ r).head?, c.isDigit = false ∧ c ≠ '.' := by
  cases e with
  | none => exact fun c hc => ⟨(hr c hc).1, (hr c hc).2.1⟩
  | some e =>
    rintro _ ⟨⟩
    decide

theorem readFraction_pointText (hds : ∀ c ∈ ds, c.isDigit = true)
    (hr : ∀ c ∈ r.head?, c.isDigit = false ∧ c ≠ '.') :
    readFraction (pointText ds ++ r) = some (ds, r) := by
  cases ds with
  | nil =>
    rw [pointText, List.nil_append]
    unfold readFraction
    split
    · exact absurd rfl (hr '.' rfl).2
    · rfl
  | cons d ds =>
    obtain ⟨hlead, hafter⟩ := run_digits hds fun c hc => (hr c hc).1
    rw [pointText, List.cons_append, readFraction, hlead, hafter, if_neg (by simp)]
    exact List.cons_ne_nil d ds

/-- Behind the digits before the point no digit stands. -/
theorem head_pointText (hr : ∀ c ∈ r.head?, c.isDigit = false ∧ c ≠ '.') :
    ∀ c ∈ (pointText ds ++ r).head?, c.isDigit = false := by
  cases ds with
  | nil => exact fun c hc => (hr c hc).1
  | cons d ds =>
    rintro _ ⟨⟩
    decide

namespace Numeral

variable {n : Numeral}

theorem IsWellFormed.readWhole (h : n.IsWellFormed) (hr : ∀ c ∈ r.head?, c.isDigit = false) :
    readWhole (n.whole ++ r) = some (n.whole, r) := by
  obtain ⟨hlead, hafter⟩ := run_digits h.whole_digits hr
  unfold Json.readWhole
  split
  · next t heq =>
    cases hwhole : n.whole with
    | nil => exact absurd hwhole h.whole_ne_nil
    | cons c ds =>
      rw [hwhole] at heq
      obtain ⟨rfl, rfl⟩ := List.cons.inj heq
      obtain ⟨-, rfl⟩ := List.cons.inj (hwhole.symm.trans (h.leading_zero (by rw [hwhole]; rfl)))
      rfl
  · rw [hlead, hafter, if_neg (by simpa using h.whole_ne_nil)]

end Numeral

/-- **A number that is written from its parts is read part by part.** -/
theorem readNumeral_text {n : Numeral} (h : n.IsWellFormed) (hr : EndsNumber r) :
    readNumeral (n.text ++ r) = some (n, r) := by
  have hpower := readExponent_powerText n.exponent hr
  have hpoint := readFraction_pointText h.fraction_digits (head_powerText n.exponent hr)
  have hhead : ∀ c ∈ (pointText n.fraction ++ (powerText n.exponent ++ r)).head?,
      c.isDigit = false :=
    head_pointText (head_powerText n.exponent hr)
  have hwhole := h.readWhole hhead
  obtain ⟨negative, whole, fraction, exponent⟩ := n
  unfold readNumeral
  cases negative with
  | true => simp [Numeral.text, hwhole, hpoint, hpower]
  | false =>
    have hnone : ∀ t, whole ++ (pointText fraction ++ (powerText exponent ++ r)) ≠ '-' :: t := by
      intro t ht
      rw [ht] at hwhole
      cases hwhole
    simp [Numeral.text, hwhole, hpoint, hpower]

/-! ## Whole numbers -/

namespace Numeral

/-- The parts of a whole number. -/
def ofInt (n : Int) : Numeral :=
  ⟨n < 0, digitsOf n.natAbs, [], none⟩

theorem text_ofInt (n : Int) : (ofInt n).text = (Number.int n).text := by
  by_cases hn : n < 0 <;> simp [text, ofInt, Number.text, pointText, powerText, hn]

theorem isWellFormed_ofInt (n : Int) : (ofInt n).IsWellFormed where
  whole_digits _ := isDigit_of_mem_digitsOf
  whole_ne_nil := digitsOf_ne_nil n.natAbs
  leading_zero hzero := by
    rw [ofInt] at hzero ⊢
    rw [Decidable.byContradiction fun h => head?_digitsOf h hzero, digitsOf]
    rfl
  fraction_digits := by simp [ofInt]

end Numeral

/-! ## Digits that are laid out -/

section LayOut

variable {n : Nat} (negative : Bool)

/-- The digits of a number, cut behind any of them. -/
theorem isWellFormed_cut (h : n ≠ 0) {w : Nat} (hw : 0 < w) (e : Option Int) :
    (⟨negative, (digitsOf n).take w, (digitsOf n).drop w, e⟩ : Numeral).IsWellFormed where
  whole_digits _ hc := isDigit_of_mem_digitsOf (List.mem_of_mem_take hc)
  whole_ne_nil := by simp [digitsOf_ne_nil, Nat.ne_of_gt hw]
  leading_zero hzero := by
    rw [List.head?_take, if_neg (Nat.ne_of_gt hw)] at hzero
    exact absurd hzero (head?_digitsOf h)
  fraction_digits _ hc := isDigit_of_mem_digitsOf (List.mem_of_mem_drop hc)

/-- The digits of a number behind the point. -/
theorem isWellFormed_small (n k : Nat) :
    (⟨negative, ['0'], List.replicate k '0' ++ digitsOf n, none⟩ : Numeral).IsWellFormed where
  whole_digits := by simp
  whole_ne_nil := by simp
  leading_zero _ := rfl
  fraction_digits := List.forall_mem_append.2
    ⟨fun _ => isDigit_of_mem_zeros, fun _ => isDigit_of_mem_digitsOf⟩

/-- The digits of a number before the point. -/
theorem isWellFormed_whole (h : n ≠ 0) (k : Nat) :
    (⟨negative, digitsOf n ++ List.replicate k '0', ['0'], none⟩ : Numeral).IsWellFormed where
  whole_digits := List.forall_mem_append.2
    ⟨fun _ => isDigit_of_mem_digitsOf, fun _ => isDigit_of_mem_zeros⟩
  whole_ne_nil := by simp [digitsOf_ne_nil]
  leading_zero hzero := by
    rw [List.head?_append_of_ne_nil _ (digitsOf_ne_nil n)] at hzero
    exact absurd hzero (head?_digitsOf h)
  fraction_digits := by simp

theorem ofParts_cut (n w : Nat) (e : Int) :
    Decimal.ofParts negative ((digitsOf n).take w) ((digitsOf n).drop w) e =
      ⟨negative, n, e - (digitCount n - w : Nat)⟩ := by
  rw [Decimal.ofParts, List.take_append_drop, digitsValue_digitsOf, List.length_drop,
    length_digitsOf]

theorem ofParts_small (n k : Nat) :
    Decimal.ofParts negative ['0'] (List.replicate k '0' ++ digitsOf n) 0 =
      ⟨negative, n, -(k + digitCount n)⟩ := by
  have hzeros := digitsValue_zeros (k + 1) (digitsOf n)
  rw [List.replicate_succ, digitsValue_digitsOf] at hzeros
  rw [Decimal.ofParts, List.singleton_append, ← List.cons_append, hzeros, List.length_append,
    List.length_replicate, length_digitsOf]
  simp

theorem ofParts_whole (n k : Nat) :
    Decimal.ofParts negative (digitsOf n ++ List.replicate k '0') ['0'] 0 =
      ⟨negative, n * 10 ^ (k + 1), -1⟩ := by
  rw [Decimal.ofParts, List.append_assoc, ← List.replicate_succ', digitsValue_append_zeros,
    digitsValue_digitsOf]
  rfl

end LayOut

/-- The decimal that is read where digits are laid out: a zero stands behind the point if no digit
does. -/
def laidOut (d : Decimal) : Decimal :=
  if 0 ≤ d.scale ∧ d.scale + digitCount d.digits ≤ 16 then
    ⟨d.negative, d.digits * 10 ^ (d.scale.natAbs + 1), -1⟩
  else d

/-- Parts of a text that are a number with a point or an exponent. -/
structure Spells (n : Numeral) (text : List Char) (d : Decimal) : Prop where
  isWellFormed : n.IsWellFormed
  text_eq : n.text = text
  not_integer : n.isInteger = false
  decimal_eq : n.decimal = d

section Lead

variable {digits : Nat} {scale lead : Int} (hlead : scale + digitCount digits - 1 = lead)

include hlead

/-- Digits are laid out before and after a point, with an exponent if they are far from it.  The
first of them stands for `10 ^ lead`. -/
theorem layOut_eq : layOut digits scale =
    if lead < -5 ∨ 16 ≤ lead then
      (digitsOf digits).take 1 ++ (pointText ((digitsOf digits).drop 1) ++ powerText (some lead))
    else if lead < 0 then
      '0' :: pointText (List.replicate (lead.natAbs - 1) '0' ++ digitsOf digits)
    else if digitCount digits ≤ lead.natAbs + 1 then
      digitsOf digits ++ List.replicate scale.natAbs '0' ++ pointText ['0']
    else
      (digitsOf digits).take (lead.natAbs + 1) ++
        pointText ((digitsOf digits).drop (lead.natAbs + 1)) := by
  have hlength := length_digitsOf digits
  have hpos := digitCount_pos digits
  have hpoint {k : Nat} (hk : k < digitCount digits) :
      pointText ((digitsOf digits).drop k) = '.' :: (digitsOf digits).drop k := by
    apply pointText_of_ne_nil
    rw [Ne, List.drop_eq_nil_iff]
    omega
  have hone : pointText ((digitsOf digits).drop 1) =
      if digitCount digits = 1 then [] else '.' :: (digitsOf digits).drop 1 := by
    split
    · rw [List.drop_eq_nil_iff.2 (by omega), pointText]
    · exact hpoint (by omega)
  simp only [layOut, hlength, hlead]
  split
  · rw [hone, powerText]
    split <;> split <;> simp
  split
  · rw [pointText_of_ne_nil (by simp [digitsOf_ne_nil])]
  split
  · rw [show lead.natAbs + 1 - digitCount digits = scale.natAbs by omega, pointText]
    simp
  · rw [hpoint (by omega)]

end Lead

/-- What is laid out spells the number. -/
theorem exists_layOut {digits : Nat} (h : digits ≠ 0) (negative : Bool) (scale : Int) :
    ∃ n, Spells n ((if negative then ['-'] else []) ++ layOut digits scale)
      (laidOut ⟨negative, digits, scale⟩) := by
  obtain ⟨lead, hlead⟩ : ∃ lead, scale + digitCount digits - 1 = lead := ⟨_, rfl⟩
  have hpos := digitCount_pos digits
  rw [layOut_eq hlead]
  by_cases hpower : lead < -5 ∨ 16 ≤ lead
  · refine ⟨_, isWellFormed_cut negative h (w := 1) (by decide) (some lead), ?_, ?_, ?_⟩
    · rw [if_pos hpower, Numeral.text]
    · simp [Numeral.isInteger]
    · rw [Numeral.decimal, Option.getD_some, ofParts_cut, laidOut, if_neg (by simp only; omega)]
      congr 1
      omega
  rw [if_neg hpower]
  by_cases hsmall : lead < 0
  · refine ⟨_, isWellFormed_small negative digits (lead.natAbs - 1), ?_, ?_, ?_⟩
    · rw [if_pos hsmall, Numeral.text, powerText, List.append_nil, List.singleton_append]
    · simp [Numeral.isInteger, digitsOf_ne_nil]
    · rw [Numeral.decimal, Option.getD_none, ofParts_small, laidOut, if_neg (by simp only; omega)]
      congr 1
      omega
  rw [if_neg hsmall]
  by_cases hwhole : digitCount digits ≤ lead.natAbs + 1
  · refine ⟨_, isWellFormed_whole negative h scale.natAbs, ?_, rfl, ?_⟩
    · rw [if_pos hwhole, Numeral.text, powerText, List.append_nil]
    · rw [Numeral.decimal, Option.getD_none, ofParts_whole, laidOut, if_pos (by simp only; omega)]
  · refine ⟨_, isWellFormed_cut negative h (Nat.succ_pos lead.natAbs) none, ?_, ?_, ?_⟩
    · rw [if_neg hwhole, Numeral.text, powerText, List.append_nil]
    · have hfraction : (digitsOf digits).drop (lead.natAbs + 1) ≠ [] := by
        rw [Ne, List.drop_eq_nil_iff, length_digitsOf]
        omega
      simpa [Numeral.isInteger] using hfraction
    · rw [Numeral.decimal, Option.getD_none, ofParts_cut, laidOut, if_neg (by simp only; omega)]
      congr 1
      omega

/-! ## Any number -/

/-- The decimal that is read where a finite double was written. -/
def finiteDecimal (negative : Bool) (units : Nat) : Decimal :=
  if units = 0 then ⟨negative, 0, -1⟩
  else laidOut ⟨negative, (shortest units).digits, (shortest units).scale⟩

theorem exists_spells (negative : Bool) (units : Nat) :
    ∃ n, Spells n (Double.text negative units) (finiteDecimal negative units) := by
  by_cases hzero : units = 0
  · rw [Double.text, if_pos hzero, finiteDecimal, if_pos hzero]
    have hparts : (⟨negative, ['0'], ['0'], none⟩ : Numeral).IsWellFormed :=
      ⟨by simp, by simp, fun _ => rfl, by simp⟩
    exact ⟨_, hparts, rfl, rfl, rfl⟩
  · rw [Double.text, if_neg hzero, finiteDecimal, if_neg hzero]
    exact exists_layOut (digits_shortest_ne_zero hzero) negative (shortest units).scale

/-- A number is written from some parts, unless it is not finite. -/
theorem exists_numeral (x : Number) :
    x.text = ['n', 'u', 'l', 'l'] ∨ ∃ n : Numeral, n.IsWellFormed ∧ n.text = x.text := by
  cases x with
  | int n => exact Or.inr ⟨.ofInt n, Numeral.isWellFormed_ofInt n, Numeral.text_ofInt n⟩
  | double x =>
    cases x with
    | finite negative units =>
      obtain ⟨n, hn⟩ := exists_spells negative units
      exact Or.inr ⟨n, hn.isWellFormed, hn.text_eq⟩
    | infinite negative | nan => exact Or.inl rfl

end RowQuery.Json
