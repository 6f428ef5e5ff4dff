import Mathlib.Data.List.TakeWhile
import Mathlib.Data.Option.Basic
import RowQuery.Proofs.Calendar.Date

/-!
# No text is both a point in time and a number

All spellings of a point in time begin with a year and a hyphen.  In a number a hyphen is a sign,
which stands at the beginning or behind the letter of the exponent, and never behind a digit.

* `HyphenBehindDigit`: whether a hyphen stands directly behind a digit.
* `Instant.hyphenBehindDigit`: it does in each text that spells a point in time.
* `Decimal.not_hyphenBehindDigit`: it does in no text that spells a number.
* `number?_eq_none_of_instant`: so no text spells both.
* `DateNotation`, `dateNotation`: all that is relied on where dates are written or read.
-/

namespace RowQuery

/-- A hyphen stands directly behind a digit. -/
inductive HyphenBehindDigit : List Char → Prop
  | here {d : Char} (digit : d.isDigit = true) (r : List Char) : HyphenBehindDigit (d :: '-' :: r)
  | there (c : Char) {r : List Char} : HyphenBehindDigit r → HyphenBehindDigit (c :: r)

namespace HyphenBehindDigit

variable {s r : List Char}

theorem append (x : List Char) (h : HyphenBehindDigit s) : HyphenBehindDigit (x ++ s) := by
  induction x with
  | nil => exact h
  | cons c x ih => exact .there c ih

/-- A hyphen behind a run of digits. -/
theorem of_digits {ds : List Char} (hne : ds ≠ []) (hds : ∀ c ∈ ds, c.isDigit = true)
    (r : List Char) : HyphenBehindDigit (ds ++ '-' :: r) := by
  induction ds with
  | nil => exact absurd rfl hne
  | cons d ds ih =>
    cases ds with
    | nil => exact .here (hds d (List.mem_cons_self ..)) r
    | cons e ds => exact .there d (ih (by simp) fun c hc => hds c (List.mem_cons_of_mem _ hc))

theorem of_trimLeft (h : HyphenBehindDigit (Text.trimLeft s)) : HyphenBehindDigit s := by
  obtain ⟨blank, hblank⟩ := Text.trimLeft_suffix s
  rw [← hblank]
  exact h.append blank

/-- Behind a character that is no digit there is no sought hyphen. -/
theorem of_cons {c : Char} (hc : c.isDigit = false) (h : HyphenBehindDigit (c :: s)) :
    HyphenBehindDigit s := by
  cases h with
  | here digit r =>
    rw [hc] at digit
    exact absurd digit (by decide)
  | there _ h => exact h

/-- Behind the digits that a text begins with, the hyphen is the next character or comes later. -/
theorem afterDigits (h : HyphenBehindDigit s) : (∃ r, Decimal.afterDigits s = '-' :: r) ∨
    HyphenBehindDigit (Decimal.afterDigits s) := by
  induction h with
  | here digit r =>
    left
    exact ⟨r, by simp [Decimal.afterDigits, digit]⟩
  | @there c r h ih =>
    by_cases hc : c.isDigit = true
    · have hnext : Decimal.afterDigits (c :: r) = Decimal.afterDigits r := by
        simp [Decimal.afterDigits, hc]
      rw [hnext]
      exact ih
    · have hkept : Decimal.afterDigits (c :: r) = c :: r := by simp [Decimal.afterDigits, hc]
      rw [hkept]
      exact Or.inr (.there c h)

end HyphenBehindDigit

/-! ## Points in time -/

namespace Instant

variable {s r : List Char}

theorem eq_cons_of_readChar {c : Char} (h : readChar c s = some r) : s = c :: r := by
  cases s with
  | nil => cases h
  | cons d t =>
    rw [readChar] at h
    split at h
    · next hd =>
      cases h
      rw [hd]
    · cases h

/-- Up to `n` digits that a text begins with, and what follows them. -/
theorem digits_append_drop (n : Nat) (s : List Char) :
    (s.take n).takeWhile Char.isDigit ++ s.drop ((s.take n).takeWhile Char.isDigit).length = s :=
  List.prefix_iff_eq_append.1 ((List.takeWhile_prefix _).trans (List.take_prefix n s))

theorem hyphen_of_readFixed {n k : Nat} (hn : 0 < n) (h : readFixed n s = some (k, '-' :: r)) :
    HyphenBehindDigit s := by
  unfold readFixed at h
  dsimp only at h
  split at h
  · next hlen =>
    obtain ⟨-, hdrop⟩ := Prod.mk.inj (Option.some.inj h)
    have happ := digits_append_drop n s
    rw [hlen, hdrop] at happ
    rw [← happ]
    refine .of_digits ?_ (fun c hc => List.mem_takeWhile_imp hc) r
    intro hnil
    rw [hnil, List.length_nil] at hlen
    omega
  · cases h

theorem hyphen_of_readUpTo {n k : Nat} (h : readUpTo n s = some (k, '-' :: r)) :
    HyphenBehindDigit s := by
  unfold readUpTo at h
  dsimp only at h
  split at h
  · cases h
  · next hne =>
    obtain ⟨-, hdrop⟩ := Prod.mk.inj (Option.some.inj h)
    have happ := digits_append_drop n (Text.trimLeft s)
    rw [hdrop] at happ
    apply HyphenBehindDigit.of_trimLeft
    rw [← happ]
    exact .of_digits (fun hnil => hne (List.isEmpty_iff.2 hnil))
      (fun c hc => List.mem_takeWhile_imp hc) r

/-- A year ends on a digit, with a sign or without one. -/
theorem hyphen_of_readYear {year : Int} (h : readYear s = some (year, '-' :: r)) :
    HyphenBehindDigit s := by
  have hsigned : ∀ (negative : Bool) (c : Char) (t : List Char), Text.trimLeft s = c :: t →
      (if (Decimal.leadingDigits t).isEmpty then none
        else some (Double.signed negative (digitsValue (Decimal.leadingDigits t)),
          Decimal.afterDigits t)) = some (year, '-' :: r) → HyphenBehindDigit s := by
    intro negative c t ht h
    split at h
    · cases h
    · next hne =>
      obtain ⟨-, hafter⟩ := Prod.mk.inj (Option.some.inj h)
      have happ : Decimal.leadingDigits t ++ Decimal.afterDigits t = t :=
        List.takeWhile_append_dropWhile
      apply HyphenBehindDigit.of_trimLeft
      rw [ht, ← happ, hafter]
      exact .there c (.of_digits (fun hnil => hne (List.isEmpty_iff.2 hnil))
        (fun c hc => List.mem_takeWhile_imp hc) r)
  unfold readYear at h
  dsimp only at h
  split at h
  · next t ht => exact hsigned true '-' t ht h
  · next t ht => exact hsigned false '+' t ht h
  · obtain ⟨⟨n, t⟩, hread, heq⟩ := Option.map_eq_some_iff.1 h
    obtain ⟨-, rfl⟩ := Prod.mk.inj heq
    exact .of_trimLeft (hyphen_of_readUpTo hread)

theorem hyphen_of_readDate {date : Date} (h : readDate s = some (date, r)) :
    HyphenBehindDigit s := by
  obtain ⟨⟨year, t⟩, hyear, h⟩ := Option.bind_eq_some_iff.1 h
  obtain ⟨u, hhyphen, -⟩ := Option.bind_eq_some_iff.1 h
  obtain rfl : t = '-' :: u := eq_cons_of_readChar hhyphen
  exact hyphen_of_readYear hyear

theorem hyphen_of_readWithOffset {i : Instant} (h : readWithOffset s = some i) :
    HyphenBehindDigit s := by
  -- only the first two of its many parts matter
  obtain ⟨⟨year, t⟩, hyear, h⟩ := Option.bind_eq_some_iff.1 h
  obtain ⟨u, hhyphen, -⟩ := Option.bind_eq_some_iff.1 h
  obtain rfl : t = '-' :: u := eq_cons_of_readChar hhyphen
  exact hyphen_of_readFixed (by decide) hyear

/-- Each text that spells a point in time has a hyphen behind its year. -/
theorem hyphenBehindDigit {text : List Char} {i : Instant} (h : ofText? text = some i) :
    HyphenBehindDigit (Text.trim text) := by
  simp only [ofText?, Option.orElse_eq_some] at h
  rcases h with h | ⟨-, h | ⟨-, h⟩⟩
  · exact hyphen_of_readWithOffset h
  · obtain ⟨_, hdate, -⟩ := Option.bind_eq_some_iff.1 h
    exact hyphen_of_readDate hdate
  · obtain ⟨_, hdate, -⟩ := Option.bind_eq_some_iff.1 h
    exact hyphen_of_readDate hdate

end Instant

/-! ## Numbers -/

namespace Decimal

variable {s : List Char}

/-- A sign takes no part in it. -/
theorem hyphenBehindDigit_sign (h : HyphenBehindDigit s) : HyphenBehindDigit (sign s).2 := by
  unfold sign
  split
  · exact h.of_cons (by decide)
  · exact h.of_cons (by decide)
  · exact h

/-- Behind the digits and the fraction of a number there still is the hyphen. -/
theorem hyphen_fraction (h : HyphenBehindDigit s) :
    (∃ r, (fraction (afterDigits s)).2 = '-' :: r) ∨
      HyphenBehindDigit (fraction (afterDigits s)).2 := by
  have hafter := h.afterDigits
  unfold fraction
  split
  · next r hpoint =>
    rw [hpoint] at hafter
    rcases hafter with ⟨t, ht⟩ | hafter
    · exact absurd ht (by simp)
    · exact (hafter.of_cons (by decide)).afterDigits
  · exact hafter

/-- An exponent is a sign and digits to the end. -/
theorem not_hyphenBehindDigit_of_exponent {e : Int} (h : exponent? s = some (e, [])) :
    ¬ HyphenBehindDigit s := by
  intro hs
  unfold exponent? at h
  dsimp only at h
  split at h
  · cases h
  · have hend : afterDigits (sign s).2 = [] := by
      have := congrArg (Option.map (·.2)) h
      simpa using this
    rcases (hyphenBehindDigit_sign hs).afterDigits with ⟨r, hr⟩ | hr
    · rw [hend] at hr
      cases hr
    · rw [hend] at hr
      cases hr

/-- **In a number no hyphen stands behind a digit.** -/
theorem not_hyphenBehindDigit {d : Decimal} (h : ofText? s = some d) : ¬ HyphenBehindDigit s := by
  intro hs
  have hrest := hyphen_fraction (hyphenBehindDigit_sign hs)
  unfold ofText? at h
  dsimp only at h
  generalize (fraction (afterDigits (sign s).2)).2 = rest at h hrest
  split at h
  · cases h
  · cases rest with
    | nil => rcases hrest with ⟨r, hr⟩ | hr <;> cases hr
    | cons c r =>
      dsimp only at h
      split at h
      · next hletter =>
        have hno : c.isDigit = false := by rcases hletter with rfl | rfl <;> decide
        have hexponent : HyphenBehindDigit r := by
          rcases hrest with ⟨t, ht⟩ | hr
          · obtain ⟨rfl, -⟩ := List.cons.inj ht
            exact absurd hletter (by decide)
          · exact hr.of_cons hno
        split at h
        · next e he => exact not_hyphenBehindDigit_of_exponent he hexponent
        · cases h
      · cases h

end Decimal

/-- **No text is both a point in time and a number.** -/
theorem number?_eq_none_of_instant {text : List Char} {i : Instant}
    (h : Instant.ofText? text = some i) : number? text = none := by
  have hhyphen := Instant.hyphenBehindDigit h
  rw [number?]
  cases hd : Decimal.ofText? (Text.trim text) with
  | none => rfl
  | some d => exact absurd hhyphen (Decimal.not_hyphenBehindDigit hd)

/-! ## What is relied on -/

/-- What is relied on of the texts of dates and of points in time: outside of the calendar nothing
else is used of how they are written and read. -/
structure DateNotation (write : Date → List Char) (read? : List Char → Option Instant) : Prop where
  reads_back (d : Date) : read? (write d) = some (.midnight d)
  ne_nil (d : Date) : write d ≠ []
  plain (d : Date) : ∀ c ∈ write d, c.isDigit = true ∨ c = '-' ∨ c = '+'
  no_number {text : List Char} {i : Instant} : read? text = some i → number? text = none

theorem dateNotation : DateNotation Date.text Instant.ofText? where
  reads_back := Instant.ofText?_text
  ne_nil := Date.text_ne_nil
  plain _ _ := Date.mem_text
  no_number := number?_eq_none_of_instant

end RowQuery
