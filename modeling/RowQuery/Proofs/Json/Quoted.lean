import Mathlib.Data.List.Forall2
import RowQuery.Json.Document

/-!
# Strings that are written and read

A control character may come back as a unit of 16 bits, which stands for it as well.

* `Piece.StandsFor`: what one written character is read as.
* `readQuoted_quoteTail`: what is between quotes is read character by character, whatever follows.
* `readString_quoteTail`: the string that was written is read.
-/

namespace RowQuery.Json

variable {c : Char} {s rest : List Char} {pieces : List Piece}

/-- What one written character is read as: itself, or a unit that is no half of a character. -/
inductive Piece.StandsFor : Piece → Char → Prop
  | char (c : Char) : StandsFor (.char c) c
  | unit (c : Char) (h : c.toNat < 0xD800) : StandsFor (.unit c.toNat) c

/-! ## One character -/

theorem eq_ofNat_of_toNat {n : Nat} (h : c.toNat = n) : c = Char.ofNat n := by
  rw [← h, Char.ofNat_toNat]

theorem hexUnit?_escape {n : Nat} (h : n < 0x20) :
    hexUnit? '0' '0' (hexDigit (n / 16)) (hexDigit (n % 16)) = some n := by
  have all : ∀ n < 0x20, hexUnit? '0' '0' (hexDigit (n / 16)) (hexDigit (n % 16)) = some n := by
    decide
  exact all n h

theorem readQuoted_escaped {e : Char} (hne : e ≠ 'u') (he : escaped? e = some c)
    (h : readQuoted s = some (pieces, rest)) :
    readQuoted ('\\' :: e :: s) = some (.char c :: pieces, rest) := by
  rw [readQuoted, he, h]
  intro a b d f r hu
  exact absurd hu hne

theorem readQuoted_plain (hquote : c ≠ '"') (hslash : c ≠ '\\') (hcontrol : ¬c.toNat < 0x20)
    (h : readQuoted s = some (pieces, rest)) :
    readQuoted (c :: s) = some (.char c :: pieces, rest) := by
  rw [readQuoted, if_neg hcontrol, h]
  · exact hquote
  · intro a b d f r hu
    exact absurd hu hslash
  · intro d r hu
    exact absurd hu hslash

/-- A character is read as it was written. -/
theorem readQuoted_escape (c : Char) (h : readQuoted s = some (pieces, rest)) :
    ∃ p, p.StandsFor c ∧ readQuoted (escape c ++ s) = some (p :: pieces, rest) := by
  rw [escape]
  by_cases hquote : c = '"'
  · subst hquote
    exact ⟨_, .char _, readQuoted_escaped (by decide) rfl h⟩
  rw [if_neg hquote]
  by_cases hslash : c = '\\'
  · subst hslash
    exact ⟨_, .char _, readQuoted_escaped (by decide) rfl h⟩
  rw [if_neg hslash]
  split
  · next hline =>
    subst hline
    exact ⟨_, .char _, readQuoted_escaped (by decide) rfl h⟩
  split
  · next hreturn =>
    subst hreturn
    exact ⟨_, .char _, readQuoted_escaped (by decide) rfl h⟩
  split
  · next htab =>
    subst htab
    exact ⟨_, .char _, readQuoted_escaped (by decide) rfl h⟩
  split
  · next hback =>
    obtain rfl := eq_ofNat_of_toNat hback
    exact ⟨_, .char _, readQuoted_escaped (by decide) rfl h⟩
  split
  · next hfeed =>
    obtain rfl := eq_ofNat_of_toNat hfeed
    exact ⟨_, .char _, readQuoted_escaped (by decide) rfl h⟩
  split
  · next hcontrol =>
    refine ⟨_, .unit c (by omega), ?_⟩
    show readQuoted ('\\' :: 'u' :: '0' :: '0' :: _ :: _ :: s) = _
    rw [readQuoted, hexUnit?_escape hcontrol, h]
  · next hcontrol => exact ⟨_, .char _, readQuoted_plain hquote hslash hcontrol h⟩

/-! ## All characters -/

theorem join?_unit {n : Nat} (h : n < 0xD800) (r : List Piece) :
    join? (.unit n :: r) = (join? r).map (Char.ofNat n :: ·) := by
  cases r with
  | nil => simp [join?, h]
  | cons p r => cases p <;> simp [join?, h]

theorem join?_of_standsFor {cs : List Char} (h : List.Forall₂ Piece.StandsFor pieces cs) :
    join? pieces = some cs := by
  induction h with
  | nil => rfl
  | cons hp _ ih =>
    cases hp with
    | char c => rw [join?, ih]; rfl
    | unit c hc => rw [join?_unit hc, ih, Char.ofNat_toNat]; rfl

theorem readQuoted_quoteTail (cs rest : List Char) :
    ∃ pieces, List.Forall₂ Piece.StandsFor pieces cs ∧
      readQuoted (quoteTail cs rest) = some (pieces, rest) := by
  induction cs with
  | nil => exact ⟨[], .nil, by rw [quoteTail, readQuoted]⟩
  | cons c cs ih =>
    obtain ⟨pieces, hpieces, hread⟩ := ih
    obtain ⟨p, hp, hread⟩ := readQuoted_escape c hread
    exact ⟨p :: pieces, .cons hp hpieces, hread⟩

/-- The string that was written is read. -/
theorem readString_quoteTail (s : String) (rest : List Char) :
    Document.readString (quoteTail s.toList rest) = some (some s, rest) := by
  obtain ⟨pieces, hpieces, hread⟩ := readQuoted_quoteTail s.toList rest
  have hjoin : (join? pieces).map String.ofList = some s := by
    rw [join?_of_standsFor hpieces, Option.map_some, String.ofList_toList]
  rw [Document.readString, hread, Option.map_some]
  exact congrArg (fun text => some (text, rest)) hjoin

end RowQuery.Json
