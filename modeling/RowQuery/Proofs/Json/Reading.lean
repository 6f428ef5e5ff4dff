import RowQuery.Json.Document
import RowQuery.Proofs.Json.Numeral
import RowQuery.Proofs.Json.Quoted

/-!
# Steps of reading

* `skipBlanks_append`: blanks are passed over.
* `readValue_of_readNumeral`: where a number is read, no other form of a document is.
* `readValue_array`, `readValue_object`: what encloses items and members.
* `readItems_last`, `readItems_more`: an item, and those after it.
* `readMembers_last`, `readMembers_more`: a member, and those after it.
-/

namespace RowQuery.Json

open Document
open Text (takeWhile_append_stop)

variable {s r rest g : List Char} {fuel : Nat}

/-! ## Blanks -/

/-- Blanks are passed over. -/
theorem skipBlanks_append (hg : ∀ c ∈ g, IsBlank c) (hs : ∀ c ∈ s.head?, ¬IsBlank c) :
    skipBlanks (g ++ s) = s :=
  (takeWhile_append_stop (p := fun c => IsBlank c)
    (fun c hc => decide_eq_true (hg c hc)) fun c hc => decide_eq_false (hs c hc)).2

theorem skipBlanks_of_head (hs : ∀ c ∈ s.head?, ¬IsBlank c) : skipBlanks s = s :=
  skipBlanks_append (g := []) (by simp) hs

theorem skipBlanks_cons {c : Char} (h : ¬IsBlank c) (r : List Char) :
    skipBlanks (c :: r) = c :: r :=
  skipBlanks_of_head (by rintro _ ⟨⟩; exact h)

theorem endsNumber_append {c : Char} (hg : ∀ c ∈ g, IsBlank c) (hc : EndsNumber [c]) :
    EndsNumber (g ++ c :: r) := by
  cases g with
  | nil =>
    rintro _ ⟨⟩
    exact hc c rfl
  | cons d g =>
    rintro _ ⟨⟩
    rcases hg d (List.mem_cons_self ..) with rfl | rfl | rfl | rfl <;> decide

/-! ## Where a value begins -/

/-- A text that begins as a value does. -/
def StartsValue (s : List Char) : Prop :=
  ∃ c r, s = c :: r ∧ ¬IsBlank c ∧ c ≠ ']'

theorem StartsValue.not_blank (hs : StartsValue s) : ∀ c ∈ s.head?, ¬IsBlank c := by
  obtain ⟨c, r, rfl, hblank, -⟩ := hs
  rintro _ ⟨⟩
  exact hblank

/-- A number begins with a sign or a digit. -/
theorem starts_of_readNumeral {p : Numeral × List Char} (h : readNumeral s = some p) :
    ∃ c r, s = c :: r ∧ (c = '-' ∨ c.isDigit = true) := by
  cases s with
  | nil => cases h
  | cons c r =>
    refine ⟨c, r, rfl, Decidable.byContradiction fun hc => ?_⟩
    obtain ⟨hsign, hdigit⟩ := not_or.1 hc
    have hzero : c ≠ '0' := by
      rintro rfl
      exact hdigit rfl
    have hnone : readWhole (c :: r) = none := by
      simp [readWhole, Decimal.leadingDigits, hdigit, hzero]
    simp [readNumeral, hsign, hnone] at h

theorem startsValue_of_readNumeral {p : Numeral × List Char} (h : readNumeral s = some p) :
    StartsValue s := by
  obtain ⟨c, r, rfl, hc⟩ := starts_of_readNumeral h
  refine ⟨c, r, rfl, ?_, ?_⟩
  · rintro (rfl | rfl | rfl | rfl) <;> simp at hc
  · rintro rfl
    simp at hc

/-- Where a number is read, no other form of a document is. -/
theorem readValue_of_readNumeral {n : Numeral} (h : readNumeral s = some (n, rest)) :
    readValue (fuel + 1) s = some (.number n.number?, rest) := by
  obtain ⟨c, r, rfl, hc⟩ := starts_of_readNumeral h
  have hother : ∀ d : Char, d ≠ '-' → d.isDigit = false → c ≠ d := by
    rintro d hsign hdigit rfl
    simp [hsign, hdigit] at hc
  have hskip := skipBlanks_of_head (startsValue_of_readNumeral h).not_blank
  simp [readValue, hskip, hother, h]

/-! ## Blanks before a value -/

theorem readValue_blanks (hg : ∀ c ∈ g, IsBlank c) (hs : StartsValue s) :
    readValue fuel (g ++ s) = readValue fuel s := by
  cases fuel with
  | zero => rw [readValue, readValue]
  | succ fuel =>
    rw [readValue, readValue, skipBlanks_append hg hs.not_blank, skipBlanks_of_head hs.not_blank]

theorem readItems_blanks (hg : ∀ c ∈ g, IsBlank c) (hs : StartsValue s) :
    readItems fuel (g ++ s) = readItems fuel s := by
  cases fuel with
  | zero => rw [readItems, readItems]
  | succ fuel => rw [readItems, readItems, readValue_blanks hg hs]

theorem readMembers_blanks (hg : ∀ c ∈ g, IsBlank c) (hs : StartsValue s) :
    readMembers fuel (g ++ s) = readMembers fuel s := by
  cases fuel with
  | zero => rw [readMembers, readMembers]
  | succ fuel =>
    rw [readMembers, readMembers, skipBlanks_append hg hs.not_blank,
      skipBlanks_of_head hs.not_blank]

/-! ## Arrays and objects -/

theorem readValue_array {items : List Document} (hg : ∀ c ∈ g, IsBlank c) (hs : StartsValue s)
    (h : readItems fuel s = some (items, rest)) :
    readValue (fuel + 1) ('[' :: (g ++ s)) = some (.array items, rest) := by
  have hskip := skipBlanks_append hg hs.not_blank
  obtain ⟨c, r, rfl, -, hne⟩ := hs
  have hhead := skipBlanks_cons (c := '[') (by decide) (g ++ c :: r)
  simp [readValue, hhead, hskip, hne, h]

theorem readValue_object {members : List (Option String × Document)} (hg : ∀ c ∈ g, IsBlank c)
    (h : readMembers fuel ('"' :: s) = some (members, rest)) :
    readValue (fuel + 1) ('{' :: (g ++ '"' :: s)) = some (.object members, rest) := by
  have hskip : skipBlanks (g ++ '"' :: s) = '"' :: s := skipBlanks_append hg (by simp; decide)
  have hhead := skipBlanks_cons (c := '{') (by decide) (g ++ '"' :: s)
  simp [readValue, hhead, hskip, h]

theorem readItems_last {d : Document} (hg : ∀ c ∈ g, IsBlank c)
    (h : readValue fuel s = some (d, g ++ ']' :: rest)) :
    readItems (fuel + 1) s = some ([d], rest) := by
  have hskip : skipBlanks (g ++ ']' :: rest) = ']' :: rest := skipBlanks_append hg (by simp; decide)
  simp [readItems, h, hskip]

theorem readItems_more {d : Document} {items : List Document}
    (h : readValue fuel s = some (d, ',' :: r)) (hitems : readItems fuel r = some (items, rest)) :
    readItems (fuel + 1) s = some (d :: items, rest) := by
  have hcomma := skipBlanks_cons (c := ',') (by decide) r
  simp [readItems, h, hcomma, hitems]

theorem readMembers_last {k : String} {d : Document} {p : List Char} (hp : ∀ c ∈ p, IsBlank c)
    (hs : StartsValue s) (hg : ∀ c ∈ g, IsBlank c)
    (h : readValue fuel s = some (d, g ++ '}' :: rest)) :
    readMembers (fuel + 1) (quote k (':' :: (p ++ s))) = some ([(some k, d)], rest) := by
  have hquote := skipBlanks_cons (c := '"') (by decide) (quoteTail k.toList (':' :: (p ++ s)))
  have hcolon := skipBlanks_cons (c := ':') (by decide) (p ++ s)
  have hskip : skipBlanks (g ++ '}' :: rest) = '}' :: rest := skipBlanks_append hg (by simp; decide)
  simp [readMembers, quote, hquote, readString_quoteTail, hcolon, readValue_blanks hp hs, h, hskip]

theorem readMembers_more {k : String} {d : Document} {p : List Char}
    {members : List (Option String × Document)} (hp : ∀ c ∈ p, IsBlank c) (hs : StartsValue s)
    (h : readValue fuel s = some (d, ',' :: r))
    (hmembers : readMembers fuel r = some (members, rest)) :
    readMembers (fuel + 1) (quote k (':' :: (p ++ s))) = some ((some k, d) :: members, rest) := by
  have hquote := skipBlanks_cons (c := '"') (by decide) (quoteTail k.toList (':' :: (p ++ s)))
  have hcolon := skipBlanks_cons (c := ':') (by decide) (p ++ s)
  have hcomma := skipBlanks_cons (c := ',') (by decide) r
  simp [readMembers, quote, hquote, readString_quoteTail, hcolon, readValue_blanks hp hs, h, hcomma,
    hmembers]

end RowQuery.Json
