import RowQuery.Text.LetterCase.Table

/-!
# Lowercase texts

`lowercase` maps a text to lowercase as Unicode does without regard to language: character by
character, apart from two letters.  `Σ` becomes `ς` where it ends a word and `σ` elsewhere, and
`İ` becomes `i` with a dot above.

* `fold`: the same on strings; two keys that differ only in case have equal folds.
-/

namespace RowQuery.Text

/-- The lowercase form of a character that does not depend on its neighbours. -/
def lowerChar (c : Char) : Char :=
  if c.toNat < 0x80 then c.toLower
  else
    match lowercaseRuns.find? (·.covers c.toNat) with
    | some run => Char.ofNat (run.lower c.toNat)
    | none => c

/-- Whether the first character that counts is a letter with case. -/
def facesLetter (s : List Char) : Bool :=
  match s.dropWhile fun c => inRanges caseIgnorableRanges c.toNat with
  | [] => false
  | c :: _ => inRanges casedRanges c.toNat

/-- Whether a letter ends a word, given the characters before it, the nearest first, and those
after it. -/
def endsWord (before after : List Char) : Bool :=
  facesLetter before && !facesLetter after

/-- The lowercase form of the rest of a text, `before` being what precedes it, the nearest
character first. -/
def lowercaseAfter (before : List Char) : List Char → List Char
  | [] => []
  | c :: r =>
    if c = 'Σ' then (if endsWord before r then 'ς' else 'σ') :: lowercaseAfter (c :: before) r
    else if c = 'İ' then 'i' :: '\u0307' :: lowercaseAfter (c :: before) r
    else lowerChar c :: lowercaseAfter (c :: before) r

/-- The lowercase form of a text. -/
def lowercase (s : List Char) : List Char :=
  lowercaseAfter [] s

/-- The lowercase form of a string. -/
def fold (s : String) : String :=
  String.ofList (lowercase s.toList)

@[simp] theorem toList_fold (s : String) : (fold s).toList = lowercase s.toList := by
  simp [fold]

end RowQuery.Text
