import RowQuery.Number.Double

/-!
# Similarity of texts

The Jaro-Winkler similarity of two texts, a double between 0 and 1.

* Two characters match if they are equal and stand at nearly the same place; `matched` pairs each
  character of the first text with the earliest free one of the second.
* `jaro`: the mean of the matched shares of both texts and of the share of matches in order.
* `similarity`: a common beginning of up to four characters raises a score above 0.7.
-/

namespace RowQuery.Text

/-- Marks the first unmarked `c` at the places from `low` up to but not including `high`, if there
is one; `place` is the place of the first character. -/
def markFirst? (c : Char) (low high : Nat) : Nat → List (Char × Bool) → Option (List (Char × Bool))
  | _, [] => none
  | place, (d, marked) :: r =>
    if high ≤ place then none
    else if low ≤ place ∧ c = d ∧ !marked then some ((d, true) :: r)
    else (markFirst? c low high (place + 1) r).map ((d, marked) :: ·)

/-- The characters of the first text, from the place `place` on, that have a match in the second,
and the second text with its matched characters marked. -/
def matched (range : Nat) : Nat → List Char → List (Char × Bool) → List Char × List (Char × Bool)
  | _, [], other => ([], other)
  | place, c :: r, other =>
    match markFirst? c (place - range) (place + range + 1) 0 other with
    | some other =>
      let (found, other) := matched range (place + 1) r other
      (c :: found, other)
    | none => matched range (place + 1) r other

/-- The Jaro similarity of two texts. -/
def jaro (s t : List Char) : Double :=
  if s.isEmpty && t.isEmpty then Double.ofNat 1
  else if s.isEmpty || t.isEmpty then Double.zero
  else
    let range := max s.length t.length / 2 - 1
    let (found, other) := matched range 0 s (t.map fun c => (c, false))
    let counterparts := (other.filter (·.2)).map (·.1)
    let displaced := ((found.zip counterparts).filter fun (c, d) => c ≠ d).length / 2
    let count := found.length
    if count = 0 then Double.zero
    else
      let share (n m : Nat) : Double := (Double.ofNat n).div (Double.ofNat m)
      (((share count s.length).add (share count t.length)).add
        (share (count - displaced) count)).div (Double.ofNat 3)

/-- The number of characters, at most four, that two texts begin with together. -/
def commonStart (s t : List Char) : Nat :=
  (((s.take 4).zip t).takeWhile fun (c, d) => c = d).length

/-- The Jaro-Winkler similarity of two texts. -/
def similarity (s t : List Char) : Double :=
  let score := jaro s t
  let tenth (n : Nat) : Double := Double.ofRatio false (n * unitsPerOne) 10
  if (tenth 7).lt score then
    score.add (((tenth 1).mul (Double.ofNat (commonStart s t))).mul ((Double.ofNat 1).sub score))
  else score

end RowQuery.Text
