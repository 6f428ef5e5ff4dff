import RowQuery.Number.Decimal

/-!
# Shortest decimal texts

The decimal form of a finite double is finite itself: `exactDecimal` has all its digits.  Most of
them are not needed to tell the double from its neighbours.

* `shortest`: the fewest digits that read back as the same double, and of those the nearest.
* `layOut`: digits and a power of ten, written with a point or with an exponent.
* `fixed`: a double with a fixed number of decimal places, a tie going to the even digit.
-/

namespace RowQuery

/-! ## The fewest digits -/

/-- All digits of a number of units, and how many of them stand after the point. -/
def exactDecimal (units : Nat) : Nat × Nat :=
  let common := units.gcd unitsPerOne
  let places := (unitsPerOne / common).log2
  (units / common * Nat.pow 5 places, places)

/-- The decimal with `drop` digits less than the exact one `digits` that reads back as `units`:
the nearest such, the even one in a tie. -/
def shortened? (units digits places drop : Nat) : Option Decimal :=
  let power := Nat.pow 10 drop
  let below := digits / power
  let candidate (n : Nat) : Decimal := ⟨false, n, drop - places⟩
  let fits (n : Nat) : Bool := (candidate n).toDouble = .finite false units
  let nearest := roundDiv digits power
  let other := if nearest = below then below + 1 else below
  if fits nearest then some (candidate nearest)
  else if fits other then some (candidate other)
  else none

/-- The shortest decimal that reads back as `units`, with at most `drop` digits left out. -/
def shortestFrom (units digits places : Nat) : Nat → Decimal
  | 0 => ⟨false, digits, -places⟩
  | drop + 1 =>
    (shortened? units digits places (drop + 1)).getD (shortestFrom units digits places drop)

/-- The decimal with the fewest digits that reads back as a number of units.  All digits may go:
what is left is then a power of ten. -/
def shortest (units : Nat) : Decimal :=
  let (digits, places) := exactDecimal units
  shortestFrom units digits places (digitCount digits)

/-! ## Texts -/

/-- Digits and a power of ten: a point stands among the digits, or zeros are put between, if the
first digit stands for `10 ^ -5` up to `10 ^ 15`; elsewhere the point follows the first digit and
a power of ten is written. -/
def layOut (digits : Nat) (scale : Int) : List Char :=
  let ds := digitsOf digits
  let lead := scale + ds.length - 1
  if lead < -5 ∨ 16 ≤ lead then
    let tail := if ds.length = 1 then [] else '.' :: ds.drop 1
    let power := if lead < 0 then '-' :: digitsOf lead.natAbs else '+' :: digitsOf lead.natAbs
    ds.take 1 ++ tail ++ 'e' :: power
  else if lead < 0 then
    '0' :: '.' :: (List.replicate (lead.natAbs - 1) '0' ++ ds)
  else
    let whole := lead.natAbs + 1
    if ds.length ≤ whole then ds ++ List.replicate (whole - ds.length) '0' ++ ['.', '0']
    else ds.take whole ++ '.' :: ds.drop whole

/-- The shortest text of a finite double: a point or an exponent always marks it as one. -/
def Double.text (negative : Bool) (units : Nat) : List Char :=
  let sign := if negative then ['-'] else []
  if units = 0 then sign ++ ['0', '.', '0']
  else
    let d := shortest units
    sign ++ layOut d.digits d.scale

/-- A double with `places` digits after the point. -/
def Double.fixed (places : Nat) : Double → List Char
  | .nan => ['N', 'a', 'N']
  | .infinite s => (if s then ['-'] else []) ++ ['i', 'n', 'f']
  | .finite s m =>
    let power := Nat.pow 10 places
    let n := roundDiv (m * power) unitsPerOne
    (if s then ['-'] else []) ++ digitsOf (n / power) ++ '.' :: padded places (n % power)

end RowQuery
