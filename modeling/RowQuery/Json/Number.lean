import RowQuery.Number.Shortest

/-!
# Numbers

Whole numbers of at most 64 bits are kept apart from all other numbers, which are doubles.  A double
is not read as the nearest one: its leading digits are rounded first, and once more when a power of
ten is multiplied or divided by.  So a number that is written need not be the one that is read.

* `readNumeral`: the parts of a number as it is written.
* `Numeral.number?`: the number that is made of them, if it is not too large.
* `Number.text`: how a number is written.
-/

namespace RowQuery.Json

/-! ## Parts of a number -/

/-- A number as it is written. -/
structure Numeral where
  negative : Bool
  /-- The digits before the point. -/
  whole : List Char
  /-- The digits after the point, if there is one. -/
  fraction : List Char
  exponent : Option Int

/-- The digits before the point: no zero stands before other digits. -/
def readWhole : List Char → Option (List Char × List Char)
  | '0' :: r => some (['0'], r)
  | s =>
    if (Decimal.leadingDigits s).isEmpty then none
    else some (Decimal.leadingDigits s, Decimal.afterDigits s)

/-- The point and the digits after it, if there is a point. -/
def readFraction : List Char → Option (List Char × List Char)
  | '.' :: r =>
    if (Decimal.leadingDigits r).isEmpty then none
    else some (Decimal.leadingDigits r, Decimal.afterDigits r)
  | s => some ([], s)

/-- The exponent, if there is one. -/
def readExponent : List Char → Option (Option Int × List Char)
  | c :: r =>
    if c = 'e' ∨ c = 'E' then (Decimal.exponent? r).map fun (e, rest) => (some e, rest)
    else some (none, c :: r)
  | [] => some (none, [])

/-- Reads the parts of a number. -/
def readNumeral (s : List Char) : Option (Numeral × List Char) := do
  let (negative, r) := match s with
    | '-' :: r => (true, r)
    | _ => (false, s)
  let (whole, r) ← readWhole r
  let (fraction, r) ← readFraction r
  let (exponent, r) ← readExponent r
  return (⟨negative, whole, fraction, exponent⟩, r)

/-! ## The number that is read -/

/-- What a number means: a whole number, or a double. -/
inductive Number where
  | int (value : Int)
  | double (value : Double)
  deriving DecidableEq

/-- Puts digits behind a number as long as it fits into 64 bits: the number, and how many digits it
took. -/
def takeDigits (n : Nat) : List Char → Nat × Nat
  | [] => (n, 0)
  | c :: r =>
    let next := 10 * n + (c.toNat - '0'.toNat)
    if next < Nat.pow 2 64 then
      let (m, count) := takeDigits next r
      (m, count + 1)
    else (n, 0)

/-- The double nearest to a power of ten. -/
def powerOfTen (k : Nat) : Double :=
  .ofNat (Nat.pow 10 k)

/-- A double times a power of ten; none if it is too large.  The powers stop at `10 ^ 308`, and of a
double below `2 ^ 64` nothing is left after a division by two such. -/
def shift? (x : Double) : Int → Option Double
  | .ofNat k =>
    if k ≤ 308 then some (x.mul (powerOfTen k)) |>.filter Double.isFinite
    else if x = .zero then some x
    else none
  | .negSucc k =>
    if k < 308 then some (x.div (powerOfTen (k + 1)))
    else some ((x.div (powerOfTen 308)).div (powerOfTen (min (k + 1 - 308) 308)))

namespace Numeral

/-- Whether it has neither a point nor an exponent. -/
def isInteger (n : Numeral) : Bool :=
  n.fraction.isEmpty && n.exponent.isNone

/-- The leading digits, as many as fit into 64 bits, and the power of ten of the last of them.
Digits before the point that do not fit count as zeros, those after it are dropped. -/
def leading (n : Numeral) : Nat × Int :=
  let (w, i) := takeDigits 0 n.whole
  let (m, j) := takeDigits w n.fraction
  (m, n.exponent.getD 0 + (n.whole.length - i : Nat) - j)

/-- The number: a whole number if it is written as one and fits into 64 bits with or without a sign,
minus zero aside; else a double, which must be finite. -/
def number? (n : Numeral) : Option Number :=
  let whole := Double.signed n.negative (digitsValue n.whole)
  if n.isInteger ∧ ¬(n.negative ∧ whole = 0) ∧ -(Nat.pow 2 63) ≤ whole ∧ whole < Nat.pow 2 64 then
    some (.int whole)
  else
    let (digits, scale) := n.leading
    (shift? (.ofNat digits) scale).map fun x => .double (if n.negative then x.neg else x)

end Numeral

/-! ## The text of a number -/

namespace Number

/-- How a number is written; a double that is not finite has no text of its own. -/
def text : Number → List Char
  | .int n => if n < 0 then '-' :: digitsOf n.natAbs else digitsOf n.natAbs
  | .double (.finite s m) => Double.text s m
  | .double _ => ['n', 'u', 'l', 'l']

/-- The double nearest to a number. -/
def toDouble : Number → Double
  | .int n => .ofInt n
  | .double x => x

end Number

end RowQuery.Json
