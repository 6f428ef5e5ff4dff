import RowQuery.Number.Digits
import RowQuery.Number.Double
import RowQuery.Text.Basic

/-!
# Decimal numbers and their text

* `Decimal`: a whole number of digits times a power of ten.
* `Decimal.toDouble`: the nearest double; far too large and far too small powers are decided
  without computing them.
* `Decimal.ofText?`: reads a number as it is usually typed: a sign, digits with at most one point
  among or around them, and an exponent, all optional but one digit.
* `number?`: the finite number that a text spells, if it does, white space around it aside.
-/

namespace RowQuery

/-- The number `digits * 10 ^ scale`, with a sign. -/
structure Decimal where
  negative : Bool
  digits : Nat
  scale : Int
  deriving DecidableEq

namespace Decimal

/-- The double nearest to a decimal number.  A nonzero number with `scale` above 400 is at least
`10 ^ 401`; one with `scale` below minus 1100 and its binary length is less than half a unit. -/
def toDouble (d : Decimal) : Double :=
  if d.digits = 0 then .finite d.negative 0
  else if 400 < d.scale then .infinite d.negative
  else if d.scale < -(d.digits.log2 + 1100 : Nat) then .finite d.negative 0
  else
    match d.scale with
    | .ofNat k => .ofRatio d.negative (d.digits * Nat.pow 10 k * unitsPerOne) 1
    | .negSucc k => .ofRatio d.negative (d.digits * unitsPerOne) (Nat.pow 10 (k + 1))

/-! ## Parts of a number's text -/

/-- The digits a text begins with. -/
def leadingDigits (s : List Char) : List Char :=
  s.takeWhile Char.isDigit

/-- What follows the digits a text begins with. -/
def afterDigits (s : List Char) : List Char :=
  s.dropWhile Char.isDigit

/-- The digits after a point, if the text begins with one, and what follows them. -/
def fraction : List Char → List Char × List Char
  | '.' :: r => (leadingDigits r, afterDigits r)
  | s => ([], s)

/-- The sign a text begins with, if any: whether it is negative, and what follows it. -/
def sign : List Char → Bool × List Char
  | '-' :: r => (true, r)
  | '+' :: r => (false, r)
  | s => (false, s)

/-- The exponent after its letter, and what follows it: a sign, if any, and at least one digit. -/
def exponent? (s : List Char) : Option (Int × List Char) :=
  let (negative, r) := sign s
  if (leadingDigits r).isEmpty then none
  else some (Double.signed negative (digitsValue (leadingDigits r)), afterDigits r)

/-- The number with these digits before and after the point and this exponent. -/
def ofParts (negative : Bool) (whole fraction : List Char) (exponent : Int) : Decimal :=
  ⟨negative, digitsValue (whole ++ fraction), exponent - fraction.length⟩

/-! ## Reading -/

/-- The number that a whole text spells. -/
def ofText? (s : List Char) : Option Decimal :=
  let (negative, r) := sign s
  let whole := leadingDigits r
  let (part, r) := fraction (afterDigits r)
  if whole.isEmpty && part.isEmpty then none
  else
    match r with
    | [] => some (ofParts negative whole part 0)
    | c :: r =>
      if c = 'e' ∨ c = 'E' then
        match exponent? r with
        | some (e, []) => some (ofParts negative whole part e)
        | _ => none
      else none

end Decimal

/-- The finite number that a text spells, white space at its ends aside. -/
def number? (text : List Char) : Option Double :=
  ((Decimal.ofText? (Text.trim text)).map Decimal.toDouble).filter Double.isFinite

end RowQuery
