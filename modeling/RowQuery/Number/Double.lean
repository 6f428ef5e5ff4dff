/-!
# Double precision numbers

A finite double is a whole number of *units* of `2 ^ -1074`, so that sums, products and quotients
are exact ratios of natural numbers which are then rounded once, to nearest with ties to even.

* `roundUnits`: the rounded form of a ratio of units, with 53 significant bits.
* `Double.ofRatio`: the double nearest to a ratio; from `2 ^ 1024` on it is infinite.
* `Double.position`: where a double lies on the line, which decides `lt`, `le` and `eq`; a NaN
  lies nowhere and compares with nothing.
-/

namespace RowQuery

/-! ## Rounding -/

/-- The quotient `num / den` rounded to the nearest natural number, a tie to the even one. -/
def roundDiv (num den : Nat) : Nat :=
  let quotient := num / den
  let twice := 2 * (num % den)
  if twice < den then quotient
  else if den < twice then quotient + 1
  else quotient + quotient % 2

/-- The binary exponent of the last significant bit of a ratio that is kept. -/
def lastBit (num den : Nat) : Nat :=
  (num / den).log2 - 52

/-- The ratio `num / den` rounded to 53 significant bits, or to a whole number if it has fewer. -/
def roundUnits (num den : Nat) : Nat :=
  let power := Nat.pow 2 (lastBit num den)
  roundDiv num (den * power) * power

/-- How many units make one. -/
def unitsPerOne : Nat := Nat.pow 2 1074

/-- The first magnitude in units that is too large for a finite double. -/
def unitsLimit : Nat := Nat.pow 2 2098

/-! ## The type -/

/-- A double precision number; zero has a sign as well. -/
inductive Double where
  | finite (negative : Bool) (units : Nat)
  | infinite (negative : Bool)
  | nan
  deriving DecidableEq

namespace Double

/-- The double nearest to `num / den` units with the given sign. -/
def ofRatio (negative : Bool) (num den : Nat) : Double :=
  let units := roundUnits num den
  if units < unitsLimit then .finite negative units else .infinite negative

/-- Zero. -/
def zero : Double := .finite false 0

/-- Zero with a negative sign, at which sums start. -/
def negativeZero : Double := .finite true 0

/-- The double nearest to a natural number. -/
def ofNat (n : Nat) : Double :=
  ofRatio false (n * unitsPerOne) 1

/-- The double nearest to a whole number. -/
def ofInt (n : Int) : Double :=
  ofRatio (n < 0) (n.natAbs * unitsPerOne) 1

/-- Whether a double is neither infinite nor a NaN. -/
def isFinite : Double → Bool
  | .finite _ _ => true
  | _ => false

/-- A magnitude with its sign. -/
def signed (negative : Bool) (magnitude : Nat) : Int :=
  if negative then -magnitude else magnitude

/-! ## Arithmetic -/

/-- The number with the other sign. -/
def neg : Double → Double
  | .finite s m => .finite (!s) m
  | .infinite s => .infinite (!s)
  | .nan => .nan

/-- The rounded sum; opposite numbers add up to the positive zero. -/
def add : Double → Double → Double
  | .finite s m, .finite t n =>
    let total := signed s m + signed t n
    if total = 0 then .finite (s && t) 0 else ofRatio (total < 0) total.natAbs 1
  | .infinite s, .infinite t => if s = t then .infinite s else .nan
  | .infinite s, .finite _ _ => .infinite s
  | .finite _ _, .infinite t => .infinite t
  | .nan, _ => .nan
  | _, .nan => .nan

/-- The rounded difference. -/
def sub (x y : Double) : Double :=
  add x y.neg

/-- The rounded product. -/
def mul : Double → Double → Double
  | .finite s m, .finite t n => ofRatio (s != t) (m * n) unitsPerOne
  | .infinite s, .infinite t => .infinite (s != t)
  | .infinite s, .finite t n => if n = 0 then .nan else .infinite (s != t)
  | .finite s m, .infinite t => if m = 0 then .nan else .infinite (s != t)
  | .nan, _ => .nan
  | _, .nan => .nan

/-- The rounded quotient. -/
def div : Double → Double → Double
  | .finite s m, .finite t n =>
    if n = 0 then (if m = 0 then .nan else .infinite (s != t))
    else ofRatio (s != t) (m * unitsPerOne) n
  | .infinite _, .infinite _ => .nan
  | .infinite s, .finite t _ => .infinite (s != t)
  | .finite s _, .infinite t => .finite (s != t) 0
  | .nan, _ => .nan
  | _, .nan => .nan

/-- The sum of a list from the left, starting at the negative zero. -/
def sum (xs : List Double) : Double :=
  xs.foldl add negativeZero

/-! ## Order -/

/-- Where a number lies, in units; the infinities lie just outside the finite numbers. -/
def position : Double → Option Int
  | .finite s m => some (signed s m)
  | .infinite s => some (signed s unitsLimit)
  | .nan => none

/-- Whether `x` is below `y`. -/
def lt (x y : Double) : Bool :=
  match x.position, y.position with
  | some a, some b => a < b
  | _, _ => false

/-- Whether `x` is at most `y`. -/
def le (x y : Double) : Bool :=
  match x.position, y.position with
  | some a, some b => a ≤ b
  | _, _ => false

/-- Whether `x` and `y` are the same number; the two zeros are. -/
def eq (x y : Double) : Bool :=
  match x.position, y.position with
  | some a, some b => a == b
  | _, _ => false

end Double

end RowQuery
