import RowQuery.Calendar.Instant
import RowQuery.Query.Token
import RowQuery.Number.Decimal
import RowQuery.Schema.Command
import RowQuery.Text.LetterCase
import RowQuery.Text.Basic

/-!
# Comparing values

Whether a row's text stands in the relation of an operator to a token's text.

* Order: date keys compare instants if both texts spell one, else the texts by their characters;
  all other keys compare numbers, and nothing holds unless both texts spell one.
* Equality: numbers if both texts spell one; date keys also hold for equal instants; else the
  row's text has the other one in it, in any case.
* Inequality: numbers or, for date keys, instants, if both texts spell one; else the texts differ
  by more than case.
-/

namespace RowQuery.Rows

open Query (Operator)
open Text (lowercase occursIn)

/-- The numbers that two texts spell, if both do. -/
def numbers? (s t : String) : Option (Double × Double) :=
  match number? s.toList, number? t.toList with
  | some x, some y => some (x, y)
  | _, _ => none

/-- The instants that two texts spell, if both do. -/
def instants? (s t : String) : Option (Instant × Instant) :=
  match Instant.ofText? s.toList, Instant.ofText? t.toList with
  | some x, some y => some (x, y)
  | _, _ => none

/-- The order of two texts by their characters. -/
def textOrder (s t : String) : Ordering :=
  if s < t then .lt else if s = t then .eq else .gt

/-- The order of two instants. -/
def instantOrder (x y : Instant) : Ordering :=
  if x.ticks < y.ticks then .lt else if x.ticks = y.ticks then .eq else .gt

/-- The order of two finite numbers. -/
def numberOrder (x y : Double) : Ordering :=
  if x.lt y then .lt else if x.eq y then .eq else .gt

/-- The order of two values of a key. -/
def order? (kind : Option Kind) (actual expected : String) : Option Ordering :=
  if kind = some .date then
    match instants? actual expected with
    | some (x, y) => some (instantOrder x y)
    | none => some (textOrder actual expected)
  else (numbers? actual expected).map fun (x, y) => numberOrder x y

/-- Whether two values of a key count as equal. -/
def areEqual (kind : Option Kind) (actual expected : String) : Bool :=
  match numbers? actual expected with
  | some (x, y) => x.eq y
  | none =>
    let sameInstant := match instants? actual expected with
      | some (x, y) => x = y
      | none => false
    (kind = some .date && sameInstant) ||
      occursIn (lowercase expected.toList) (lowercase actual.toList)

/-- Whether two values of a key count as different. -/
def areDifferent (kind : Option Kind) (actual expected : String) : Bool :=
  let textsDiffer := lowercase actual.toList ≠ lowercase expected.toList
  match numbers? actual expected with
  | some (x, y) => !x.eq y
  | none =>
    if kind = some .date then
      match instants? actual expected with
      | some (x, y) => x ≠ y
      | none => textsDiffer
    else textsDiffer

/-- Whether a row's text stands in the relation of an operator to a token's text; `kind` is the
type of the key, if it is declared. -/
def holds (kind : Option Kind) (op : Operator) (actual expected : String) : Bool :=
  match op with
  | .contains | .equal => areEqual kind actual expected
  | .notEqual => areDifferent kind actual expected
  | .greater => order? kind actual expected == some .gt
  | .less => order? kind actual expected == some .lt
  | .atLeast => (order? kind actual expected).any (· != .lt)
  | .atMost => (order? kind actual expected).any (· != .gt)

end RowQuery.Rows
