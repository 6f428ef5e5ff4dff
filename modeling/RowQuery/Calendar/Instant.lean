import RowQuery.Calendar.Date
import RowQuery.Number.Decimal
import RowQuery.Text.Basic

/-!
# Points in time

An instant is a whole number of ticks.  Each second has room for two thousand million of them: the
second half is for a leap second, which follows the last second of its minute and comes before the
next minute.

* `Instant.ofText?`: reads a date with a time and an offset, a date with a time, or a date alone,
  which is its midnight.
-/

namespace RowQuery

/-- A point in time. -/
structure Instant where
  ticks : Int
  deriving DecidableEq

namespace Instant

/-- Ticks for one second. -/
def ticksPerSecond : Nat := 2000000000

/-- The instant at a number of seconds and nanoseconds after the midnight of a date. -/
def after (date : Date) (seconds : Int) (nanoseconds : Nat) : Instant :=
  ⟨(date.dayNumber * 86400 + seconds) * ticksPerSecond + nanoseconds⟩

/-- The midnight at which a date begins. -/
def midnight (date : Date) : Instant :=
  after date 0 0

/-- The instant of a time of day on a date, if there is such a time.  The second 60 is a leap
second. -/
def ofClock? (date : Date) (hour minute second nanosecond : Nat) (offset : Int) : Option Instant :=
  if hour ≤ 23 ∧ minute ≤ 59 ∧ second ≤ 60 then
    let seconds : Int := hour * 3600 + minute * 60 + min second 59 - offset
    some (after date seconds (if second = 60 then 1000000000 + nanosecond else nanosecond))
  else none

/-! ## Reading -/

/-- Reads the character `c`. -/
def readChar (c : Char) : List Char → Option (List Char)
  | [] => none
  | d :: r => if d = c then some r else none

/-- Reads a number of exactly `n` digits. -/
def readFixed (n : Nat) (s : List Char) : Option (Nat × List Char) :=
  let ds := (s.take n).takeWhile Char.isDigit
  if ds.length = n then some (digitsValue ds, s.drop n) else none

/-- Reads a number of up to `n` digits, after white space. -/
def readUpTo (n : Nat) (s : List Char) : Option (Nat × List Char) :=
  let r := Text.trimLeft s
  let ds := (r.take n).takeWhile Char.isDigit
  if ds.isEmpty then none else some (digitsValue ds, r.drop ds.length)

/-- Reads a year, after white space: up to four digits, or any number of them after a sign. -/
def readYear (s : List Char) : Option (Int × List Char) :=
  let signedYear (negative : Bool) (r : List Char) : Option (Int × List Char) :=
    let ds := Decimal.leadingDigits r
    if ds.isEmpty then none
    else some (Double.signed negative (digitsValue ds), Decimal.afterDigits r)
  match Text.trimLeft s with
  | '-' :: r => signedYear true r
  | '+' :: r => signedYear false r
  | r => (readUpTo 4 r).map fun (n, rest) => (n, rest)

/-- Reads the nanoseconds after a point, if there is one: at least one digit is needed, and those
after the ninth do not count. -/
def readNanoseconds : List Char → Option (Nat × List Char)
  | '.' :: r =>
    let ds := Decimal.leadingDigits r
    if ds.isEmpty then none
    else
      let kept := ds.take 9
      some (digitsValue kept * Nat.pow 10 (9 - kept.length), Decimal.afterDigits r)
  | s => some (0, s)

/-- Reads an offset from universal time in seconds: `Z`, or a sign, hours and minutes. -/
def readOffset : List Char → Option (Int × List Char)
  | [] => none
  | c :: r =>
    if c = 'Z' ∨ c = 'z' then some (0, r)
    else if c = '+' ∨ c = '-' ∨ c = '−' then do
      let (hours, r) ← readFixed 2 r
      let r ← readChar ':' r
      let (minutes, r) ← readFixed 2 r
      if hours ≤ 23 ∧ minutes ≤ 59 then
        some (Double.signed (c ≠ '+') (hours * 3600 + minutes * 60), r)
      else none
    else none

/-- Reads a date and a time with an offset; each number has all of its digits. -/
def readWithOffset (s : List Char) : Option Instant := do
  let (year, r) ← readFixed 4 s
  let r ← readChar '-' r
  let (month, r) ← readFixed 2 r
  let r ← readChar '-' r
  let (day, r) ← readFixed 2 r
  let r ← (readChar 'T' r <|> readChar 't' r <|> readChar ' ' r)
  let (hour, r) ← readFixed 2 r
  let r ← readChar ':' r
  let (minute, r) ← readFixed 2 r
  let r ← readChar ':' r
  let (second, r) ← readFixed 2 r
  let (nanosecond, r) ← readNanoseconds r
  let (offset, r) ← readOffset r
  if r.isEmpty then
    let date ← Date.ofNumbers? year month day
    ofClock? date hour minute second nanosecond offset
  else none

/-- Reads a date at the start of a text; its numbers need not have all of their digits. -/
def readDate (s : List Char) : Option (Date × List Char) := do
  let (year, r) ← readYear s
  let r ← readChar '-' r
  let (month, r) ← readUpTo 2 r
  let r ← readChar '-' r
  let (day, r) ← readUpTo 2 r
  let date ← Date.ofNumbers? year month day
  return (date, r)

/-- Reads a date and a time. -/
def readWithTime (s : List Char) : Option Instant := do
  let (date, r) ← readDate s
  let r ← readChar 'T' r
  let (hour, r) ← readUpTo 2 r
  let r ← readChar ':' r
  let (minute, r) ← readUpTo 2 r
  let r ← readChar ':' r
  let (second, r) ← readUpTo 2 r
  if r.isEmpty then ofClock? date hour minute second 0 0 else none

/-- Reads a date alone. -/
def readMidnight (s : List Char) : Option Instant := do
  let (date, r) ← readDate s
  if r.isEmpty then some (midnight date) else none

/-- The instant that a text spells, white space at its ends aside. -/
def ofText? (text : List Char) : Option Instant :=
  let s := Text.trim text
  readWithOffset s <|> readWithTime s <|> readMidnight s

end Instant

end RowQuery
