/-!
# Quoted strings

How a string is written between quotes, and read again.

* `quote`: the written form.  The quote, the backslash and the control characters are escaped.
* `readQuoted`: the pieces up to the closing quote, and what follows it.
* `join?`: the text that pieces stand for.  A `\u` escape gives one 16-bit unit; two units may
  form one character together, and a unit left alone forms none.
-/

namespace RowQuery.Json

/-! ## Writing -/

/-- The digit for a number below sixteen, in lower case. -/
def hexDigit (n : Nat) : Char :=
  if n < 10 then Char.ofNat ('0'.toNat + n) else Char.ofNat ('a'.toNat + (n - 10))

/-- A character as it is written between quotes. -/
def escape (c : Char) : List Char :=
  if c = '"' then ['\\', '"']
  else if c = '\\' then ['\\', '\\']
  else if c = '\n' then ['\\', 'n']
  else if c = '\r' then ['\\', 'r']
  else if c = '\t' then ['\\', 't']
  else if c.toNat = 0x8 then ['\\', 'b']
  else if c.toNat = 0xC then ['\\', 'f']
  else if c.toNat < 0x20 then ['\\', 'u', '0', '0', hexDigit (c.toNat / 16), hexDigit (c.toNat % 16)]
  else [c]

/-- Characters as they are written between quotes, the closing quote and some more text. -/
def quoteTail : List Char → List Char → List Char
  | [], rest => '"' :: rest
  | c :: r, rest => escape c ++ quoteTail r rest

/-- A string in quotes, followed by some more text. -/
def quote (s : String) (rest : List Char) : List Char :=
  '"' :: quoteTail s.toList rest

/-! ## Reading -/

/-- What one character or escape between quotes gives. -/
inductive Piece where
  | char (c : Char)
  | unit (n : Nat)

/-- The value of a hexadecimal digit of either case. -/
def hexValue? (c : Char) : Option Nat :=
  if '0' ≤ c ∧ c ≤ '9' then some (c.toNat - '0'.toNat)
  else if 'a' ≤ c ∧ c ≤ 'f' then some (c.toNat - 'a'.toNat + 10)
  else if 'A' ≤ c ∧ c ≤ 'F' then some (c.toNat - 'A'.toNat + 10)
  else none

/-- The unit that four hexadecimal digits spell. -/
def hexUnit? (a b c d : Char) : Option Nat := do
  return (((← hexValue? a) * 16 + (← hexValue? b)) * 16 + (← hexValue? c)) * 16 + (← hexValue? d)

/-- The character that a backslash and `c` stand for. -/
def escaped? (c : Char) : Option Char :=
  if c = '"' ∨ c = '\\' ∨ c = '/' then some c
  else if c = 'b' then some '\x08'
  else if c = 'f' then some '\x0C'
  else if c = 'n' then some '\n'
  else if c = 'r' then some '\r'
  else if c = 't' then some '\t'
  else none

/-- The pieces of a text up to its closing quote, and what follows that. -/
def readQuoted : List Char → Option (List Piece × List Char)
  | [] => none
  | '"' :: r => some ([], r)
  | '\\' :: 'u' :: a :: b :: c :: d :: r =>
    match hexUnit? a b c d, readQuoted r with
    | some n, some (pieces, rest) => some (.unit n :: pieces, rest)
    | _, _ => none
  | '\\' :: c :: r =>
    match escaped? c, readQuoted r with
    | some e, some (pieces, rest) => some (.char e :: pieces, rest)
    | _, _ => none
  | c :: r =>
    if c.toNat < 0x20 then none
    else
      match readQuoted r with
      | some (pieces, rest) => some (.char c :: pieces, rest)
      | none => none

/-- The text that pieces stand for; a unit from `0xD800` on is the first half of a character and
needs one from `0xDC00` on after it. -/
def join? : List Piece → Option (List Char)
  | [] => some []
  | .char c :: r => (join? r).map (c :: ·)
  | .unit n :: .unit m :: r =>
    if n < 0xD800 ∨ 0xDFFF < n then (join? (.unit m :: r)).map (Char.ofNat n :: ·)
    else if n < 0xDC00 ∧ 0xDC00 ≤ m ∧ m ≤ 0xDFFF then
      (join? r).map (Char.ofNat (0x10000 + (n - 0xD800) * 0x400 + (m - 0xDC00)) :: ·)
    else none
  | .unit n :: r =>
    if n < 0xD800 ∨ 0xDFFF < n then (join? r).map (Char.ofNat n :: ·) else none

end RowQuery.Json
