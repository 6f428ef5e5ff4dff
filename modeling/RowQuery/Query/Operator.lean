/-!
# Operators

The operator between the key and the value of a filter token.

* `Operator.symbol`: how it is written.  `Operator.ofSymbol?` reads exactly these.
* `Operator.strip?`: the comparison that a text begins with, the longest symbol first.
-/

namespace RowQuery.Query

/-- How a row's value is compared with the value of a token. -/
inductive Operator where
  /-- Equality, or that the row's text has the value in it. -/
  | contains
  | equal
  | notEqual
  | greater
  | less
  | atLeast
  | atMost
  deriving DecidableEq

namespace Operator

/-- The characters of an operator. -/
def symbol : Operator → List Char
  | .contains => [':']
  | .equal => ['=']
  | .notEqual => ['!', '=']
  | .greater => ['>']
  | .less => ['<']
  | .atLeast => ['>', '=']
  | .atMost => ['<', '=']

/-- All operators. -/
def all : List Operator :=
  [.contains, .equal, .notEqual, .greater, .less, .atLeast, .atMost]

/-- The operator with this symbol. -/
def ofSymbol? (s : List Char) : Option Operator :=
  all.find? (·.symbol = s)

/-- The comparison that a text begins with, and what follows it. -/
def strip? : List Char → Option (Operator × List Char)
  | '>' :: '=' :: r => some (.atLeast, r)
  | '<' :: '=' :: r => some (.atMost, r)
  | '!' :: '=' :: r => some (.notEqual, r)
  | '>' :: r => some (.greater, r)
  | '<' :: r => some (.less, r)
  | '=' :: r => some (.equal, r)
  | _ => none

/-- Whether the operator asks for an order, which only numbers and dates have. -/
def isOrdering : Operator → Bool
  | .greater | .less | .atLeast | .atMost => true
  | _ => false

/-- The operator in words. -/
def phrase : Operator → String
  | .contains => "matches"
  | .equal => "equals"
  | .notEqual => "does not equal"
  | .greater => "greater than"
  | .less => "less than"
  | .atLeast => "at least"
  | .atMost => "at most"

/-- The operators of number keys, in the order in which they are offered. -/
def numeric : List Operator :=
  [.greater, .less, .equal, .notEqual, .atLeast, .atMost]

/-- The operators of date keys, in the order in which they are offered. -/
def calendar : List Operator :=
  [.greater, .less, .equal]

theorem symbol_append_of_strip? {s r : List Char} {op : Operator} (h : strip? s = some (op, r)) :
    op.symbol ++ r = s := by
  unfold strip? at h
  split at h <;> cases h <;> rfl

end Operator

end RowQuery.Query
