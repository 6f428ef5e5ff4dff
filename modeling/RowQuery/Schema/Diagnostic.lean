import RowQuery.Calendar.Instant
import RowQuery.Number.Decimal
import RowQuery.Schema.Registry
import RowQuery.Text.Basic
import RowQuery.Text.Similarity

/-!
# Diagnostics

Hints about tokens that look like mistakes.  A filter is evaluated all the same.

* `closestKey?`: the declared key most similar to a key, if it is similar enough.
* `diagnose`: at most one finding for each token, in the order of the tokens.

Nothing but the key that is suggested depends on how similarity is measured: whether there is a
finding, and of which kind, does not.
-/

namespace RowQuery

open Query (Operator Span Token)
open Text (fold lowercase occursIn similarity)

/-- What is wrong with a token. -/
inductive Problem where
  /-- The key is not declared; another one may be meant. -/
  | unknownKey (suggestion : Option String)
  /-- The value is none of those of the enumeration. -/
  | valueNotAllowed (allowed : List String)
  | notNumeric
  | invalidDate
  | invalidBoolean
  /-- The key is not compared by order. -/
  | operatorNotSupported (operator : Operator)
  deriving DecidableEq

/-- A finding about a token. -/
structure Diagnostic where
  key : String
  span : Span
  problem : Problem
  deriving DecidableEq

/-- A finding in words. -/
def Diagnostic.message (d : Diagnostic) : String :=
  match d.problem with
  | .unknownKey (some hint) => "unknown filter '" ++ d.key ++ "', did you mean '" ++ hint ++ "'?"
  | .unknownKey none => "unknown filter '" ++ d.key ++ "'"
  | .valueNotAllowed allowed =>
    "'" ++ d.key ++ "' expects one of: " ++ ", ".intercalate allowed
  | .notNumeric => "'" ++ d.key ++ "' expects a number"
  | .invalidDate => "'" ++ d.key ++ "' expects a date like 2024-01-31"
  | .invalidBoolean => "'" ++ d.key ++ "' expects true or false"
  | .operatorNotSupported op =>
    "'" ++ d.key ++ "' does not support '" ++ String.ofList op.symbol ++ "'"

/-! ## Similar keys -/

/-- The lowest similarity of a key that may be meant: 0.8. -/
def hintThreshold : Double :=
  .ofRatio false (8 * unitsPerOne) 10

/-- The best of scored keys, of equal ones the last, starting from the best so far. -/
def best? (leader : Option (String × Double)) : List (String × Double) → Option (String × Double)
  | [] => leader
  | (key, score) :: r =>
    match leader with
    | some (_, top) => if score.lt top then best? leader r else best? (some (key, score)) r
    | none => best? (some (key, score)) r

/-- The declared key that is most similar to a key, if it is similar enough. -/
def closestKey? (r : Registry) (key : String) : Option String :=
  let scored := r.keys.map fun k => (k, similarity (lowercase key.toList) (lowercase k.toList))
  (best? none (scored.filter fun e => hintThreshold.le e.2)).map (·.1)

/-! ## Findings -/

/-- Whether two texts are equal but for the case of their ASCII letters. -/
def equalsIgnoringAsciiCase (s t : String) : Bool :=
  s.toList.map Char.toLower == t.toList.map Char.toLower

/-- Whether a value of an enumeration is what a token asks for: for equality it may have the value
in it, else it is that value; in any case. -/
def isAllowed (op : Operator) (value allowed : String) : Bool :=
  match op with
  | .contains | .equal => occursIn (lowercase value.toList) (lowercase allowed.toList)
  | _ => fold allowed = fold value

/-- What is wrong with a token of a declared key, if anything. -/
def problem? (c : Command) (t : Token) : Option Problem :=
  if t.operator.isOrdering ∧ t.operator ∉ c.operators then some (.operatorNotSupported t.operator)
  else
    match c.kind with
    | .enumeration =>
      if c.allowedValues.any (isAllowed t.operator t.value) then none
      else some (.valueNotAllowed c.allowedValues)
    | .number => if (number? t.value.toList).isSome then none else some .notNumeric
    | .date => if (Instant.ofText? t.value.toList).isSome then none else some .invalidDate
    | .boolean =>
      if equalsIgnoringAsciiCase t.value "true" ∨ equalsIgnoringAsciiCase t.value "false" then none
      else some .invalidBoolean
    | .text => none

/-- The finding about a token, if there is one. -/
def diagnoseToken? (r : Registry) (t : Token) : Option Diagnostic :=
  match r.command? t.key with
  | none => some ⟨t.key, t.span, .unknownKey (closestKey? r t.key)⟩
  | some c => (problem? c t).map (⟨t.key, t.span, ·⟩)

/-- The findings about tokens. -/
def diagnose (r : Registry) (tokens : List Token) : List Diagnostic :=
  tokens.filterMap (diagnoseToken? r)

end RowQuery
