import RowQuery.Json.Decode
import RowQuery.Query.Operator
import RowQuery.Text.Basic

/-!
# Query tokens

A token says that the value of a key stands in some relation to a given value.

* `isKeyChar`: the characters that a key is made of.
* `Token.spell`: a way to write a token.  The value is quoted where it could be taken for
  something else.
* `describe`: tokens in words.
* `Token.toJson`, `Token.ofJson?`: tokens as JSON.
-/

namespace RowQuery.Query

open Json (Decoder Value)
open Json.Decode

/-- A range of bytes of a text. -/
structure Span where
  start : Nat
  stop : Nat
  deriving DecidableEq

namespace Span

/-- The number of bytes, if the range does not end before it starts. -/
def length? (s : Span) : Option Nat :=
  if s.start ≤ s.stop then some (s.stop - s.start) else none

/-- Whether the range ends where it starts. -/
def isEmpty (s : Span) : Bool :=
  s.start == s.stop

end Span

/-- A key, an operator and a value, and where they stand in the text. -/
structure Token where
  key : String
  operator : Operator
  /-- The value itself, without quotes and escapes. -/
  value : String
  span : Span
  deriving DecidableEq

/-- The two characters that enclose a quoted value. -/
def isQuote (c : Char) : Bool :=
  c == '"' || c == '\''

/-- The characters that an operator may begin with, the colon aside. -/
def beginsComparison (c : Char) : Bool :=
  c == '<' || c == '>' || c == '=' || c == '!'

/-- The characters of a key: neither white space nor of any other use in a token. -/
def isKeyChar (c : Char) : Bool :=
  !(Text.isBlank c || c == ':' || beginsComparison c || isQuote c || c == '\\')

/-! ## Writing -/

/-- Whether a value has to stand in quotes: it is empty, or would be taken for an operator at its
start, or for more than one word or a quoted one. -/
def needsQuotes (value : List Char) : Bool :=
  match value with
  | [] => true
  | c :: _ => beginsComparison c || value.any fun c => Text.isBlank c || isQuote c

/-- The value with each backslash doubled. -/
def escapeBackslashes (value : List Char) : List Char :=
  value.flatMap fun c => if c = '\\' then ['\\', '\\'] else [c]

/-- The value with a backslash before each backslash and double quote. -/
def escapeQuoted (value : List Char) : List Char :=
  value.flatMap fun c => if c = '\\' ∨ c = '"' then ['\\', c] else [c]

/-- A value as it is written. -/
def spellValue (value : List Char) : List Char :=
  if needsQuotes value then '"' :: (escapeQuoted value ++ ['"']) else escapeBackslashes value

/-- A token as it is written. -/
def Token.spell (t : Token) : List Char :=
  let comparison := if t.operator = .contains then [] else t.operator.symbol
  t.key.toList ++ ':' :: (comparison ++ spellValue t.value.toList)

/-! ## In words -/

/-- A token in words. -/
def Token.describe (t : Token) : String :=
  t.key ++ " " ++ t.operator.phrase ++ " " ++ t.value

/-- Tokens in words, as one sentence. -/
def describe (tokens : List Token) : String :=
  if tokens.isEmpty then "no filters"
  else " AND ".intercalate (tokens.map Token.describe)

/-! ## As JSON -/

/-- An operator, by its symbol. -/
def Operator.toJson (op : Operator) : Value :=
  .string (String.ofList op.symbol)

/-- Reads an operator. -/
def Operator.ofJson? : Decoder Operator :=
  choice? fun name => ofSymbol? name.toList

/-- A range of bytes. -/
def Span.toJson (s : Span) : Value :=
  .object [("start", .int s.start), ("end", .int s.stop)]

/-- Reads a range of bytes. -/
def Span.ofJson? : Decoder Span := fun d => do
  match ← record? ["start", "end"] d with
  | [start, stop] => return ⟨← required? natural? start, ← required? natural? stop⟩
  | _ => none

/-- A token. -/
def Token.toJson (t : Token) : Value :=
  .object [("key", .string t.key), ("operator", t.operator.toJson), ("value", .string t.value),
    ("span", t.span.toJson)]

/-- Reads a token; it may be said not to come from a text. -/
def Token.ofJson? : Decoder Token := fun d => do
  match ← record? ["key", "operator", "value", "span"] d with
  | [key, operator, value, span] =>
    return ⟨← required? string? key, ← required? Operator.ofJson? operator,
      ← required? string? value, ← withDefault? ⟨0, 0⟩ Span.ofJson? span⟩
  | _ => none

end RowQuery.Query
