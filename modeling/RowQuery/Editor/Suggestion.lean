import RowQuery.Calendar.Date
import RowQuery.Editor.Cursor
import RowQuery.Json.Value
import RowQuery.Schema.Registry

/-!
# Suggestions

What may stand in place of the current word.

* A key is offered if it begins with what is typed, in any case.
* The values of enumerations and booleans are offered in the same way.
* For numbers and dates the comparisons that begin with what is typed come first.  Once one is
  complete, example values are offered behind it; where there are no comparisons, at once.
* `suggest`: the suggestions at a cursor.  `accept` puts one into the text.
-/

namespace RowQuery.Editor

open Json (Value)
open Query (Operator)
open Text (lowercase)

/-- What a suggestion stands for. -/
inductive SuggestionKind where
  | key
  | value
  | operator
  deriving DecidableEq

/-- A text that may take the place of the current word, and how it is shown. -/
structure Suggestion where
  label : String
  kind : SuggestionKind
  inserted : String
  description : Option String
  deriving DecidableEq

namespace Suggestion

/-- Offers a key; it is inserted with its colon. -/
def ofEntry (e : Registry.Entry) : Suggestion :=
  ⟨e.1, .key, e.1 ++ ":", if e.2.description = "" then none else some e.2.description⟩

/-- Offers a value behind some characters; white space follows it. -/
def ofValue (before : List Char) (value : String) : Suggestion :=
  ⟨value, .value, String.ofList before ++ value ++ " ", none⟩

/-- Offers a comparison. -/
def ofOperator (op : Operator) : Suggestion :=
  ⟨String.ofList op.symbol, .operator, String.ofList op.symbol, some op.phrase⟩

end Suggestion

/-- Whether a text begins with what is typed, in any case. -/
def continues (typed text : String) : Bool :=
  (lowercase typed.toList).isPrefixOf (lowercase text.toList)

/-- The values that are offered as examples for a type. -/
def examples (today : Date) : Kind → List String
  | .number => ["0", "10", "100"]
  | .date => [String.ofList today.text]
  | _ => []

/-- Example values that begin with `typed`, to be put behind `symbol`. -/
def suggestExamples (today : Date) (kind : Kind) (symbol typed : List Char) : List Suggestion :=
  ((examples today kind).filter fun e => typed.isPrefixOf e.toList).map (.ofValue symbol)

/-- Suggestions for the value of a number or date key. -/
def suggestComparison (today : Date) (c : Command) (typed : List Char) : List Suggestion :=
  let begun := c.operators.filter fun op => typed.isPrefixOf op.symbol
  if !begun.isEmpty then begun.map .ofOperator
  else if c.operators.isEmpty then suggestExamples today c.kind [] typed
  else
    match Operator.strip? typed with
    | some (op, rest) => suggestExamples today c.kind op.symbol rest
    | none => []

/-- Suggestions for a value. -/
def suggestValues (today : Date) (c : Command) (typed : String) : List Suggestion :=
  match c.kind with
  | .number | .date => suggestComparison today c typed.toList
  | _ => (c.choices.filter (continues typed)).map (.ofValue [])

/-- Suggestions for a key. -/
def suggestKeys (r : Registry) (typed : String) : List Suggestion :=
  (r.entries.filter fun e => continues typed e.1).map .ofEntry

/-- The suggestions at a cursor. -/
def suggest (r : Registry) (today : Date) (text : String) (cursor : Nat) : List Suggestion :=
  let context := Context.ofCursor text cursor
  match context.place with
  | .key => suggestKeys r context.word
  | .value key _ =>
    match r.command? key with
    | some c => suggestValues today c context.word
    | none => []

/-- The text and cursor after a suggestion is taken. -/
def accept (text : String) (cursor : Nat) (s : Suggestion) : Insertion :=
  insertAt text cursor s.inserted

/-! ## As JSON -/

/-- The name of what a suggestion stands for. -/
def SuggestionKind.name : SuggestionKind → String
  | .key => "key"
  | .value => "value"
  | .operator => "operator"

/-- A suggestion.  A description is left out if there is none. -/
def Suggestion.toJson (s : Suggestion) : Value :=
  let description := match s.description with
    | some text => [("description", Value.string text)]
    | none => []
  .object ([("label", .string s.label), ("kind", .string s.kind.name),
    ("insert_text", .string s.inserted)] ++ description)

end RowQuery.Editor
