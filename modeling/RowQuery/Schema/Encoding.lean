import RowQuery.Query.Token
import RowQuery.Schema.Diagnostic

/-!
# Declarations and diagnostics as JSON
-/

namespace RowQuery

open Json (Decoder Value)
open Json.Decode

/-- A command.  What is not said is left out. -/
def Command.toJson (c : Command) : Value :=
  let values := if c.allowedValues.isEmpty then []
    else [("allowed_values", Value.array (c.allowedValues.map .string))]
  let support := match c.operatorSupport with
    | some b => [("supports_operators", Value.bool b)]
    | none => []
  .object ([("type", .string c.kind.name), ("description", .string c.description)] ++ values ++
    support)

/-- Reads a command; only its type has to be said. -/
def Command.ofJson? : Decoder Command := fun d => do
  match ← record? ["type", "description", "allowed_values", "supports_operators"] d with
  | [kind, description, values, support] =>
    return ⟨← required? (choice? Kind.ofName?) kind, ← withDefault? "" string? description,
      ← withDefault? [] (list? string?) values, ← withDefault? none (optional? bool?) support⟩
  | _ => none

/-- Commands under their keys. -/
def Command.tableToJson (table : Dictionary Command) : Value :=
  .object (table.entries.map fun e => (e.1, e.2.toJson))

namespace Registry

/-- A registry as a table of commands. -/
def toJson (r : Registry) : Value :=
  .object [("commands", Command.tableToJson r.table)]

/-- Reads a table of commands; it may be missing. -/
def tableOfJson? : Decoder (Dictionary Command) := fun d => do
  match ← record? ["commands"] d with
  | [commands] => withDefault? .empty (table? Command.ofJson?) commands
  | _ => none

/-- The registry of a table of commands in a text, which a codec reads. -/
def load (codec : Json.Codec) (s : String) : Except SchemaError Registry :=
  match codec.decode? tableOfJson? s with
  | some table => ofTable table
  | none => .error .undecodable

/-- The registry of a table of commands written as JSON. -/
def ofText (s : String) : Except SchemaError Registry :=
  load (.inLayout .dense) s

end Registry

/-- The kind of a problem, and what else there is to say about it. -/
def Problem.members : Problem → List (String × Value)
  | .unknownKey suggestion =>
    [("kind", .string "unknown_key"), ("suggestion", (suggestion.map .string).getD .null)]
  | .valueNotAllowed allowed =>
    [("kind", .string "value_not_allowed"), ("allowed", .array (allowed.map .string))]
  | .notNumeric => [("kind", .string "not_numeric")]
  | .invalidDate => [("kind", .string "invalid_date")]
  | .invalidBoolean => [("kind", .string "invalid_boolean")]
  | .operatorNotSupported op =>
    [("kind", .string "operator_not_supported"), ("operator", op.toJson)]

/-- A finding. -/
def Diagnostic.toJson (d : Diagnostic) : Value :=
  .object ([("key", .string d.key), ("span", d.span.toJson)] ++ d.problem.members)

end RowQuery
