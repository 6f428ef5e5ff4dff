import RowQuery.Schema.Encoding
import RowQuery.Session.Basic
import RowQuery.Summary.Encoding

/-!
# Configurations, rows and outcomes as JSON

* `Config.load`, `Config.save`: configurations as texts of any codec.
* `Config.ofText`, `rowsOfText`: read the two kinds of files.
-/

namespace RowQuery

open Json (Decoder Value)
open Json.Decode

/-- A field map as a table. -/
def Rows.FieldMap.toJson (m : Rows.FieldMap) : Value :=
  .object (m.fields.entries.map fun e => (e.1, .string e.2))

/-- Reads a field map. -/
def Rows.FieldMap.ofJson? : Decoder Rows.FieldMap := fun d =>
  (table? string? d).map Rows.FieldMap.ofTable

namespace Session

namespace Config

/-- A configuration.  Commands and fallback object are left out if there are none. -/
def toJson (c : Config) : Value :=
  let commands := match c.commands with
    | some table => [("commands", Command.tableToJson table)]
    | none => []
  let fallback := match c.fallbackObject with
    | some name => [("fallback_object", Value.string name)]
    | none => []
  .object (commands ++ [("field_map", c.fieldMap.toJson),
    ("unknown_keys", .string c.unknownKeys.name)] ++ fallback ++ [("summary", c.summary.toJson)])

/-- Reads a configuration, of which each part may be missing. -/
def ofJson? : Decoder Config := fun d => do
  match ← record? ["commands", "field_map", "unknown_keys", "fallback_object", "summary"] d with
  | [commands, fieldMap, unknownKeys, fallback, summary] =>
    return ⟨← withDefault? none (optional? (table? Command.ofJson?)) commands,
      ← withDefault? .empty Rows.FieldMap.ofJson? fieldMap,
      ← withDefault? .evaluate (choice? Rows.UnknownKeys.ofName?) unknownKeys,
      ← withDefault? none (optional? string?) fallback,
      ← withDefault? .default Summary.Config.ofJson? summary⟩
  | _ => none

/-- Loads a configuration from a text, which a codec reads. -/
def load (codec : Json.Codec) (s : String) : Except HostError Config :=
  match codec.decode? ofJson? s with
  | some c => .ok c
  | none => .error .malformed

/-- The text that a codec saves a configuration as. -/
def save (codec : Json.Codec) (c : Config) : String :=
  codec.write c.toJson

/-- The configuration that a text spells. -/
def ofText (s : String) : Except HostError Config :=
  load (.inLayout .dense) s

end Config

/-- The rows that the text of the file `path` spells. -/
def rowsOfText (path s : String) : Except HostError (List Value) :=
  match Value.ofText? s.toList with
  | some (.array rows) => .ok rows
  | some _ => .error (.notRows path)
  | none => .error .malformed

/-- What a filter gives. -/
def Outcome.toJson (o : Outcome) : Value :=
  .object [("tokens", .array (o.tokens.map (·.toJson))), ("description", .string o.description),
    ("diagnostics", .array (o.diagnostics.map (·.toJson))), ("rows", .array o.rows),
    ("metrics", o.metrics.toJson)]

end Session

end RowQuery
