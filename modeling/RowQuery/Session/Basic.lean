import RowQuery.Editor.Suggestion
import RowQuery.Query.Reader
import RowQuery.Rows.Selector
import RowQuery.Summary.Metrics

/-!
# Sessions

A host says in a configuration what there is to know about its rows: the declared keys, the fields
they stand for, what becomes of unknown keys, where missing fields are looked up, and how rows are
summarized.  A session has rows, and a configuration whose declared keys make a registry.

* `Session.Config.registry`: the declared keys, which are those of the dashboard if none are given.
* `Session.evaluate`: filters and summarizes the rows by a filter text.
* `Session.suggest`, `Session.summarizeAll`: what is shown without filtering.
-/

namespace RowQuery

open Json (Value)

/-! ## Errors -/

/-- Why a host has no answer. -/
inductive HostError where
  /-- A file cannot be read, for a reason the system gives. -/
  | unreadable (reason : String)
  /-- A text is no JSON, or not of the expected form. -/
  | malformed
  | schema (error : SchemaError)
  | filter (error : Rows.FilterError)
  /-- The file holds no array. -/
  | notRows (path : String)
  deriving DecidableEq

/-- An error in words. -/
def HostError.message : HostError → String
  | .unreadable reason => "io error: " ++ reason
  | .malformed => "serialization error: the text is not of the expected form"
  | .schema e => "schema error: " ++ e.message
  | .filter e => "filter error: " ++ e.message
  | .notRows path => "configuration error: " ++ path ++ ": expected a JSON array of rows"

/-! ## Configurations -/

/-- The configuration of a session. -/
structure Session.Config where
  commands : Option (Dictionary Command)
  fieldMap : Rows.FieldMap
  unknownKeys : Rows.UnknownKeys
  fallbackObject : Option String
  summary : Summary.Config

namespace Session.Config

/-- The configuration where nothing is said. -/
def default : Config :=
  ⟨none, .empty, .evaluate, none, .default⟩

/-- The registry of the declared keys. -/
def registry (c : Config) : Except SchemaError Registry :=
  match c.commands with
  | some table => Registry.ofTable table
  | none => .ok Registry.dashboard

/-- Reads fields of rows. -/
def accessor (c : Config) : Rows.Accessor Value :=
  Rows.jsonField c.fallbackObject

end Session.Config

/-! ## Sessions -/

/-- Rows, and how they are filtered and summarized. -/
structure Session where
  config : Session.Config
  registry : Registry
  registry_eq : config.registry = .ok registry
  rows : List Value

namespace Session

/-- What a filter gives. -/
structure Outcome where
  tokens : List Query.Token
  description : String
  diagnostics : List Diagnostic
  rows : List Value
  metrics : Summary.Metrics

/-- Starts a session. -/
def start (config : Config) (rows : List Value) : Except HostError Session :=
  match h : config.registry with
  | .ok registry => .ok ⟨config, registry, h, rows⟩
  | .error e => .error (.schema e)

/-- The session with other rows. -/
def setRows (s : Session) (rows : List Value) : Session :=
  { s with rows := rows }

/-- Selects rows by the configuration of the session. -/
def selector (s : Session) : Rows.Selector Value :=
  ⟨s.registry, s.config.accessor, s.config.fieldMap, s.config.unknownKeys⟩

/-- The metrics of some rows. -/
def summarize (s : Session) (rows : List Value) : Summary.Metrics :=
  Summary.summarize s.config.summary s.config.accessor rows

/-- The metrics of all rows. -/
def summarizeAll (s : Session) : Summary.Metrics :=
  s.summarize s.rows

/-- Filters and summarizes the rows.  This fails only if unknown keys are rejected and the filter
has one. -/
def evaluate (s : Session) (text : String) : Except HostError Outcome :=
  let tokens := Query.parse text
  match s.selector.check tokens with
  | .error e => .error (.filter e)
  | .ok () =>
    let kept := s.selector.select s.rows tokens
    .ok {
      tokens := tokens
      description := Query.describe tokens
      diagnostics := diagnose s.registry tokens
      rows := kept
      metrics := s.summarize kept }

/-- The suggestions at a cursor. -/
def suggest (s : Session) (today : Date) (text : String) (cursor : Nat) : List Editor.Suggestion :=
  Editor.suggest s.registry today text cursor

end Session

end RowQuery
