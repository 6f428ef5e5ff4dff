import RowQuery.CommandLine.Arguments
import RowQuery.Editor.Suggestion
import RowQuery.Session.Encoding

/-!
# Answering questions

The answers of the program to questions about queries and about files of rows.

* `run`: the answer to some arguments.  Files are read through a function that is given, so that
  the answer can be found in any monad.
-/

namespace RowQuery.CommandLine

open Json (Value)

/-- What the program does in the end. -/
inductive Answer where
  | printed (text : String)
  | failed (error : HostError)
  | help
  | misuse

/-- The exit code of the program. -/
def Answer.exitCode : Answer → Nat
  | .printed _ => 0
  | .help => 0
  | .failed _ => 1
  | .misuse => 2

/-- The declared keys as JSON. -/
def keysToJson (r : Registry) : Value :=
  .array (r.entries.map fun e => .object [("description", .string e.2.description),
    ("key", .string e.1), ("operators", .bool e.2.supportsOperators),
    ("type", .string e.2.kind.name)])

/-- A filter in words as JSON. -/
def descriptionToJson (text : String) : Value :=
  let tokens := Query.parse text
  Value.sortKeys (.object [("description", .string (Query.describe tokens)),
    ("tokens", .array (tokens.map (·.toJson)))])

/-- Reads files, which may fail for a reason given as text. -/
abbrev Reader (m : Type → Type) := String → m (Except String String)

variable {m : Type → Type} [Monad m]

/-- The text of a file. -/
def readText (read : Reader m) (path : String) : ExceptT HostError m String := do
  match ← read path with
  | .ok text => return text
  | .error reason => throw (.unreadable reason)

/-- The configuration in a file. -/
def readConfig (read : Reader m) : Option String → ExceptT HostError m Session.Config
  | none => return .default
  | some path => do ExceptT.mk (pure (Session.Config.ofText (← readText read path)))

/-- A session with the rows in a file. -/
def readSession (read : Reader m) (config : Session.Config) (path : String) :
    ExceptT HostError m Session := do
  let text ← readText read path
  let rows ← ExceptT.mk (pure (Session.rowsOfText path text))
  ExceptT.mk (pure (Session.start config rows))

/-- The answer to a question. -/
def answer (read : Reader m) (today : Date) (config : Session.Config) :
    Question → ExceptT HostError m Value
  | .keys =>
    match config.registry with
    | .ok r => return keysToJson r
    | .error e => throw (.schema e)
  | .suggest text cursor => do
    let session ← ExceptT.mk (pure (Session.start config []))
    let cursor := cursor.getD (Text.byteLength text.toList)
    return .array ((session.suggest today text cursor).map (·.toJson))
  | .describe text => return descriptionToJson text
  | .filter text rows => do
    let session ← readSession read config rows
    let outcome ← ExceptT.mk (pure (session.evaluate text))
    return outcome.toJson
  | .summarize rows => do
    let session ← readSession read config rows
    return session.summarizeAll.toJson

/-- The name and version of the program. -/
def versionText : String := "sift 0.1.0\n"

/-- Does what some arguments ask for. -/
def run (read : Reader m) (today : Date) (args : List String) : m Answer :=
  match Request.ofArguments args with
  | .version => return .printed versionText
  | .help => return .help
  | .misuse => return .misuse
  | .ask path question => do
    let result ← (do answer read today (← readConfig read path) question).run
    match result with
    | .ok value => return .printed (value.prettyText ++ "\n")
    | .error e => return .failed e

end RowQuery.CommandLine
