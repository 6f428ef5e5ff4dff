import RowQuery.Number.Decimal

/-!
# Command line arguments

A question has a name, which stands before its own arguments, and may have options.  An option
takes a value, which follows it as the next argument or in the same one; it must not occur twice
before the name or twice after it.

* `Word.ofText`: an argument as it is written.
* `Request.ofArguments`: what the arguments ask for.
-/

namespace RowQuery.CommandLine

/-- An option that takes a value. -/
inductive Flag where
  | config
  | logLevel
  | cursor
  | rows
  deriving DecidableEq

namespace Flag

/-- The name of an option after two dashes. -/
def long : Flag → String
  | .config => "config"
  | .logLevel => "log-level"
  | .cursor => "cursor"
  | .rows => "rows"

/-- The letter of an option after one dash. -/
def short? : Flag → Option Char
  | .config => some 'c'
  | .rows => some 'r'
  | _ => none

/-- Whether an option may have a value. -/
def allows (flag : Flag) (value : String) : Bool :=
  match flag with
  | .config | .rows => value ≠ ""
  | .logLevel => true
  | .cursor =>
    let digits := match value.toList with
      | '+' :: r => r
      | r => r
    !digits.isEmpty && digits.all Char.isDigit && digitsValue digits < Nat.pow 2 64

end Flag

/-- What the program is asked to do. -/
inductive Question where
  | keys
  | suggest (text : String) (cursor : Option Nat)
  | describe (text : String)
  | filter (text rows : String)
  | summarize (rows : String)
  deriving DecidableEq

/-- What the arguments ask for. -/
inductive Request where
  /-- A question, under the configuration in a file. -/
  | ask (config : Option String) (question : Question)
  | version
  | help
  /-- The arguments make no sense. -/
  | misuse
  deriving DecidableEq

/-- Options with their values, and the other arguments. -/
structure Arguments where
  options : List (Flag × String)
  others : List String

namespace Arguments

/-- The value of an option. -/
def get? (a : Arguments) (flag : Flag) : Option String :=
  (a.options.find? (·.1 = flag)).map (·.2)

/-- The arguments with one more option, which must not be there yet. -/
def add? (a : Arguments) (flag : Flag) (value : String) : Option Arguments :=
  if (a.get? flag).isSome || !flag.allows value then none
  else some { a with options := a.options ++ [(flag, value)] }

end Arguments

/-- One argument, as it is written. -/
inductive Word where
  /-- Two dashes: no options follow. -/
  | endOfOptions
  /-- An option by its name, with the value behind an equals sign if there is one. -/
  | long (name : String) (value : Option String)
  /-- A letter after one dash, and what follows the letter. -/
  | short (letter : Char) (rest : List Char)
  | plain (text : String)

/-- An argument, as it is written. -/
def Word.ofText (text : String) : Word :=
  match text.toList with
  | ['-', '-'] => .endOfOptions
  | '-' :: '-' :: r =>
    let name := String.ofList (r.takeWhile (· != '='))
    match r.dropWhile (· != '=') with
    | [] => .long name none
    | _ :: value => .long name (some (String.ofList value))
  | '-' :: c :: r => .short c r
  | _ => .plain text

/-- Whether an argument may be the value of the option before it. -/
def isValue (text : String) : Bool :=
  match Word.ofText text with
  | .plain _ => true
  | _ => false

/-- The option that a word names, with a value in the same word if there is one. -/
def flag? (flags : List Flag) : Word → Option (Flag × Option String)
  | .long name value => (flags.find? (·.long = name)).map (·, value)
  | .short letter rest =>
    let value := match rest with
      | [] => none
      | '=' :: r => some (String.ofList r)
      | r => some (String.ofList r)
    (flags.find? (·.short? = some letter)).map (·, value)
  | _ => none

/-- Whether a word asks for help. -/
def asksHelp : Word → Bool
  | .long "help" none => true
  | .short 'h' _ => true
  | _ => false

/-- Whether a word asks for the version. -/
def asksVersion : Word → Bool
  | .long "version" none => true
  | .short 'V' _ => true
  | _ => false

/-- Reads the arguments of a question: the options `flags`, and at most `places` others. -/
def readArguments (flags : List Flag) (places : Nat) (before : Arguments) :
    List String → Except Request Arguments
  | [] => .ok before
  | text :: r =>
    let word := Word.ofText text
    match word with
    | .endOfOptions =>
      if before.others.length + r.length ≤ places then
        .ok { before with others := before.others ++ r }
      else .error .misuse
    | .plain _ =>
      if before.others.length < places then
        readArguments flags places { before with others := before.others ++ [text] } r
      else .error .misuse
    | _ =>
      if asksHelp word then .error .help
      else
        match flag? flags word, r with
        | some (flag, some value), r =>
          match before.add? flag value with
          | some now => readArguments flags places now r
          | none => .error .misuse
        | some (flag, none), value :: r =>
          match isValue value, before.add? flag value with
          | true, some now => readArguments flags places now r
          | _, _ => .error .misuse
        | _, _ => .error .misuse

/-- Reads the options before the name of the question, that name and what follows it. -/
def readCommon (before : Arguments) : List String → Except Request (Arguments × String × List String)
  | [] => .error .misuse
  | text :: r =>
    let word := Word.ofText text
    match word with
    | .endOfOptions => .error .misuse
    | .plain _ => .ok (before, text, r)
    | _ =>
      if asksHelp word then .error .help
      else if asksVersion word then .error .version
      else
        match flag? [.config, .logLevel] word, r with
        | some (flag, some value), r =>
          match before.add? flag value with
          | some now => readCommon now r
          | none => .error .misuse
        | some (flag, none), value :: r =>
          match isValue value, before.add? flag value with
          | true, some now => readCommon now r
          | _, _ => .error .misuse
        | _, _ => .error .misuse

namespace Request

/-- The question with a name and its own arguments. -/
def question? (name : String) (arguments : Arguments) : Option Question :=
  match name, arguments.others, arguments.get? .rows with
  | "keys", [], _ => some .keys
  | "suggest", [text], _ =>
    some (.suggest text ((arguments.get? .cursor).map fun s =>
      digitsValue (s.toList.filter Char.isDigit)))
  | "describe", [text], _ => some (.describe text)
  | "filter", [text], some rows => some (.filter text rows)
  | "summarize", [], some rows => some (.summarize rows)
  | _, _, _ => none

/-- The options of a question by its name and how many other arguments it has. -/
def form? : String → Option (List Flag × Nat)
  | "keys" => some ([.config, .logLevel], 0)
  | "suggest" => some ([.config, .logLevel, .cursor], 1)
  | "describe" => some ([.config, .logLevel], 1)
  | "filter" => some ([.config, .logLevel, .rows], 1)
  | "summarize" => some ([.config, .logLevel, .rows], 0)
  | _ => none

/-- What follows a request for help: the name of one question, or nothing. -/
def ofHelpArguments : List String → Request
  | [] => .help
  | [name] => if name = "help" ∨ (form? name).isSome then .help else .misuse
  | _ => .misuse

/-- What some arguments ask for.  An option of the question wins over the same one before it. -/
def ofArguments (args : List String) : Request :=
  match readCommon ⟨[], []⟩ args with
  | .error r => r
  | .ok (common, name, rest) =>
    match form? name with
    | none => if name = "help" then ofHelpArguments rest else .misuse
    | some (flags, places) =>
      match readArguments flags places ⟨[], []⟩ rest with
      | .error r => r
      | .ok own =>
        match question? name own with
        | some q => .ask (own.get? .config <|> common.get? .config) q
        | none => .misuse

end Request

end RowQuery.CommandLine
