import RowQuery.Json.Number
import RowQuery.Json.Quoted

/-!
# Documents

The form of a JSON text before any meaning is given to it: objects keep the order and the
repetitions of their members, and a number that is too large, or a string that is no text, because
half of a character is missing in it, is noted as such.  A reader that is not interested in a part
of a document need not be able to make sense of it.

* `Document.ofText?`: the document that a whole text spells.
-/

namespace RowQuery.Json

/-- A text as it is structured. -/
inductive Document where
  | null
  | bool (value : Bool)
  | number (value : Option Number)
  | string (text : Option String)
  | array (items : List Document)
  | object (members : List (Option String × Document))

/-- A blank between the parts of a text; there are fewer of them than elsewhere. -/
def IsBlank (c : Char) : Prop :=
  c = ' ' ∨ c = '\n' ∨ c = '\t' ∨ c = '\r'

instance (c : Char) : Decidable (IsBlank c) :=
  inferInstanceAs (Decidable (_ ∨ _))

namespace Document

/-- The text without leading blanks. -/
def skipBlanks (s : List Char) : List Char :=
  s.dropWhile fun c => IsBlank c

/-- Reads a string after its opening quote. -/
def readString (s : List Char) : Option (Option String × List Char) :=
  (readQuoted s).map fun (pieces, rest) => ((join? pieces).map String.ofList, rest)

mutual

/-- Reads one document at the start of a text, in at most `fuel` nested steps. -/
def readValue : Nat → List Char → Option (Document × List Char)
  | 0, _ => none
  | fuel + 1, s =>
    match skipBlanks s with
    | 'n' :: 'u' :: 'l' :: 'l' :: r => some (.null, r)
    | 't' :: 'r' :: 'u' :: 'e' :: r => some (.bool true, r)
    | 'f' :: 'a' :: 'l' :: 's' :: 'e' :: r => some (.bool false, r)
    | '"' :: r => (readString r).map fun (text, rest) => (.string text, rest)
    | '[' :: r =>
      match skipBlanks r with
      | ']' :: rest => some (.array [], rest)
      | r => (readItems fuel r).map fun (items, rest) => (.array items, rest)
    | '{' :: r =>
      match skipBlanks r with
      | '}' :: rest => some (.object [], rest)
      | r => (readMembers fuel r).map fun (members, rest) => (.object members, rest)
    | r => (readNumeral r).map fun (n, rest) => (.number n.number?, rest)

/-- Reads the items of an array, of which there is at least one, and its end. -/
def readItems : Nat → List Char → Option (List Document × List Char)
  | 0, _ => none
  | fuel + 1, s => do
    let (item, r) ← readValue fuel s
    match skipBlanks r with
    | ']' :: rest => some ([item], rest)
    | ',' :: r => (readItems fuel r).map fun (items, rest) => (item :: items, rest)
    | _ => none

/-- Reads the members of an object, of which there is at least one, and its end. -/
def readMembers : Nat → List Char → Option (List (Option String × Document) × List Char)
  | 0, _ => none
  | fuel + 1, s =>
    match skipBlanks s with
    | '"' :: r => do
      let (key, r) ← readString r
      match skipBlanks r with
      | ':' :: r => do
        let (value, r) ← readValue fuel r
        match skipBlanks r with
        | '}' :: rest => some ([(key, value)], rest)
        | ',' :: r => (readMembers fuel r).map fun (members, rest) => ((key, value) :: members, rest)
        | _ => none
      | _ => none
    | _ => none

end

/-- The document that a whole text spells.  Each nested step takes up at least half a character. -/
def ofText? (s : List Char) : Option Document :=
  match readValue (2 * s.length + 2) s with
  | some (d, rest) => if (skipBlanks rest).isEmpty then some d else none
  | none => none

end Document

end RowQuery.Json
