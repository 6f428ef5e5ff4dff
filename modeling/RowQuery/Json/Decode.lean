import RowQuery.Json.Printer

/-!
# Decoding documents

A decoder turns a document into a value of some type, if it has the form that the type asks for.

* `record?`: the fields of a record, written as an object or as an array in the order of the
  fields.  Members with other keys are passed over; a field must not occur twice.
* `table?`: an object with arbitrary keys, of which the last member with each key counts.
* `choice?`: one of several names, written as a string or as an object with that key and a null.
* `Codec`: what reads the texts of documents and writes values; `Codec.inLayout` is the one at hand.
-/

namespace RowQuery.Json

/-- Turns a document into a value. -/
abbrev Decoder (α : Type) := Document → Option α

namespace Decode

/-- A string. -/
def string? : Decoder String
  | .string text => text
  | _ => none

/-- A boolean. -/
def bool? : Decoder Bool
  | .bool b => some b
  | _ => none

/-- A whole number of at most 64 bits, without a sign. -/
def natural? : Decoder Nat
  | .number (some (.int n)) => if 0 ≤ n ∧ n < Nat.pow 2 64 then some n.toNat else none
  | _ => none

/-- A finite double. -/
def double? : Decoder Double
  | .number n => (n.map Number.toDouble).filter Double.isFinite
  | _ => none

/-- A value or null. -/
def optional? {α : Type} (decode : Decoder α) : Decoder (Option α)
  | .null => some none
  | d => (decode d).map some

/-- An array of values. -/
def list? {α : Type} (decode : Decoder α) : Decoder (List α)
  | .array items => items.mapM decode
  | _ => none

/-- A member of an object: its key and its value. -/
def member? {α : Type} (decode : Decoder α) (m : Option String × Document) : Option (String × α) :=
  match m.1, decode m.2 with
  | some key, some value => some (key, value)
  | _, _ => none

/-- An object with values under arbitrary keys. -/
def table? {α : Type} (decode : Decoder α) : Decoder (Dictionary α)
  | .object members => (members.mapM (member? decode)).map Dictionary.ofList
  | _ => none

/-- One of several names. -/
def choice? {α : Type} (ofName? : String → Option α) : Decoder α
  | .string (some name) => ofName? name
  | .object [(some name, .null)] => ofName? name
  | _ => none

/-- The fields of a record, in the order of their names; a field may be missing. -/
def record? (names : List String) : Decoder (List (Option Document))
  | .array items =>
    if items.length ≤ names.length then
      some (items.map some ++ List.replicate (names.length - items.length) none)
    else none
  | .object members =>
    if members.all (·.1.isSome) ∧ names.all fun name => members.countP (·.1 = some name) ≤ 1 then
      some (names.map fun name => (members.find? (·.1 = some name)).map (·.2))
    else none
  | _ => none

/-- A field that must not be missing. -/
def required? {α : Type} (decode : Decoder α) (field : Option Document) : Option α :=
  field.bind decode

/-- A field that stands for `default` where it is missing. -/
def withDefault? {α : Type} (default : α) (decode : Decoder α) : Option Document → Option α
  | some d => decode d
  | none => some default

end Decode

/-! ## Texts -/

/-- What reads texts and writes values. -/
structure Codec where
  read : String → Option Document
  write : Value → String

namespace Codec

/-- Reads texts in any layout, and writes values in one. -/
def inLayout (l : Layout) : Codec where
  read s := Document.ofText? s.toList
  write v := String.ofList (v.written l 0 [])

/-- The value of a type that a text spells. -/
def decode? {α : Type} (codec : Codec) (decode : Decoder α) (s : String) : Option α :=
  (codec.read s).bind decode

end Codec

/-- The same for the codec at hand, which reads alike in all layouts. -/
def decodeText? {α : Type} (decode : Decoder α) (s : String) : Option α :=
  (Codec.inLayout .dense).decode? decode s

end RowQuery.Json
