import RowQuery.Dictionary
import RowQuery.Json.Value
import RowQuery.Text.LetterCase

/-!
# Fields of rows

An accessor reads the field of a row as text; a row need not have the field.  A field map says which
field a filter key stands for.  Keys are compared in lowercase.

* `jsonField`: the fields of JSON objects.  Strings, numbers and booleans are read as text; a field
  with another value counts as missing.  A missing field may be looked up in a nested object.
* `tableField`: the fields of a dictionary of texts.
* `FieldMap.resolve`: the field of a key; a key that is not mapped names its own field.
-/

namespace RowQuery.Rows

/-! ## Reading fields -/

open Json (Value)

/-- Reads a named field of a row. -/
abbrev Accessor (ρ : Type) := ρ → String → Option String

/-- The text of a value that is a string, a number or a boolean. -/
def scalarText? : Value → Option String
  | .string s => some s
  | .int n => some (String.ofList (Json.Number.int n).text)
  | .double x => some (String.ofList (Json.Number.double x).text)
  | .bool true => some "true"
  | .bool false => some "false"
  | _ => none

/-- The text of a field at the top level of a value. -/
def topField? (row : Value) (name : String) : Option String :=
  (row.member? name).bind scalarText?

/-- The text of a field of a JSON object or, if it is missing there, of the object in its field
`fallback`. -/
def jsonField (fallback : Option String) : Accessor Value := fun row name =>
  match topField? row name with
  | some text => some text
  | none => (fallback.bind row.member?).bind (topField? · name)

/-- The value under a key. -/
def tableField : Accessor (Dictionary String) :=
  Dictionary.get?

/-! ## Naming fields -/

/-- Row fields under the lowercase forms of filter keys. -/
structure FieldMap where
  fields : Dictionary String

namespace FieldMap

/-- The map without entries. -/
def empty : FieldMap := ⟨.empty⟩

/-- The map in which `key`, in any case, stands for `field`. -/
def insert (m : FieldMap) (key field : String) : FieldMap :=
  ⟨m.fields.insert (Text.fold key) field⟩

/-- The map with the entries of a table, which are inserted in the order of their keys. -/
def ofTable (table : Dictionary String) : FieldMap :=
  table.entries.foldl (fun m e => m.insert e.1 e.2) empty

/-- The field that a key stands for.  What is typed may be a lowercase form already. -/
def resolve (m : FieldMap) (key : String) : String :=
  ((m.fields.get? key).or (m.fields.get? (Text.fold key))).getD key

/-- Whether no key is mapped. -/
def isEmpty (m : FieldMap) : Bool :=
  m.fields.isEmpty

end FieldMap

end RowQuery.Rows
