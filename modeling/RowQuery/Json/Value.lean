import RowQuery.Dictionary
import RowQuery.Json.Document

/-!
# Values

A value is what a JSON text means: whole numbers of at most 64 bits are kept apart from all other
numbers, which are doubles, and an object has one member for each key.

* `Value.ofText?`: the value of a text.  Objects come out sorted by key, the last of several
  members with one key counts, and values are nested at most 127 deep.
* `Value.sortKeys`: the same order for a value that does not come from a text.
-/

namespace RowQuery.Json

/-- The meaning of a JSON text. -/
inductive Value where
  | null
  | bool (value : Bool)
  | int (value : Int)
  | double (value : Double)
  | string (value : String)
  | array (items : List Value)
  | object (members : List (String × Value))

/-! ## Meaning -/

/-- A number as a value. -/
def Number.toValue : Number → Value
  | .int n => .int n
  | .double x => .double x

mutual

/-- The value of a document in which at most `depth` arrays and objects enclose each other. -/
def Document.value? (depth : Nat) : Document → Option Value
  | .null => some .null
  | .bool b => some (.bool b)
  | .number n => n.map Number.toValue
  | .string text => text.map .string
  | .array items => if depth = 0 then none else (itemValues? (depth - 1) items).map .array
  | .object members =>
    if depth = 0 then none else (memberValues? (depth - 1) members).map .object

/-- The values of items. -/
def Document.itemValues? (depth : Nat) : List Document → Option (List Value)
  | [] => some []
  | d :: r =>
    match Document.value? depth d, Document.itemValues? depth r with
    | some v, some vs => some (v :: vs)
    | _, _ => none

/-- The values of members, sorted by key; a member yields to a later one with its key. -/
def Document.memberValues? (depth : Nat) :
    List (Option String × Document) → Option (List (String × Value))
  | [] => some []
  | (key, d) :: r =>
    match key, Document.value? depth d, Document.memberValues? depth r with
    | some k, some v, some vs =>
      some (if vs.any (·.1 = k) then vs else insertEntry k v vs)
    | _, _, _ => none

end

namespace Value

/-- The value that a text spells. -/
def ofText? (s : List Char) : Option Value :=
  (Document.ofText? s).bind (Document.value? 127)

/-- The member of an object with a key. -/
def member? (key : String) : Value → Option Value
  | .object members => (members.find? (·.1 = key)).map (·.2)
  | _ => none

mutual

/-- The value with the members of all its objects sorted by key. -/
def sortKeys : Value → Value
  | .array items => .array (sortKeysIn items)
  | .object members => .object (sortMembers members)
  | v => v

/-- The same for items. -/
def sortKeysIn : List Value → List Value
  | [] => []
  | v :: r => v.sortKeys :: sortKeysIn r

/-- The same for members, of which the last with each key counts. -/
def sortMembers : List (String × Value) → List (String × Value)
  | [] => []
  | (k, v) :: r =>
    let sorted := sortMembers r
    if sorted.any (·.1 = k) then sorted else insertEntry k v.sortKeys sorted

end

end Value

end RowQuery.Json
