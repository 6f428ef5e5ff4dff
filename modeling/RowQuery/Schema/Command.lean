import RowQuery.Query.Operator

/-!
# Commands

A command declares a filter key: the type of its values, a description, the values of an
enumeration, and whether comparisons are offered.

* `Command.operators`: the comparisons that are offered and accepted.
* `Command.choices`: the values that are offered.
-/

namespace RowQuery

/-- The type of the values of a key. -/
inductive Kind where
  | enumeration
  | text
  | number
  | date
  | boolean
  deriving DecidableEq

namespace Kind

/-- The name of a type. -/
def name : Kind → String
  | .enumeration => "enum"
  | .text => "string"
  | .number => "numeric"
  | .date => "date"
  | .boolean => "boolean"

/-- All types. -/
def all : List Kind :=
  [.enumeration, .text, .number, .date, .boolean]

/-- The type with a name. -/
def ofName? (name : String) : Option Kind :=
  all.find? (·.name = name)

/-- Whether values of the type are compared unless it is said otherwise. -/
def isOrdered : Kind → Bool
  | .number | .date => true
  | _ => false

/-- The comparisons that make sense for values of the type. -/
def operators : Kind → List Query.Operator
  | .number => Query.Operator.numeric
  | .date => Query.Operator.calendar
  | _ => []

end Kind

/-- The declaration of a filter key. -/
structure Command where
  kind : Kind
  description : String
  /-- The values of an enumeration. -/
  allowedValues : List String
  /-- Whether comparisons are offered, if the type is not to decide. -/
  operatorSupport : Option Bool
  deriving DecidableEq

namespace Command

/-- A command of a type, without anything else said. -/
def ofKind (kind : Kind) (description : String) : Command :=
  ⟨kind, description, [], none⟩

/-- An enumeration of some values. -/
def ofValues (description : String) (values : List String) : Command :=
  ⟨.enumeration, description, values, none⟩

/-- Whether comparisons are offered. -/
def supportsOperators (c : Command) : Bool :=
  c.operatorSupport.getD c.kind.isOrdered

/-- The comparisons that are offered. -/
def operators (c : Command) : List Query.Operator :=
  if c.supportsOperators then c.kind.operators else []

/-- The values that are offered. -/
def choices (c : Command) : List String :=
  match c.kind with
  | .enumeration => c.allowedValues
  | .boolean => ["true", "false"]
  | _ => []

end Command

end RowQuery
