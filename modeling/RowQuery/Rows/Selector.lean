import RowQuery.Rows.Fields
import RowQuery.Rows.Comparison
import RowQuery.Schema.Registry

/-!
# Selecting rows

A selector keeps the rows that satisfy all tokens of a filter.  Tokens are turned into conditions
once; a row satisfies a condition if it has the field and the comparison holds.

* `UnknownKeys`: what becomes of a token whose key is not declared.
* `Selector.check`: reports the first such token, if they are to be rejected.
* `Selector.accepts`, `Selector.select`: one row, and all rows in their order.
* `Selector.selectParallel`: many rows are cut into pieces that are filtered at the same time.
-/

namespace RowQuery.Rows

open Query (Operator Token)

/-- What becomes of tokens whose key is not declared. -/
inductive UnknownKeys where
  /-- They compare the field of the same name, which has no type. -/
  | evaluate
  /-- They always hold. -/
  | ignore
  /-- No row satisfies a filter with one. -/
  | reject
  deriving DecidableEq

namespace UnknownKeys

/-- The name of a policy. -/
def name : UnknownKeys → String
  | .evaluate => "evaluate"
  | .ignore => "ignore"
  | .reject => "reject"

/-- The policy with a name. -/
def ofName? (name : String) : Option UnknownKeys :=
  [evaluate, ignore, reject].find? (·.name = name)

end UnknownKeys

/-- Why a filter is rejected. -/
inductive FilterError where
  | unknownKey (key : String) (position : Nat)
  deriving DecidableEq

/-- An error in words. -/
def FilterError.message : FilterError → String
  | .unknownKey key position =>
    "unknown filter key '" ++ key ++ "' at position " ++ String.ofList (digitsOf position)

/-- A token as it applies to rows. -/
structure Condition where
  field : String
  kind : Option Kind
  operator : Operator
  value : String
  deriving DecidableEq

/-- What is needed to select rows. -/
structure Selector (ρ : Type) where
  registry : Registry
  accessor : Accessor ρ
  fieldMap : FieldMap
  unknownKeys : UnknownKeys

namespace Selector

variable {ρ : Type}

/-- Whether a filter is accepted: it is, unless unknown keys are rejected and it has one. -/
def check (s : Selector ρ) (tokens : List Token) : Except FilterError Unit :=
  if s.unknownKeys = .reject then
    match tokens.find? fun t => !s.registry.isDeclared t.key with
    | some t => .error (.unknownKey t.key t.span.start)
    | none => .ok ()
  else .ok ()

/-- The conditions of tokens; none if no row can satisfy them. -/
def plan? (s : Selector ρ) : List Token → Option (List Condition)
  | [] => some []
  | t :: r =>
    match s.registry.entry? t.key, s.unknownKeys with
    | some (key, c), _ =>
      (s.plan? r).map (⟨s.fieldMap.resolve key, some c.kind, t.operator, t.value⟩ :: ·)
    | none, .evaluate =>
      (s.plan? r).map (⟨s.fieldMap.resolve t.key, none, t.operator, t.value⟩ :: ·)
    | none, .ignore => s.plan? r
    | none, .reject => none

/-- Whether a row satisfies a condition. -/
def satisfies (s : Selector ρ) (row : ρ) (c : Condition) : Bool :=
  (s.accessor row c.field).any fun actual => holds c.kind c.operator actual c.value

/-- Whether a row satisfies all tokens. -/
def accepts (s : Selector ρ) (row : ρ) (tokens : List Token) : Bool :=
  match s.plan? tokens with
  | some conditions => conditions.all (s.satisfies row)
  | none => false

/-- The rows that satisfy all tokens. -/
def select (s : Selector ρ) (rows : List ρ) (tokens : List Token) : List ρ :=
  match s.plan? tokens with
  | some conditions => rows.filter fun row => conditions.all (s.satisfies row)
  | none => []

/-! ## In parallel -/

/-- The rows of consecutive pieces that satisfy all tokens; a task for each piece. -/
def selectPieces (s : Selector ρ) (pieces : List (List ρ)) (tokens : List Token) : List ρ :=
  match s.plan? tokens with
  | some conditions =>
    let tasks := pieces.map fun piece =>
      Task.spawn fun _ => piece.filter fun row => conditions.all (s.satisfies row)
    tasks.flatMap Task.get
  | none => []

/-- The number of rows from which on they are worth cutting into pieces. -/
def parallelThreshold : Nat := 1000

/-- A list cut into pieces of `size` elements and a last one with the rest. -/
def pieces (size : Nat) (rows : List ρ) : List (List ρ) :=
  if size = 0 ∨ rows.length ≤ size then [rows]
  else rows.take size :: pieces size (rows.drop size)
termination_by rows.length
decreasing_by
  simp only [List.length_drop]
  omega

/-- The rows that satisfy all tokens, as `select` gives them. -/
def selectParallel (s : Selector ρ) (rows : List ρ) (tokens : List Token) : List ρ :=
  if rows.length < parallelThreshold then s.select rows tokens
  else s.selectPieces (pieces (parallelThreshold / 2) rows) tokens

end Selector

end RowQuery.Rows
