import RowQuery.Json.Value

/-!
# Writing values

A value is written on one line without blanks, or with each item and member on a line of its own.
Members keep their order.  A double that is not finite has no text in JSON; it is written as null.

* `Layout`: the blanks before items and members, and after the colon of a member.
* `Value.written`: a value in a layout and the text after it, so that nothing is copied.
* `Value.compactText`, `Value.prettyText`: a value alone, in one of the two layouts.
-/

namespace RowQuery.Json

/-! ## Layouts -/

/-- Where blanks stand in a text. -/
structure Layout where
  /-- Before an item, a member or the end of an array or object that stands so many steps in. -/
  gap : Nat → List Char
  /-- After the colon of a member. -/
  afterColon : List Char
  gap_blank : ∀ level, ∀ c ∈ gap level, IsBlank c
  afterColon_blank : ∀ c ∈ afterColon, IsBlank c

/-- No blanks at all. -/
def Layout.dense : Layout :=
  ⟨fun _ => [], [], by simp, by simp⟩

/-- Each item and member on a line of its own, each step two blanks wide. -/
def Layout.indented : Layout where
  gap level := '\n' :: List.replicate (2 * level) ' '
  afterColon := [' ']
  gap_blank level c hc := by
    rcases List.mem_cons.1 hc with rfl | hc
    · decide
    · rw [List.eq_of_mem_replicate hc]
      decide
  afterColon_blank := by simp [IsBlank]

/-! ## Values -/

namespace Value

section

variable (l : Layout)

mutual

/-- The text of a value that stands `level` steps in, followed by some more text. -/
def written (level : Nat) : Value → List Char → List Char
  | .null, rest => 'n' :: 'u' :: 'l' :: 'l' :: rest
  | .bool true, rest => 't' :: 'r' :: 'u' :: 'e' :: rest
  | .bool false, rest => 'f' :: 'a' :: 'l' :: 's' :: 'e' :: rest
  | .int n, rest => (Number.int n).text ++ rest
  | .double x, rest => (Number.double x).text ++ rest
  | .string s, rest => quote s rest
  | .array [], rest => '[' :: ']' :: rest
  | .array (v :: vs), rest =>
    '[' :: (l.gap (level + 1) ++ written (level + 1) v (writtenItems level vs rest))
  | .object [], rest => '{' :: '}' :: rest
  | .object ((k, v) :: ms), rest =>
    '{' :: (l.gap (level + 1) ++
      quote k (':' :: (l.afterColon ++ written (level + 1) v (writtenMembers level ms rest))))

/-- The text of the items after the first, of an array that stands `level` steps in. -/
def writtenItems (level : Nat) : List Value → List Char → List Char
  | [], rest => l.gap level ++ ']' :: rest
  | v :: vs, rest =>
    ',' :: (l.gap (level + 1) ++ written (level + 1) v (writtenItems level vs rest))

/-- The text of the members after the first, of an object that stands `level` steps in. -/
def writtenMembers (level : Nat) : List (String × Value) → List Char → List Char
  | [], rest => l.gap level ++ '}' :: rest
  | (k, v) :: ms, rest =>
    ',' :: (l.gap (level + 1) ++
      quote k (':' :: (l.afterColon ++ written (level + 1) v (writtenMembers level ms rest))))

end

end

/-- The text of a value on one line and without blanks, followed by some more text. -/
def compact (v : Value) (rest : List Char) : List Char :=
  v.written .dense 0 rest

/-- The text of a value on one line. -/
def compactText (v : Value) : String :=
  String.ofList (v.compact [])

/-- The indented text of a value. -/
def prettyText (v : Value) : String :=
  String.ofList (v.written .indented 0 [])

end Value

end RowQuery.Json
