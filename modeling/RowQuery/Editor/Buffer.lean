import RowQuery.Editor.Suggestion

/-!
# A text box

A text with a cursor, as it changes while somebody types, moves the cursor and takes suggestions.
The cursor may be any offset; it counts as the nearest place at or before it.
-/

namespace RowQuery.Editor

open Text

/-- A text and a cursor in it. -/
structure Buffer where
  text : String
  cursor : Nat
  deriving DecidableEq

namespace Buffer

/-- Inserts a text at the cursor. -/
def type (b : Buffer) (typed : String) : Buffer :=
  let before := takeBytes b.cursor b.text.toList
  ⟨String.ofList (before ++ typed.toList ++ dropBytes b.cursor b.text.toList),
    byteLength before + byteLength typed.toList⟩

/-- Puts the cursor somewhere else. -/
def move (b : Buffer) (cursor : Nat) : Buffer :=
  { b with cursor := cursor }

/-- Takes the suggestion with a number; gives its label, too. -/
def accept? (b : Buffer) (r : Registry) (today : Date) (index : Nat) : Option (String × Buffer) :=
  (suggest r today b.text b.cursor)[index]?.map fun s =>
    let after := accept b.text b.cursor s
    (s.label, ⟨after.text, after.cursor⟩)

/-- The context at the cursor. -/
def context (b : Buffer) : Context :=
  Context.ofCursor b.text b.cursor

end Buffer

end RowQuery.Editor
