import RowQuery.Text.Basic
import RowQuery.Text.Bytes

/-!
# The word at the cursor

What is being typed depends on the text left of the cursor alone.  The current word begins after
the last white space that no backslash escapes; its first colon, if there is one, separates a key
from the value that is being typed.

* `Context.ofCursor`: the word at a cursor and what kind of word it is.
* `insertAt`: puts a text in place of the current word.
-/

namespace RowQuery.Editor

open Text

/-- What the current word is. -/
inductive Place where
  /-- A key, or the beginning of one. -/
  | key
  /-- The value of a key, which the colon at this byte follows. -/
  | value (key : String) (colon : Nat)
  deriving DecidableEq

/-- The current word, the byte at which it starts and what it is. -/
structure Context where
  word : String
  start : Nat
  place : Place
  deriving DecidableEq

/-- Whether a character is escaped, given the characters before it, the nearest first: an odd
number of backslashes leads up to it. -/
def isEscaped (before : List Char) : Bool :=
  (before.takeWhile (· == '\\')).length % 2 == 1

/-- Goes back, from the nearest character on, to the last white space that is not escaped; gives
what comes before the word and the word. -/
def goBack : List Char → List Char → List Char × List Char
  | word, [] => ([], word)
  | word, c :: before =>
    if isBlank c && !isEscaped before then ((c :: before).reverse, word)
    else goBack (c :: word) before

/-- A text cut where its last word begins. -/
def splitWord (s : List Char) : List Char × List Char :=
  goBack [] s.reverse

namespace Context

/-- The context at the end of a text. -/
def ofBefore (before : List Char) : Context :=
  let (lead, word) := splitWord before
  let key := word.takeWhile (· != ':')
  match word.dropWhile (· != ':') with
  | [] => ⟨String.ofList word, byteLength lead, .key⟩
  | _ :: typed =>
    let colon := byteLength lead + byteLength key
    ⟨String.ofList typed, colon + 1, .value (String.ofList key) colon⟩

/-- The context at the byte `cursor` of a text, or at the end if the text is shorter. -/
def ofCursor (text : String) (cursor : Nat) : Context :=
  ofBefore (takeBytes cursor text.toList)

/-- Whether a key is being typed. -/
def isKey (c : Context) : Bool :=
  c.place = .key

end Context

/-- A text and a cursor in it, after a change. -/
structure Insertion where
  text : String
  cursor : Nat
  deriving DecidableEq

/-- Puts a text in place of the current word, up to the cursor, and the cursor behind it. -/
def insertAt (text : String) (cursor : Nat) (inserted : String) : Insertion :=
  let start := (Context.ofCursor text cursor).start
  let kept := takeBytes start text.toList
  ⟨String.ofList (kept ++ inserted.toList ++ dropBytes cursor text.toList),
    start + byteLength inserted.toList⟩

end RowQuery.Editor
