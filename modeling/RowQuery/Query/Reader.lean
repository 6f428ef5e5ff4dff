import RowQuery.Query.Token
import RowQuery.Text.Bytes
import RowQuery.Text.Basic

/-!
# Reading filters

A filter text is read word by word.  A word is a token if it has a key, an operator and a value
that is not empty:

* key: at least one `isKeyChar`;
* operator: a colon, a comparison, or a colon and a comparison;
* value: a quoted one, up to the quote it began with or the end of the text, or else all
  characters up to white space; a backslash takes the next character as it is.

A word that has no key or no operator is passed over up to the next white space, and one that has
an empty value up to the end of that value.  So an unfinished word never hides the ones before it.

* `step_text_append_rest`: no character is lost or read twice.
* `parse`: the tokens of a text.
-/

namespace RowQuery.Query

open Text

/-- Something read at the start of a text: its meaning, its characters and what follows them. -/
structure Lexeme (α : Type) where
  meaning : α
  text : List Char
  rest : List Char

/-- Reads an operator. -/
def readOperator? : List Char → Option (Lexeme Operator)
  | ':' :: r =>
    match Operator.strip? r with
    | some (op, rest) => some ⟨op, ':' :: op.symbol, rest⟩
    | none => some ⟨.contains, [':'], r⟩
  | s =>
    match Operator.strip? s with
    | some (op, rest) => some ⟨op, op.symbol, rest⟩
    | none => none

/-- Reads a value up to white space. -/
def readBare (s : List Char) : Lexeme (List Char) :=
  ⟨unescape (takeUntil isBlank s), takeUntil isBlank s, dropUntil isBlank s⟩

/-- Reads a value after the quote `q` that opens it. -/
def readQuoted (q : Char) (s : List Char) : Lexeme (List Char) :=
  let body := takeUntil (· == q) s
  match dropUntil (· == q) s with
  | [] => ⟨unescape body, q :: body, []⟩
  | c :: rest => ⟨unescape body, q :: (body ++ [c]), rest⟩

/-- Reads a value; it is empty before white space and at the end of the text. -/
def readValue : List Char → Lexeme (List Char)
  | [] => ⟨[], [], []⟩
  | c :: r => if isQuote c then readQuoted c r else readBare (c :: r)

/-- The key, operator and value of a token. -/
structure Clause where
  key : List Char
  operator : Operator
  value : List Char

/-- Reads a word: the characters up to white space. -/
def readWord (s : List Char) : Lexeme (Option Clause) :=
  ⟨none, s.takeWhile fun c => !isBlank c, s.dropWhile fun c => !isBlank c⟩

/-- Reads a token, or passes over what is none. -/
def step (s : List Char) : Lexeme (Option Clause) :=
  let key := s.takeWhile isKeyChar
  let r := s.dropWhile isKeyChar
  match key, readOperator? r with
  | [], _ => readWord s
  | _, none => { readWord r with text := key ++ (readWord r).text }
  | _, some op =>
    let value := readValue op.rest
    let clause := if value.meaning.isEmpty then none else some ⟨key, op.meaning, value.meaning⟩
    ⟨clause, key ++ op.text ++ value.text, value.rest⟩

/-! ## Nothing is lost -/

theorem readOperator?_append {s : List Char} {l : Lexeme Operator} (h : readOperator? s = some l) :
    l.text ++ l.rest = s := by
  unfold readOperator? at h
  split at h
  · split at h
    · next hs =>
      cases h
      simp [Operator.symbol_append_of_strip? hs]
    · cases h
      rfl
  · split at h
    · next hs =>
      cases h
      exact Operator.symbol_append_of_strip? hs
    · cases h

theorem readValue_append (s : List Char) : (readValue s).text ++ (readValue s).rest = s := by
  cases s with
  | nil => rfl
  | cons c r =>
    rw [readValue]
    split
    · have h := takeUntil_append_dropUntil (· == c) r
      rw [readQuoted]
      split
      · next hd => rw [hd] at h; simpa using h
      · next hd => rw [hd] at h; simpa using h
    · exact takeUntil_append_dropUntil isBlank (c :: r)

theorem step_text_append_rest (s : List Char) : (step s).text ++ (step s).rest = s := by
  have hs := List.takeWhile_append_dropWhile (p := isKeyChar) (l := s)
  unfold step
  dsimp only
  split
  · exact List.takeWhile_append_dropWhile ..
  · simp [readWord, hs]
  · next op hop _ =>
    rw [List.append_assoc, readValue_append, List.append_assoc, readOperator?_append hop, hs]

theorem text_step_ne_nil {c : Char} {r : List Char} (h : isBlank c = false) :
    (step (c :: r)).text ≠ [] := by
  unfold step
  dsimp only
  split
  · simp [readWord, h]
  · next hk =>
    intro ht
    exact hk (List.append_eq_nil_iff.1 ht).1
  · next hk =>
    intro ht
    exact hk (List.append_eq_nil_iff.1 (List.append_eq_nil_iff.1 ht).1).1

theorem length_rest_step_lt {c : Char} {r : List Char} (h : isBlank c = false) :
    (step (c :: r)).rest.length < (c :: r).length := by
  have ha := congrArg List.length (step_text_append_rest (c :: r))
  have hn := List.length_pos_iff.2 (text_step_ne_nil (r := r) h)
  simp only [List.length_append] at ha
  omega

/-! ## Tokens -/

/-- The tokens of the rest of a text, which begins at byte `offset`. -/
def tokensFrom (offset : Nat) : List Char → List Token
  | [] => []
  | c :: r =>
    if isBlank c then tokensFrom (offset + c.utf8Size) r
    else
      let found := step (c :: r)
      let stop := offset + byteLength found.text
      let later := tokensFrom stop found.rest
      match found.meaning with
      | none => later
      | some w => ⟨String.ofList w.key, w.operator, String.ofList w.value, ⟨offset, stop⟩⟩ :: later
termination_by s => s.length
decreasing_by
  · simp
  · next h => exact length_rest_step_lt (by simpa using h)

/-- The tokens of a text. -/
def parse (s : String) : List Token :=
  tokensFrom 0 s.toList

end RowQuery.Query
