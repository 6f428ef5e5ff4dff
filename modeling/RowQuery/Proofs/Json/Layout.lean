import RowQuery.Json.Printer
import RowQuery.Proofs.Json.Reading

/-!
# Values that are written in a layout

* `length_written`: a value takes up some text.
* `startsValue_written`: which begins as a value does.
* `endsNumber_writtenItems`, `endsNumber_writtenMembers`: what follows an item or a member does not
  go on with a number.
-/

namespace RowQuery.Json

/-! ## How long a value is, and how it begins -/

theorem length_quoteTail (cs rest : List Char) : rest.length < (quoteTail cs rest).length := by
  induction cs with
  | nil => simp [quoteTail]
  | cons c cs ih =>
    rw [quoteTail, List.length_append]
    omega

theorem length_quote (k : String) (rest : List Char) : rest.length < (quote k rest).length := by
  have htail := length_quoteTail k.toList rest
  rw [quote, List.length_cons]
  omega

/-- A number begins as a value does. -/
theorem startsValue_text (x : Number) {rest : List Char} (hr : EndsNumber rest) :
    StartsValue (x.text ++ rest) := by
  obtain hnull | ⟨n, hn, htext⟩ := exists_numeral x
  · rw [hnull]
    exact ⟨_, _, rfl, by decide, by decide⟩
  · rw [← htext]
    exact startsValue_of_readNumeral (readNumeral_text hn hr)

theorem text_ne_nil (x : Number) : x.text ≠ [] := by
  obtain ⟨c, r, htext, -, -⟩ := startsValue_text x endsNumber_nil
  rw [List.append_nil] at htext
  rw [htext]
  exact List.cons_ne_nil c r

namespace Value

variable (l : Layout)

mutual

/-- A value takes up some text. -/
theorem length_written (level : Nat) :
    ∀ (v : Value) (rest : List Char), rest.length < (written l level v rest).length
  | .null, _ | .bool true, _ | .bool false, _ => by simp [written]; omega
  | .int n, _ => by
    have hpos := List.length_pos_iff.2 (text_ne_nil (.int n))
    rw [written, List.length_append]
    omega
  | .double x, _ => by
    have hpos := List.length_pos_iff.2 (text_ne_nil (.double x))
    rw [written, List.length_append]
    omega
  | .string s, rest => by
    rw [written]
    exact length_quote s rest
  | .array [], _ | .object [], _ => by
    rw [written, List.length_cons, List.length_cons]
    omega
  | .array (v :: vs), rest => by
    have hvalue := length_written (level + 1) v (writtenItems l level vs rest)
    have hitems := length_writtenItems level vs rest
    rw [written, List.length_cons, List.length_append]
    omega
  | .object ((k, v) :: ms), rest => by
    have hvalue := length_written (level + 1) v (writtenMembers l level ms rest)
    have hmembers := length_writtenMembers level ms rest
    have hkey := length_quote k
      (':' :: (l.afterColon ++ written l (level + 1) v (writtenMembers l level ms rest)))
    simp only [List.length_cons, List.length_append] at hkey
    rw [written, List.length_cons, List.length_append]
    omega

theorem length_writtenItems (level : Nat) :
    ∀ (vs : List Value) (rest : List Char), rest.length < (writtenItems l level vs rest).length
  | [], _ => by
    rw [writtenItems, List.length_append, List.length_cons]
    omega
  | v :: vs, rest => by
    have hvalue := length_written (level + 1) v (writtenItems l level vs rest)
    have hitems := length_writtenItems level vs rest
    rw [writtenItems, List.length_cons, List.length_append]
    omega

theorem length_writtenMembers (level : Nat) : ∀ (ms : List (String × Value)) (rest : List Char),
    rest.length < (writtenMembers l level ms rest).length
  | [], _ => by
    rw [writtenMembers, List.length_append, List.length_cons]
    omega
  | (k, v) :: ms, rest => by
    have hvalue := length_written (level + 1) v (writtenMembers l level ms rest)
    have hmembers := length_writtenMembers level ms rest
    have hkey := length_quote k
      (':' :: (l.afterColon ++ written l (level + 1) v (writtenMembers l level ms rest)))
    simp only [List.length_cons, List.length_append] at hkey
    rw [writtenMembers, List.length_cons, List.length_append]
    omega

end

theorem endsNumber_writtenItems (level : Nat) (vs : List Value) (rest : List Char) :
    EndsNumber (writtenItems l level vs rest) := by
  cases vs with
  | nil =>
    rw [writtenItems]
    exact endsNumber_append (l.gap_blank level) (by rintro _ ⟨⟩; decide)
  | cons v vs =>
    rw [writtenItems]
    rintro _ ⟨⟩
    decide

theorem endsNumber_writtenMembers (level : Nat) (ms : List (String × Value)) (rest : List Char) :
    EndsNumber (writtenMembers l level ms rest) := by
  cases ms with
  | nil =>
    rw [writtenMembers]
    exact endsNumber_append (l.gap_blank level) (by rintro _ ⟨⟩; decide)
  | cons m ms =>
    rw [writtenMembers]
    rintro _ ⟨⟩
    decide

theorem startsValue_written (level : Nat) (v : Value) {rest : List Char} (hr : EndsNumber rest) :
    StartsValue (written l level v rest) := by
  cases v with
  | null => exact ⟨_, _, by rw [written], by decide, by decide⟩
  | string s => exact ⟨_, _, by rw [written, quote], by decide, by decide⟩
  | bool b => cases b <;> exact ⟨_, _, by rw [written], by decide, by decide⟩
  | int n =>
    rw [written]
    exact startsValue_text (.int n) hr
  | double x =>
    rw [written]
    exact startsValue_text (.double x) hr
  | array items => cases items <;> exact ⟨_, _, by rw [written], by decide, by decide⟩
  | object members => cases members <;> exact ⟨_, _, by rw [written], by decide, by decide⟩

end Value

end RowQuery.Json
