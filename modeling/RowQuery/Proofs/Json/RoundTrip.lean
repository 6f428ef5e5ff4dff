import RowQuery.Json.Decode
import RowQuery.Proofs.Json.Layout
import RowQuery.Proofs.Json.Number

/-!
# Values that are written and read

* `Value.toDocument`: the document that the text of a value stands for; what is no finite double is
  written as null.
* `readsWithin`: in any layout, a value whose numbers are read back is read up to its end, whatever
  follows.
* `Codec.ReadsBack`: what is relied on where texts are read that were written.
* `Codec.readsBack_inLayout`: the codec at hand reads back values whose numbers are read back.
* `Codec.readsBack_ordinary`, `Codec.not_readsBack_inLayout`: ordinary numbers are, but not all
  finite doubles.
-/

namespace RowQuery.Json

open Document

/-! ## The document of a value -/

/-- What is read where a double was written. -/
def doubleDocument : Double → Document
  | .finite negative units => .number (some (.double (.finite negative units)))
  | _ => .null

namespace Value

mutual

/-- The document that the text of a value stands for. -/
def toDocument : Value → Document
  | .null => .null
  | .bool b => .bool b
  | .int n => .number (some (.int n))
  | .double x => doubleDocument x
  | .string s => .string (some s)
  | .array items => .array (itemDocuments items)
  | .object members => .object (memberDocuments members)

/-- The documents of items. -/
def itemDocuments : List Value → List Document
  | [] => []
  | v :: vs => v.toDocument :: itemDocuments vs

/-- The documents of members. -/
def memberDocuments : List (String × Value) → List (Option String × Document)
  | [] => []
  | (k, v) :: ms => (some k, v.toDocument) :: memberDocuments ms

end

theorem itemDocuments_eq_map (vs : List Value) : itemDocuments vs = vs.map toDocument := by
  induction vs with
  | nil => rfl
  | cons v vs ih => rw [itemDocuments, ih, List.map_cons]

theorem memberDocuments_eq_map (ms : List (String × Value)) :
    memberDocuments ms = ms.map fun m => (some m.1, m.2.toDocument) := by
  induction ms with
  | nil => rfl
  | cons m ms ih => rw [memberDocuments, ih, List.map_cons]

/-! ## The numbers in a value -/

mutual

/-- The numbers in a value. -/
def numbers : Value → List Number
  | .int n => [.int n]
  | .double x => if x.isFinite then [.double x] else []
  | .array items => itemNumbers items
  | .object members => memberNumbers members
  | _ => []

/-- The numbers in items. -/
def itemNumbers : List Value → List Number
  | [] => []
  | v :: vs => v.numbers ++ itemNumbers vs

/-- The numbers in members. -/
def memberNumbers : List (String × Value) → List Number
  | [] => []
  | (_, v) :: ms => v.numbers ++ memberNumbers ms

end

section

variable {α : Type} {f : α → Value} (h : ∀ x, (f x).numbers = [])

include h

theorem itemNumbers_map_eq_nil (l : List α) : itemNumbers (l.map f) = [] := by
  induction l with
  | nil => rfl
  | cons x l ih => rw [List.map_cons, itemNumbers, h, ih, List.append_nil]

theorem memberNumbers_map_eq_nil (l : List (String × α)) :
    memberNumbers (l.map fun e => (e.1, f e.2)) = [] := by
  induction l with
  | nil => rfl
  | cons e l ih => rw [List.map_cons, memberNumbers, h, ih, List.append_nil]

end

theorem isFiniteDouble_of_mem_numbers {x : Double} {n : Number} (h : n ∈ (double x).numbers) :
    n.IsFiniteDouble := by
  rw [numbers] at h
  split at h
  · next hx => exact ⟨x, List.mem_singleton.1 h, hx⟩
  · cases h

/-! ## How deep a value is -/

mutual

/-- How many arrays and objects enclose each other in a value. -/
def depth : Value → Nat
  | .array items => itemDepth items + 1
  | .object members => memberDepth members + 1
  | _ => 0

/-- The same for items. -/
def itemDepth : List Value → Nat
  | [] => 0
  | v :: vs => max v.depth (itemDepth vs)

/-- The same for members. -/
def memberDepth : List (String × Value) → Nat
  | [] => 0
  | (_, v) :: ms => max v.depth (memberDepth ms)

end

section

variable {α : Type} {f : α → Value} {n : Nat} (h : ∀ x, (f x).depth ≤ n)

include h

theorem itemDepth_map_le (l : List α) : itemDepth (l.map f) ≤ n := by
  induction l with
  | nil => exact Nat.zero_le n
  | cons x l ih => exact Nat.max_le.2 ⟨h x, ih⟩

theorem memberDepth_map_le (l : List (String × α)) :
    memberDepth (l.map fun e => (e.1, f e.2)) ≤ n := by
  induction l with
  | nil => exact Nat.zero_le n
  | cons e l ih => exact Nat.max_le.2 ⟨h e.2, ih⟩

end

/-! ## Reading what is written -/

variable (l : Layout)

/-- In so many nested steps, what is written in a layout is read, if it is not too long and its
numbers are read back. -/
structure ReadsWithin (fuel : Nat) : Prop where
  value (level : Nat) (v : Value) (rest : List Char) (hv : ∀ x ∈ v.numbers, x.IsReadBack)
    (hr : EndsNumber rest)
    (hfuel : 2 * (written l level v rest).length ≤ fuel + 2 * rest.length) :
    readValue fuel (written l level v rest) = some (v.toDocument, rest)
  items (level : Nat) (v : Value) (vs : List Value) (rest : List Char)
    (hv : ∀ x ∈ v.numbers ++ itemNumbers vs, x.IsReadBack)
    (hfuel : 2 * (written l (level + 1) v (writtenItems l level vs rest)).length <
      fuel + 2 * rest.length) :
    readItems fuel (written l (level + 1) v (writtenItems l level vs rest)) =
      some (v.toDocument :: itemDocuments vs, rest)
  members (level : Nat) (k : String) (v : Value) (ms : List (String × Value)) (rest : List Char)
    (hv : ∀ x ∈ v.numbers ++ memberNumbers ms, x.IsReadBack)
    (hfuel : 2 * (written l (level + 1) v (writtenMembers l level ms rest)).length <
      fuel + 2 * rest.length) :
    readMembers fuel (quote k
        (':' :: (l.afterColon ++ written l (level + 1) v (writtenMembers l level ms rest)))) =
      some ((some k, v.toDocument) :: memberDocuments ms, rest)

variable {l} {fuel : Nat}

theorem readValue_number {x : Number} (hx : x.IsReadBack) {rest : List Char}
    (hr : EndsNumber rest) :
    readValue (fuel + 1) (x.text ++ rest) = some (.number (some x), rest) := by
  obtain ⟨n, hread, hvalue⟩ := hx.readNumeral hr
  rw [readValue_of_readNumeral hread, hvalue]

theorem ReadsWithin.value_succ (h : ReadsWithin l fuel) (level : Nat) (v : Value) (rest : List Char)
    (hv : ∀ x ∈ v.numbers, x.IsReadBack) (hr : EndsNumber rest)
    (hfuel : 2 * (written l level v rest).length ≤ fuel + 1 + 2 * rest.length) :
    readValue (fuel + 1) (written l level v rest) = some (v.toDocument, rest) := by
  cases v with
  | null => simp [written, readValue, skipBlanks, IsBlank, toDocument]
  | bool b => cases b <;> simp [written, readValue, skipBlanks, IsBlank, toDocument]
  | int n =>
    rw [written, toDocument]
    exact readValue_number (hv _ (by simp [numbers])) hr
  | double x =>
    rw [written, toDocument]
    cases x with
    | finite negative units =>
      exact readValue_number (hv _ (by simp [numbers, Double.isFinite])) hr
    | infinite negative | nan => simp [Number.text, doubleDocument, readValue, skipBlanks, IsBlank]
  | string s =>
    simp [written, readValue, skipBlanks, IsBlank, quote, readString_quoteTail, toDocument]
  | array items =>
    cases items with
    | nil => simp [written, readValue, skipBlanks, IsBlank, toDocument, itemDocuments]
    | cons v vs =>
      rw [written, List.length_cons, List.length_append] at hfuel
      rw [written, toDocument, itemDocuments]
      exact readValue_array (l.gap_blank _)
        (startsValue_written l _ v (endsNumber_writtenItems l level vs rest))
        (h.items level v vs rest hv (by omega))
  | object members =>
    cases members with
    | nil => simp [written, readValue, skipBlanks, IsBlank, toDocument, memberDocuments]
    | cons m ms =>
      obtain ⟨k, v⟩ := m
      have hkey := length_quote k
        (':' :: (l.afterColon ++ written l (level + 1) v (writtenMembers l level ms rest)))
      simp only [List.length_cons, List.length_append] at hkey
      rw [written, List.length_cons, List.length_append] at hfuel
      rw [written, toDocument, memberDocuments]
      exact readValue_object (l.gap_blank _) (h.members level k v ms rest hv (by omega))

theorem ReadsWithin.items_succ (h : ReadsWithin l fuel) (level : Nat) (v : Value) (vs : List Value)
    (rest : List Char) (hv : ∀ x ∈ v.numbers ++ itemNumbers vs, x.IsReadBack)
    (hfuel : 2 * (written l (level + 1) v (writtenItems l level vs rest)).length <
      fuel + 1 + 2 * rest.length) :
    readItems (fuel + 1) (written l (level + 1) v (writtenItems l level vs rest)) =
      some (v.toDocument :: itemDocuments vs, rest) := by
  obtain ⟨hfirst, hothers⟩ := List.forall_mem_append.1 hv
  have hlength := length_writtenItems l level vs rest
  have hvalue := h.value (level + 1) v _ hfirst (endsNumber_writtenItems l level vs rest) (by omega)
  cases vs with
  | nil =>
    rw [writtenItems] at hvalue ⊢
    exact readItems_last (l.gap_blank level) hvalue
  | cons w ws =>
    have hlength' := length_written l (level + 1) v (writtenItems l level (w :: ws) rest)
    rw [writtenItems] at hvalue hlength' hfuel ⊢
    rw [List.length_cons, List.length_append] at hlength'
    refine readItems_more hvalue ?_
    rw [readItems_blanks (l.gap_blank _)
      (startsValue_written l _ w (endsNumber_writtenItems l level ws rest)), itemDocuments]
    exact h.items level w ws rest hothers (by omega)

theorem ReadsWithin.members_succ (h : ReadsWithin l fuel) (level : Nat) (k : String) (v : Value)
    (ms : List (String × Value)) (rest : List Char)
    (hv : ∀ x ∈ v.numbers ++ memberNumbers ms, x.IsReadBack)
    (hfuel : 2 * (written l (level + 1) v (writtenMembers l level ms rest)).length <
      fuel + 1 + 2 * rest.length) :
    readMembers (fuel + 1) (quote k
        (':' :: (l.afterColon ++ written l (level + 1) v (writtenMembers l level ms rest)))) =
      some ((some k, v.toDocument) :: memberDocuments ms, rest) := by
  obtain ⟨hfirst, hothers⟩ := List.forall_mem_append.1 hv
  have hlength := length_writtenMembers l level ms rest
  have hends := endsNumber_writtenMembers l level ms rest
  have hstarts := startsValue_written l (level + 1) v hends
  have hvalue := h.value (level + 1) v _ hfirst hends (by omega)
  cases ms with
  | nil =>
    rw [writtenMembers] at hvalue hstarts ⊢
    exact readMembers_last l.afterColon_blank hstarts (l.gap_blank level) hvalue
  | cons m ms =>
    obtain ⟨k', w⟩ := m
    have hlength' := length_written l (level + 1) v (writtenMembers l level ((k', w) :: ms) rest)
    have hkey := length_quote k'
      (':' :: (l.afterColon ++ written l (level + 1) w (writtenMembers l level ms rest)))
    simp only [List.length_cons, List.length_append] at hkey
    rw [writtenMembers] at hvalue hstarts hlength' hfuel ⊢
    rw [List.length_cons, List.length_append] at hlength'
    refine readMembers_more l.afterColon_blank hstarts hvalue ?_
    rw [readMembers_blanks (l.gap_blank _) ⟨_, _, by rw [quote], by decide, by decide⟩,
      memberDocuments]
    exact h.members level k' w ms rest hothers (by omega)

/-- By induction on the number of steps: what encloses a value takes two more steps than the value,
and at least one more character. -/
theorem readsWithin (l : Layout) (fuel : Nat) : ReadsWithin l fuel := by
  induction fuel with
  | zero =>
    refine ⟨fun level v rest _ _ hfuel => ?_, fun level v vs rest _ hfuel => ?_,
      fun level k v ms rest _ hfuel => ?_⟩
    · have hlength := length_written l level v rest
      omega
    · have hlength := length_written l (level + 1) v (writtenItems l level vs rest)
      have hitems := length_writtenItems l level vs rest
      omega
    · have hlength := length_written l (level + 1) v (writtenMembers l level ms rest)
      have hmembers := length_writtenMembers l level ms rest
      omega
  | succ fuel ih => exact ⟨ih.value_succ, ih.items_succ, ih.members_succ⟩

/-- **What is written in a layout is read**, if the numbers in it are. -/
theorem ofText?_written (l : Layout) (level : Nat) {v : Value}
    (hv : ∀ x ∈ v.numbers, x.IsReadBack) :
    Document.ofText? (written l level v []) = some v.toDocument := by
  have hread := (readsWithin l (2 * (written l level v []).length + 2)).value level v [] hv
    endsNumber_nil (by omega)
  rw [Document.ofText?, hread]
  rfl

end Value

/-! ## Codecs -/

namespace Codec

/-- What is relied on of a codec: the text that it writes for a value with such numbers, and not
nested deeper than any value that is read, is read as the document of the value. -/
def ReadsBack (J : Codec) (P : Number → Prop) : Prop :=
  ∀ v : Value, v.depth ≤ 127 → (∀ x ∈ v.numbers, P x) → J.read (J.write v) = some v.toDocument

variable {J : Codec} {P Q : Number → Prop}

theorem ReadsBack.mono (h : J.ReadsBack P) (hPQ : ∀ x, Q x → P x) : J.ReadsBack Q :=
  fun v hdepth hv => h v hdepth fun x hx => hPQ x (hv x hx)

theorem read_write_inLayout (l : Layout) (v : Value) :
    (inLayout l).read ((inLayout l).write v) = Document.ofText? (v.written l 0 []) :=
  congrArg Document.ofText? String.toList_ofList

/-- **The codec at hand reads back what it writes**, in any layout, if the numbers are read back. -/
theorem readsBack_inLayout (l : Layout) : (inLayout l).ReadsBack Number.IsReadBack := by
  intro v _ hv
  rw [read_write_inLayout]
  exact Value.ofText?_written l 0 hv

/-- It reads back ordinary numbers. -/
theorem readsBack_ordinary (l : Layout) : (inLayout l).ReadsBack Number.IsOrdinary :=
  (readsBack_inLayout l).mono fun _ hx => hx.isReadBack

/-- It does not read back all finite doubles: the one that is written 1.0000000000000001e-39 is read
as another one. -/
theorem not_readsBack_inLayout (l : Layout) : ¬(inLayout l).ReadsBack Number.IsFiniteDouble := by
  intro h
  let x : Double := (⟨false, 10000000000000001, -55⟩ : Decimal).toDouble
  have hread := h (.double x) (Nat.zero_le _) fun _ => Value.isFiniteDouble_of_mem_numbers
  rw [read_write_inLayout, Value.written] at hread
  have hother : (Document.ofText? ((Number.double x).text ++ [])).bind Decode.double? ≠ some x := by
    decide +kernel
  rw [hread] at hother
  exact hother (by decide +kernel)

end Codec

end RowQuery.Json
