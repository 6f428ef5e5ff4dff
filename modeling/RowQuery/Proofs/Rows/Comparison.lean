import RowQuery.Proofs.Calendar.Instant
import RowQuery.Proofs.Number.Decimal
import RowQuery.Rows.Comparison

/-!
# Operators that agree with each other

Order, equality and inequality try numbers, instants and plain text each in an order of its own.
But no text spells both a number and an instant; so where both texts spell values of the key, all
operators compare these values, and else they fall back in ways that fit together.

* `place?`: where the value that a text spells lies among the values of the key.
* `order?_of_place`, `order?_of_not_spells`: order follows the places of both texts, or their
  characters, or there is none.
* `order?_swap`: the order of two texts the other way round.
* `areEqual_of_place`, `areDifferent_of_place`: equality and inequality go by the same places.
* `holds_self`: what the operators say of a value and itself.
* `holds_coherent`: what the seven operators say of two texts fits together.
-/

namespace RowQuery.Rows

/-- Whether a text spells a value of a key: an instant if it is a date key, else a finite number. -/
def Spells (kind : Option Kind) (text : String) : Prop :=
  (if kind = some .date then (Instant.ofText? text.toList).isSome
    else (number? text.toList).isSome) = true

instance (kind : Option Kind) (text : String) : Decidable (Spells kind text) :=
  inferInstanceAs (Decidable (_ = true))

/-- Where the value that a text spells lies among the values of a key. -/
def place? (kind : Option Kind) (text : String) : Option Int :=
  if kind = some .date then (Instant.ofText? text.toList).map (·.ticks)
  else (number? text.toList).bind Double.position

variable {kind : Option Kind} {a e : String} {m n : Int}

/-! ## Places -/

theorem spells_iff : Spells kind a ↔ ∃ m, place? kind a = some m := by
  unfold Spells place?
  split
  · rw [← Option.isSome_iff_exists, Option.isSome_map]
  · rw [Option.isSome_iff_exists]
    constructor
    · rintro ⟨x, hx⟩
      obtain ⟨m, hm⟩ := exists_position hx
      exact ⟨m, Option.bind_eq_some_iff.2 ⟨x, hx, hm⟩⟩
    · rintro ⟨m, hm⟩
      obtain ⟨x, hx, -⟩ := Option.bind_eq_some_iff.1 hm
      exact ⟨x, hx⟩

theorem exists_instant_of_place (h : place? (some .date) a = some m) :
    Instant.ofText? a.toList = some ⟨m⟩ := by
  rw [place?, if_pos rfl] at h
  obtain ⟨x, hx, rfl⟩ := Option.map_eq_some_iff.1 h
  exact hx

theorem exists_number_of_place (hkind : kind ≠ some .date) (h : place? kind a = some m) :
    ∃ x, number? a.toList = some x ∧ x.position = some m := by
  rw [place?, if_neg hkind] at h
  exact Option.bind_eq_some_iff.1 h

theorem numbers?_eq_none (h : number? a.toList = none ∨ number? e.toList = none) :
    numbers? a e = none := by
  unfold numbers?
  rcases h with h | h
  · rw [h]
  · rw [h]
    cases number? a.toList <;> rfl

theorem instants?_eq_none (h : Instant.ofText? a.toList = none ∨ Instant.ofText? e.toList = none) :
    instants? a e = none := by
  unfold instants?
  rcases h with h | h
  · rw [h]
  · rw [h]
    cases Instant.ofText? a.toList <;> rfl

/-- Of a date key, no number is compared where instants are. -/
theorem numbers?_of_place (h : place? (some .date) a = some m) (e : String) :
    numbers? a e = none :=
  numbers?_eq_none (Or.inl (dateNotation.no_number (exists_instant_of_place h)))

theorem instants?_of_place (ha : place? (some .date) a = some m)
    (he : place? (some .date) e = some n) : instants? a e = some (⟨m⟩, ⟨n⟩) := by
  rw [instants?, exists_instant_of_place ha, exists_instant_of_place he]

theorem exists_numbers_of_place (hkind : kind ≠ some .date) (ha : place? kind a = some m)
    (he : place? kind e = some n) :
    ∃ x y, numbers? a e = some (x, y) ∧ x.position = some m ∧ y.position = some n := by
  obtain ⟨x, hx, hm⟩ := exists_number_of_place hkind ha
  obtain ⟨y, hy, hn⟩ := exists_number_of_place hkind he
  exact ⟨x, y, by rw [numbers?, hx, hy], hm, hn⟩

/-! ## Order -/

theorem eq_of_position {x y : Double} (hx : x.position = some m) (hy : y.position = some n) :
    x.eq y = decide (m = n) := by
  rw [Double.eq, hx, hy]
  rfl

theorem numberOrder_eq_compare {x y : Double} (hx : x.position = some m)
    (hy : y.position = some n) : numberOrder x y = compare m n := by
  have hlt : x.lt y = decide (m < n) := by rw [Double.lt, hx, hy]
  rw [numberOrder, hlt, eq_of_position hx hy]
  simp only [decide_eq_true_eq]
  rfl

/-- Values are ordered by their places. -/
theorem order?_of_place (ha : place? kind a = some m) (he : place? kind e = some n) :
    order? kind a e = some (compare m n) := by
  by_cases hkind : kind = some .date
  · subst hkind
    rw [order?, if_pos rfl, instants?_of_place ha he]
    rfl
  · obtain ⟨x, y, hnumbers, hm, hn⟩ := exists_numbers_of_place hkind ha he
    rw [order?, if_neg hkind, hnumbers]
    exact congrArg some (numberOrder_eq_compare hm hn)

/-- If one of the texts spells no value, dates are ordered as texts and all else is not ordered. -/
theorem order?_of_not_spells (h : ¬ (Spells kind a ∧ Spells kind e)) :
    order? kind a e = if kind = some .date then some (compare a e) else none := by
  unfold Spells at h
  unfold order?
  split
  · next hkind =>
    simp only [if_pos hkind, not_and_or, Option.not_isSome_iff_eq_none] at h
    rw [instants?_eq_none h]
    rfl
  · next hkind =>
    simp only [if_neg hkind, not_and_or, Option.not_isSome_iff_eq_none] at h
    rw [numbers?_eq_none h]
    rfl

/-- The other way round, the order is the opposite one. -/
theorem order?_swap (kind : Option Kind) (a e : String) :
    order? kind e a = (order? kind a e).map Ordering.swap := by
  by_cases h : Spells kind a ∧ Spells kind e
  · obtain ⟨⟨m, hm⟩, n, hn⟩ := h.imp spells_iff.1 spells_iff.1
    rw [order?_of_place hm hn, order?_of_place hn hm, Option.map_some, Int.compare_swap]
  · rw [order?_of_not_spells h, order?_of_not_spells fun h' => h h'.symm]
    split
    · rw [Option.map_some, ← Std.OrientedOrd.eq_swap]
    · rfl

/-! ## Equality and inequality -/

theorem areEqual_of_place (ha : place? kind a = some m) (he : place? kind e = some m) :
    areEqual kind a e = true := by
  by_cases hkind : kind = some .date
  · subst hkind
    simp [areEqual, numbers?_of_place ha e, instants?_of_place ha he]
  · obtain ⟨x, y, hnumbers, hx, hy⟩ := exists_numbers_of_place hkind ha he
    simp [areEqual, hnumbers, eq_of_position hx hy]

theorem areDifferent_of_place (ha : place? kind a = some m) (he : place? kind e = some n) :
    areDifferent kind a e = decide (m ≠ n) := by
  by_cases hkind : kind = some .date
  · subst hkind
    simp [areDifferent, numbers?_of_place ha e, instants?_of_place ha he]
  · obtain ⟨x, y, hnumbers, hx, hy⟩ := exists_numbers_of_place hkind ha he
    simp [areDifferent, hnumbers, eq_of_position hx hy]

/-- A text is equal to itself, whatever it spells. -/
theorem areEqual_self (kind : Option Kind) (a : String) : areEqual kind a a = true := by
  unfold areEqual
  cases hx : number? a.toList with
  | none =>
    rw [numbers?_eq_none (Or.inl hx)]
    have hself : Text.occursIn (Text.lowercase a.toList) (Text.lowercase a.toList) = true :=
      Text.occursIn_iff.2 (List.infix_refl _)
    simp only [hself, Bool.or_true]
  | some x =>
    obtain ⟨m, hm⟩ := exists_position hx
    have hnumbers : numbers? a a = some (x, x) := by rw [numbers?, hx]
    simp only [hnumbers, eq_of_position hm hm, decide_true]

theorem areEqual_or_areDifferent (kind : Option Kind) (a e : String) :
    areEqual kind a e = true ∨ areDifferent kind a e = true := by
  unfold areEqual areDifferent
  cases numbers? a e with
  | some p =>
    dsimp only
    cases p.1.eq p.2 <;> simp
  | none =>
    dsimp only
    by_cases htext : Text.lowercase a.toList = Text.lowercase e.toList
    · -- a text stands in itself
      left
      rw [htext, Text.occursIn_iff.2 (List.infix_refl _), Bool.or_true]
    · by_cases hkind : kind = some .date
      · cases instants? a e with
        | none => simp [hkind, htext]
        | some p =>
          by_cases hsame : p.1 = p.2
          · simp [hkind, hsame]
          · simp [hkind, hsame]
      · simp [hkind, htext]

/-! ## All operators -/

/-- Exactly one of some answers is yes. -/
def ExactlyOne (answers : List Bool) : Prop :=
  answers.count true = 1

/-- What the operators say of a row's text and a token's text fits together. -/
structure Coherent (kind : Option Kind) (a e : String) : Prop where
  contains_eq : holds kind .contains a e = holds kind .equal a e
  equal_or : holds kind .equal a e = true ∨ holds kind .notEqual a e = true
  greater_eq : holds kind .greater a e = holds kind .less e a
  atLeast_eq : holds kind .atLeast a e = holds kind .atMost e a
  equal_of_bounds : holds kind .atLeast a e = true → holds kind .atMost a e = true →
    holds kind .equal a e = true
  ordered : kind = some .date ∨ Spells kind a ∧ Spells kind e →
    ExactlyOne [holds kind .greater a e, holds kind .atMost a e] ∧
      ExactlyOne [holds kind .less a e, holds kind .atLeast a e]
  unordered : kind ≠ some .date → ¬ (Spells kind a ∧ Spells kind e) →
    ∀ op : Query.Operator, op.isOrdering = true → holds kind op a e = false
  trichotomy : Spells kind a → Spells kind e →
    ExactlyOne [holds kind .less a e, holds kind .greater a e, !holds kind .notEqual a e]

/-- Dates and readable texts have an order. -/
theorem exists_order (h : kind = some .date ∨ Spells kind a ∧ Spells kind e) :
    ∃ o, order? kind a e = some o := by
  by_cases hspells : Spells kind a ∧ Spells kind e
  · obtain ⟨⟨m, hm⟩, n, hn⟩ := hspells.imp spells_iff.1 spells_iff.1
    exact ⟨_, order?_of_place hm hn⟩
  · exact ⟨_, (order?_of_not_spells hspells).trans (if_pos (h.resolve_right hspells))⟩

/-- Texts that are neither less nor greater are equal. -/
theorem areEqual_of_order (h : order? kind a e = some .eq) : areEqual kind a e = true := by
  by_cases hspells : Spells kind a ∧ Spells kind e
  · obtain ⟨⟨m, hm⟩, n, hn⟩ := hspells.imp spells_iff.1 spells_iff.1
    rw [order?_of_place hm hn] at h
    obtain rfl : m = n := Std.LawfulEqOrd.eq_of_compare (Option.some.inj h)
    exact areEqual_of_place hm hn
  · rw [order?_of_not_spells hspells] at h
    split at h
    · obtain rfl : a = e := Std.LawfulEqOrd.eq_of_compare (Option.some.inj h)
      exact areEqual_self kind a
    · cases h

theorem coherent (kind : Option Kind) (a e : String) : Coherent kind a e where
  contains_eq := rfl
  equal_or := areEqual_or_areDifferent kind a e
  greater_eq := by
    simp only [holds, order?_swap kind a e]
    cases order? kind a e with
    | none => rfl
    | some o => cases o <;> rfl
  atLeast_eq := by
    simp only [holds, order?_swap kind a e]
    cases order? kind a e with
    | none => rfl
    | some o => cases o <;> rfl
  equal_of_bounds := by
    simp only [holds]
    cases ho : order? kind a e with
    | none => simp
    | some o =>
      cases o with
      | eq => exact fun _ _ => areEqual_of_order ho
      | lt => simp
      | gt => simp
  ordered h := by
    obtain ⟨o, ho⟩ := exists_order h
    simp only [holds, ho]
    cases o <;> exact ⟨rfl, rfl⟩
  unordered hkind h op hop := by
    have hnone := order?_of_not_spells h
    rw [if_neg hkind] at hnone
    cases op with
    | greater | less | atLeast | atMost => simp [holds, hnone]
    | contains | equal | notEqual => exact absurd hop (by decide)
  trichotomy ha he := by
    obtain ⟨m, hm⟩ := spells_iff.1 ha
    obtain ⟨n, hn⟩ := spells_iff.1 he
    simp only [holds, order?_of_place hm hn, areDifferent_of_place hm hn]
    rcases Int.lt_trichotomy m n with hlt | rfl | hgt
    · rw [Int.compare_eq_lt.2 hlt, decide_eq_true (Int.ne_of_lt hlt)]
      rfl
    · rw [Int.compare_eq_eq.2 rfl, decide_eq_false fun hne => hne rfl]
      rfl
    · rw [Int.compare_eq_gt.2 hgt, decide_eq_true (Int.ne_of_gt hgt)]
      rfl

/-- A value stands to itself in all relations that allow for equality, and in no other. -/
theorem holds_self (h : Spells kind a) (op : Query.Operator) :
    holds kind op a a = decide (op ∉ [.notEqual, .less, .greater]) := by
  obtain ⟨m, hm⟩ := spells_iff.1 h
  have horder : order? kind a a = some .eq := by
    rw [order?_of_place hm hm, Int.compare_eq_eq.2 rfl]
  cases op with
  | contains | equal => exact areEqual_self kind a
  | notEqual =>
    rw [holds, areDifferent_of_place hm hm]
    exact decide_eq_false fun hne => hne rfl
  | greater | less | atLeast | atMost =>
    rw [holds, horder]
    rfl

/-- Values in order are in order over a third one between them. -/
theorem holds_less_trans {b : String} (ha : Spells kind a) (hb : Spells kind b)
    (he : Spells kind e) (hab : holds kind .less a b = true) (hbe : holds kind .less b e = true) :
    holds kind .less a e = true := by
  obtain ⟨m, hm⟩ := spells_iff.1 ha
  obtain ⟨k, hk⟩ := spells_iff.1 hb
  obtain ⟨n, hn⟩ := spells_iff.1 he
  have hless {a e : String} {m n : Int} (ha : place? kind a = some m)
      (he : place? kind e = some n) : holds kind .less a e = true ↔ m < n := by
    rw [holds, order?_of_place ha he, beq_iff_eq, Option.some.injEq, Int.compare_eq_lt]
  rw [hless hm hk] at hab
  rw [hless hk hn] at hbe
  rw [hless hm hn]
  exact Int.lt_trans hab hbe

/-- **The seven operators are coherent**, whatever the type of the key, if it has one, and whatever
the texts are.  Of values of the key, such as dates in any of their spellings and with any offset,
"less" is transitive. -/
theorem holds_coherent (kind : Option Kind) :
    (∀ a e, Coherent kind a e) ∧
      ∀ a b e, Spells kind a → Spells kind b → Spells kind e → holds kind .less a b = true →
        holds kind .less b e = true → holds kind .less a e = true :=
  ⟨coherent kind, fun _ _ _ => holds_less_trans⟩

/-- Dates in three spellings, of which the first is in the year before because of its offset;
numbers in three spellings, which are compared as numbers and not as texts; and a number that is not
ordered with a word. -/
theorem holds_coherent_three_spellings :
    let date := some Kind.date
    let a := "2024-01-01T01:00:00+02:00"
    let b := " 2024-1-1 "
    let e := "2024-01-01T00:00:01"
    let number := some Kind.number
    Spells date a ∧ Spells date b ∧ Spells date e ∧ holds date .less a b = true ∧
      holds date .less b e = true ∧ holds date .less a e = true ∧
      ExactlyOne [holds date .less a b, holds date .greater a b, !holds date .notEqual a b] ∧
      holds number .less "9" "9.5" = true ∧ holds number .less "9.5" " 1e1 " = true ∧
      holds number .less "9" " 1e1 " = true ∧ holds number .greater " 1e1 " "9" = true ∧
      holds number .equal "10" " 1e1 " = true ∧ holds number .notEqual "10" " 1e1 " = false ∧
      ¬ (Spells number "5" ∧ Spells number "five") ∧ holds number .atMost "5" "five" = false := by
  intro date a b e number
  have ha : Spells date a := by decide +kernel
  have hb : Spells date b := by decide +kernel
  have he : Spells date e := by decide +kernel
  have hab : holds date .less a b = true := by decide +kernel
  have hbe : holds date .less b e = true := by decide +kernel
  have hnumbers : Spells number "9" ∧ Spells number "9.5" ∧ Spells number " 1e1 " := by
    decide +kernel
  obtain ⟨hnine, hhalf, hten⟩ := hnumbers
  have hlow : holds number .less "9" "9.5" = true := by decide +kernel
  have hhigh : holds number .less "9.5" " 1e1 " = true := by decide +kernel
  have hword : ¬ (Spells number "5" ∧ Spells number "five") := by decide +kernel
  obtain ⟨hdate, htrans⟩ := holds_coherent date
  obtain ⟨hnumber, htrans'⟩ := holds_coherent number
  have hless := htrans' "9" "9.5" " 1e1 " hnine hhalf hten hlow hhigh
  exact ⟨ha, hb, he, hab, hbe, htrans a b e ha hb he hab hbe, (hdate a b).trichotomy ha hb, hlow,
    hhigh, hless, (hnumber " 1e1 " "9").greater_eq.trans hless, by decide +kernel,
    by decide +kernel, hword, (hnumber "5" "five").unordered (by decide) hword .atMost rfl⟩

end RowQuery.Rows
