import RowQuery.Proofs.Number.LetterCase
import RowQuery.Proofs.Rows.Comparison
import RowQuery.Proofs.Schema.Diagnostic

/-!
# Findings about values of enumerations

The value of a token of an enumeration should be found fault with just if no declared value is what
the token asks for; if it asks for all values but one, just if it leaves none of the declared ones
out.  But a finding goes by the texts only, and rows are compared by numbers where both texts spell
one.  So the two agree where one of the texts is no number, and else only if the numbers happen to
give the same answer.

* `Reports`, `Predicts`: the finding, and that it says what rows with declared values do.
* `isSought_eq`: what is asked of a declared value, by number or by text.
* `sameNumber_of_isAllowed_notEqual`: a declared number with the text of the token's value is equal
  to it.
* `predicts_iff`: exactly when a finding predicts the rows.
-/

namespace RowQuery

open Query (Operator Token)
open Rows (holds numbers?)

/-- The token is found to have a value that is not allowed. -/
def Reports (r : Registry) (c : Command) (t : Token) : Prop :=
  ⟨t.key, t.span, .valueNotAllowed c.allowedValues⟩ ∈ diagnose r [t]

instance (r : Registry) (c : Command) (t : Token) : Decidable (Reports r c t) :=
  inferInstanceAs (Decidable (_ ∈ _))

/-- The token is reported just if rows with the declared values of the command answer it alike:
none of them is selected by an equality, or all are by an inequality. -/
structure Predicts (r : Registry) (c : Command) (t : Token) : Prop where
  of_equality : t.operator = .contains ∨ t.operator = .equal →
    (Reports r c t ↔ ∀ a ∈ c.allowedValues, holds (some c.kind) t.operator a t.value = false)
  of_inequality : t.operator = .notEqual →
    (Reports r c t ↔ ∀ a ∈ c.allowedValues, holds (some c.kind) t.operator a t.value = true)

/-- Two texts spell equal numbers. -/
def SameNumber (a v : String) : Prop :=
  ∃ x y, numbers? a v = some (x, y) ∧ x.eq y = true

variable {r : Registry} {e : Registry.Entry} {t : Token} {op : Operator} {a v : String}

/-! ## What is asked of a declared value -/

/-- Whether a declared value is the one that a token selects or, by an inequality, leaves out. -/
def isSought (op : Operator) (v a : String) : Bool :=
  match op with
  | .notEqual => !holds (some .enumeration) .notEqual a v
  | _ => holds (some .enumeration) op a v

theorem numbers?_eq_some_iff {x y : Double} :
    numbers? a v = some (x, y) ↔ number? a.toList = some x ∧ number? v.toList = some y := by
  unfold numbers?
  cases number? a.toList <;> cases number? v.toList <;> simp

/-- Numbers are compared as such, all else as it is for a finding. -/
theorem isSought_eq (hop : op.isOrdering = false) :
    isSought op v a =
      match numbers? a v with
      | some (x, y) => x.eq y
      | none => isAllowed op v a := by
  have htexts : Text.lowercase a.toList = Text.lowercase v.toList ↔ Text.fold a = Text.fold v := by
    rw [Text.fold, Text.fold, String.ofList_inj]
  cases op with
  | contains | equal =>
    simp only [isSought, holds, Rows.areEqual, isAllowed]
    cases numbers? a v <;> simp
  | notEqual =>
    simp only [isSought, holds, Rows.areDifferent, isAllowed]
    cases numbers? a v <;> simp [htexts]
  | greater | less | atLeast | atMost => exact absurd hop (by decide)

theorem isSought_of_not_numbers (hop : op.isOrdering = false) (h : numbers? a v = none) :
    isSought op v a = isAllowed op v a := by
  rw [isSought_eq hop, h]

theorem isSought_iff_sameNumber (hop : op.isOrdering = false) (h : numbers? a v ≠ none) :
    isSought op v a = true ↔ SameNumber a v := by
  obtain ⟨⟨x, y⟩, hxy⟩ := Option.ne_none_iff_exists'.1 h
  rw [isSought_eq hop, hxy]
  constructor
  · exact fun heq => ⟨x, y, hxy, heq⟩
  · rintro ⟨x', y', hxy', heq⟩
    cases hxy.symm.trans hxy'
    exact heq

/-- A number that has the text of another one, in whatever case, is that number. -/
theorem sameNumber_of_isAllowed_notEqual (h : isAllowed .notEqual v a = true)
    (hn : numbers? a v ≠ none) : SameNumber a v := by
  obtain ⟨⟨x, y⟩, hxy⟩ := Option.ne_none_iff_exists'.1 hn
  obtain ⟨hx, hy⟩ := numbers?_eq_some_iff.1 hxy
  have htexts : Text.lowercase a.toList = Text.lowercase v.toList :=
    String.ofList_inj.1 (of_decide_eq_true h)
  obtain rfl := number?_eq_of_lowercase_eq hx hy htexts
  obtain ⟨m, hm⟩ := exists_position hx
  exact ⟨x, x, hxy, by rw [Rows.eq_of_position hm hm, decide_eq_true rfl]⟩

/-! ## The finding -/

theorem reports_iff (he : e ∈ r.entries) (hkind : e.2.kind = .enumeration)
    (hkey : Text.fold e.1 = Text.fold t.key) (hop : t.operator.isOrdering = false) :
    Reports r e.2 t ↔ ∀ a ∈ e.2.allowedValues, isAllowed t.operator t.value a = false := by
  have hcommand : r.command? t.key = some e.2 := by
    rw [Registry.command?, Registry.entry?_eq_some_iff.2 ⟨he, hkey⟩]
    rfl
  have hproblem : problem? e.2 t = if e.2.allowedValues.any (isAllowed t.operator t.value) then none
      else some (.valueNotAllowed e.2.allowedValues) := by
    simp [problem?, hop, hkind]
  rw [Reports, diagnose, List.mem_filterMap]
  simp only [List.mem_singleton, exists_eq_left, diagnoseToken?, hcommand, hproblem]
  cases hany : e.2.allowedValues.any (isAllowed t.operator t.value) with
  | true =>
    obtain ⟨a, ha, hallowed⟩ := List.any_eq_true.1 hany
    simp only [if_true, Option.map_none, reduceCtorEq, false_iff]
    intro hnone
    rw [hnone a ha] at hallowed
    cases hallowed
  | false => simpa using hany

theorem predicts_iff_isSought (hkind : e.2.kind = .enumeration)
    (hop : t.operator.isOrdering = false) : Predicts r e.2 t ↔
      (Reports r e.2 t ↔ ∀ a ∈ e.2.allowedValues, isSought t.operator t.value a = false) := by
  constructor
  · rintro ⟨hequality, hinequality⟩
    rw [hkind] at hequality hinequality
    cases ht : t.operator with
    | contains | equal => simpa [ht, isSought] using hequality
    | notEqual => simpa [ht, isSought] using hinequality
    | greater | less | atLeast | atMost =>
      rw [ht] at hop
      cases hop
  · intro h
    constructor
    · rintro (ht | ht) <;> simpa [ht, hkind, isSought] using h
    · intro ht
      simpa [ht, hkind, isSought] using h

theorem predicts_iff_exists (he : e ∈ r.entries) (hkind : e.2.kind = .enumeration)
    (hkey : Text.fold e.1 = Text.fold t.key) (hop : t.operator.isOrdering = false) :
    Predicts r e.2 t ↔ ((∃ a ∈ e.2.allowedValues, isAllowed t.operator t.value a = true) ↔
      ∃ a ∈ e.2.allowedValues, isSought t.operator t.value a = true) := by
  have hnone (p : String → Bool) : (∀ a ∈ e.2.allowedValues, p a = false) ↔
      ¬ ∃ a ∈ e.2.allowedValues, p a = true := by
    simp only [not_exists, not_and, Bool.not_eq_true]
  rw [predicts_iff_isSought hkind hop, reports_iff he hkind hkey hop, hnone, hnone, not_iff_not]

/-! ## Numbers and other texts -/

theorem numbers?_ne_none (h : SameNumber a v) : numbers? a v ≠ none := by
  obtain ⟨x, y, hxy, -⟩ := h
  exact Option.ne_none_iff_exists'.2 ⟨_, hxy⟩

variable {values : List String}

theorem exists_isSought_iff (hop : op.isOrdering = false) :
    (∃ a ∈ values, isSought op v a = true) ↔
      (∃ a ∈ values, numbers? a v = none ∧ isAllowed op v a = true) ∨
        ∃ a ∈ values, SameNumber a v := by
  constructor
  · rintro ⟨a, ha, hsought⟩
    by_cases hn : numbers? a v = none
    · rw [isSought_of_not_numbers hop hn] at hsought
      exact Or.inl ⟨a, ha, hn, hsought⟩
    · exact Or.inr ⟨a, ha, (isSought_iff_sameNumber hop hn).1 hsought⟩
  · rintro (⟨a, ha, hn, hallowed⟩ | ⟨a, ha, hsame⟩)
    · exact ⟨a, ha, (isSought_of_not_numbers hop hn).trans hallowed⟩
    · exact ⟨a, ha, (isSought_iff_sameNumber hop (numbers?_ne_none hsame)).2 hsame⟩

theorem exists_isAllowed_iff :
    (∃ a ∈ values, isAllowed op v a = true) ↔
      (∃ a ∈ values, numbers? a v = none ∧ isAllowed op v a = true) ∨
        ∃ a ∈ values, numbers? a v ≠ none ∧ isAllowed op v a = true := by
  constructor
  · rintro ⟨a, ha, hallowed⟩
    by_cases hn : numbers? a v = none
    · exact Or.inl ⟨a, ha, hn, hallowed⟩
    · exact Or.inr ⟨a, ha, hn, hallowed⟩
  · rintro (⟨a, ha, -, hallowed⟩ | ⟨a, ha, -, hallowed⟩)
    · exact ⟨a, ha, hallowed⟩
    · exact ⟨a, ha, hallowed⟩

/-- Either a value that is no number settles it for both, or the numbers have to. -/
theorem agree_iff (hop : op.isOrdering = false) :
    ((∃ a ∈ values, isAllowed op v a = true) ↔ ∃ a ∈ values, isSought op v a = true) ↔
      (∃ a ∈ values, numbers? a v = none ∧ isAllowed op v a = true) ∨
      ((∃ a ∈ values, numbers? a v ≠ none ∧ isAllowed op v a = true) ↔
        ∃ a ∈ values, SameNumber a v) := by
  rw [exists_isAllowed_iff, exists_isSought_iff hop]
  by_cases htext : ∃ a ∈ values, numbers? a v = none ∧ isAllowed op v a = true
  · simp only [htext, true_or]
  · simp only [htext, false_or]

/-- Without numbers, findings and rows go by the same texts. -/
theorem agree_of_not_numbers (hop : op.isOrdering = false)
    (h : ∀ a ∈ values, numbers? a v = none) :
    (∃ a ∈ values, isAllowed op v a = true) ↔ ∃ a ∈ values, isSought op v a = true := by
  constructor
  · rintro ⟨a, ha, hallowed⟩
    exact ⟨a, ha, (isSought_of_not_numbers hop (h a ha)).trans hallowed⟩
  · rintro ⟨a, ha, hsought⟩
    exact ⟨a, ha, (isSought_of_not_numbers hop (h a ha)).symm.trans hsought⟩

/-- What has the text of an inequality's value is left out. -/
theorem isSought_of_isAllowed_notEqual (h : isAllowed .notEqual v a = true) :
    isSought .notEqual v a = true := by
  by_cases hn : numbers? a v = none
  · rw [isSought_of_not_numbers rfl hn, h]
  · exact (isSought_iff_sameNumber rfl hn).2 (sameNumber_of_isAllowed_notEqual h hn)

/-- **When findings predict the rows.**  Either a declared value that is not compared with the
token's value as a number is what the token asks for, or the declared numbers that have its text
are there just if those that are equal to it are.  So nothing is amiss where no numbers are
compared; and an inequality that leaves out no declared value is always reported. -/
theorem predicts_iff (he : e ∈ r.entries) (hkind : e.2.kind = .enumeration)
    (hkey : Text.fold e.1 = Text.fold t.key) (hop : t.operator.isOrdering = false) :
    (Predicts r e.2 t ↔
      (∃ a ∈ e.2.allowedValues, numbers? a t.value = none ∧
        isAllowed t.operator t.value a = true) ∨
      ((∃ a ∈ e.2.allowedValues, numbers? a t.value ≠ none ∧
        isAllowed t.operator t.value a = true) ↔
          ∃ a ∈ e.2.allowedValues, SameNumber a t.value)) ∧
    (number? t.value.toList = none ∨ (∀ a ∈ e.2.allowedValues, number? a.toList = none) →
      Predicts r e.2 t) ∧
    (t.operator = .notEqual →
      (∀ a ∈ e.2.allowedValues, holds (some e.2.kind) .notEqual a t.value = true) →
        Reports r e.2 t) := by
  refine ⟨(predicts_iff_exists he hkind hkey hop).trans (agree_iff hop), fun h => ?_,
    fun hnot hall => ?_⟩
  · refine (predicts_iff_exists he hkind hkey hop).2 (agree_of_not_numbers hop fun a ha => ?_)
    exact Rows.numbers?_eq_none (h.symm.imp (· a ha) id)
  · refine (reports_iff he hkind hkey hop).2 fun a ha => ?_
    rw [hnot, Bool.eq_false_iff]
    intro hallowed
    have hsought := isSought_of_isAllowed_notEqual hallowed
    have hselected := hall a ha
    rw [hkind] at hselected
    rw [isSought, hselected] at hsought
    cases hsought

/-- An enumeration of two numbers. -/
def levels : Registry where
  entries := [("level", .ofValues "" ["10", "20"])]
  ascending := by decide +kernel
  faultless := by decide +kernel

/-- A declared number in its own spelling, a word, and an inequality that leaves out none of the
declared numbers. -/
theorem predicts_iff_level :
    let c : Command := .ofValues "" ["10", "20"]
    Predicts levels c ⟨"LEVEL", .contains, "20", ⟨0, 8⟩⟩ ∧
      Predicts levels c ⟨"level", .notEqual, "ten", ⟨0, 10⟩⟩ ∧
      Reports levels c ⟨"level", .notEqual, "30", ⟨0, 9⟩⟩ := by
  have he : ("level", Command.ofValues "" ["10", "20"]) ∈ levels.entries :=
    List.mem_singleton_self _
  obtain ⟨hnumber, -, -⟩ :=
    predicts_iff (t := ⟨"LEVEL", .contains, "20", ⟨0, 8⟩⟩) he rfl (by decide +kernel) rfl
  obtain ⟨-, hword, -⟩ :=
    predicts_iff (t := ⟨"level", .notEqual, "ten", ⟨0, 10⟩⟩) he rfl rfl rfl
  obtain ⟨-, -, hother⟩ :=
    predicts_iff (t := ⟨"level", .notEqual, "30", ⟨0, 9⟩⟩) he rfl rfl rfl
  have hsame : SameNumber "20" "20" :=
    sameNumber_of_isAllowed_notEqual (by decide +kernel) (by decide +kernel)
  refine ⟨hnumber.2 (Or.inr (iff_of_true ?_ ?_)), hword (Or.inl (by decide +kernel)),
    hother rfl (by decide +kernel)⟩
  · exact ⟨"20", by decide, by decide +kernel, by decide +kernel⟩
  · exact ⟨"20", by decide, hsame⟩

/-- Findings that predict nothing: about a number that is spelt in another way than the declared one
that is equal to it, by equality and by inequality; and none about a number that is equal to no
declared one, but stands in the texts of both. -/
theorem not_predicts_level :
    let c : Command := .ofValues "" ["10", "20"]
    (Reports levels c ⟨"level", .contains, "10.0", ⟨0, 10⟩⟩ ∧
      holds (some c.kind) .contains "10" "10.0" = true ∧
      ¬ Predicts levels c ⟨"level", .contains, "10.0", ⟨0, 10⟩⟩) ∧
    (Reports levels c ⟨"level", .notEqual, "10.0", ⟨0, 11⟩⟩ ∧
      holds (some c.kind) .notEqual "10" "10.0" = false ∧
      ¬ Predicts levels c ⟨"level", .notEqual, "10.0", ⟨0, 11⟩⟩) ∧
    (¬ Reports levels c ⟨"level", .contains, "0", ⟨0, 7⟩⟩ ∧
      (∀ a ∈ c.allowedValues, holds (some c.kind) .contains a "0" = false) ∧
      ¬ Predicts levels c ⟨"level", .contains, "0", ⟨0, 7⟩⟩) := by
  intro c
  have hspelt : Reports levels c ⟨"level", .contains, "10.0", ⟨0, 10⟩⟩ := by decide +kernel
  have hselected : holds (some c.kind) .contains "10" "10.0" = true := by decide +kernel
  have hleft : Reports levels c ⟨"level", .notEqual, "10.0", ⟨0, 11⟩⟩ := by decide +kernel
  have hout : holds (some c.kind) .notEqual "10" "10.0" = false := by decide +kernel
  have hsilent : ¬ Reports levels c ⟨"level", .contains, "0", ⟨0, 7⟩⟩ := by decide +kernel
  have hnone : ∀ a ∈ c.allowedValues, holds (some c.kind) .contains a "0" = false := by
    decide +kernel
  refine ⟨⟨hspelt, hselected, fun h => ?_⟩, ⟨hleft, hout, fun h => ?_⟩, hsilent, hnone, fun h => ?_⟩
  · have hno := (h.of_equality (Or.inl rfl)).1 hspelt "10" (by decide)
    rw [hselected] at hno
    cases hno
  · have hyes := (h.of_inequality rfl).1 hleft "10" (by decide)
    rw [hout] at hyes
    cases hyes
  · exact hsilent ((h.of_equality (Or.inl rfl)).2 hnone)

end RowQuery
