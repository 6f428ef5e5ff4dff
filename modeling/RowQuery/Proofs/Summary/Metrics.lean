import RowQuery.Summary.Metrics

/-!
# Fewer rows, smaller counts

Each count of a summary is the number of rows with some property, so it cannot grow when rows are
left out.

* `get?_tally`: a tally says how often each text occurs, and has no others.
* `numberOf?`, `statusOf?`: what a summary sees in a field of a row.
* `summarize_count`, `summarize_bands`, `summarize_statuses`, `summarize_health`,
  `summarize_revenue`: the parts of a summary; no rows are no exception.
* `summarize_within`: the counts of some of the rows are within those of all.
-/

namespace RowQuery.Summary

open Rows (Accessor)

/-! ## Tallies -/

/-- Each text that is added is counted once more. -/
theorem get?_foldl_tally (texts : List String) (d : Dictionary Nat) (text : String) :
    (texts.foldl (fun d t => d.insert t ((d.get? t).getD 0 + 1)) d).get? text =
      if text ∈ texts then some ((d.get? text).getD 0 + texts.count text) else d.get? text := by
  induction texts generalizing d with
  | nil => simp
  | cons t r ih =>
    rw [List.foldl_cons, ih, Dictionary.get?_insert]
    by_cases h : t = text
    · subst h
      rw [if_pos rfl, if_pos (List.mem_cons_self ..), Option.getD_some, List.count_cons_self]
      split
      · congr 1
        omega
      · next hr => rw [List.count_eq_zero_of_not_mem hr]
    · rw [if_neg h, List.count_cons_of_ne h]
      simp only [List.mem_cons, Ne.symm h, false_or]

theorem get?_tally (texts : List String) (text : String) :
    (tally texts).get? text = if text ∈ texts then some (texts.count text) else none := by
  rw [tally, get?_foldl_tally, Dictionary.get?_empty, Option.getD_none, Nat.zero_add]

theorem getD_get?_tally (texts : List String) (text : String) :
    ((tally texts).get? text).getD 0 = texts.count text := by
  rw [get?_tally]
  split
  · rfl
  · next h => exact (List.count_eq_zero_of_not_mem h).symm

/-! ## Rows -/

section Rows

variable {ρ : Type} (accessor : Accessor ρ) (field : String)

/-- The finite number in a field of a row. -/
def numberOf? (row : ρ) : Option Double :=
  (accessor row field).bind fun text => number? text.toList

/-- The text in a field of a row, without white space at its ends. -/
def statusOf? (row : ρ) : Option String :=
  (accessor row field).map fun text => String.ofList (Text.trim text.toList)

theorem numbers_eq_filterMap (rows : List ρ) :
    numbers accessor field rows = rows.filterMap (numberOf? accessor field) :=
  rfl

theorem trimmedTexts_eq_filterMap (rows : List ρ) :
    trimmedTexts accessor field rows = rows.filterMap (statusOf? accessor field) :=
  rfl

theorem length_numbers (rows : List ρ) :
    (numbers accessor field rows).length =
      rows.countP fun row => (numberOf? accessor field row).isSome := by
  rw [numbers_eq_filterMap, List.length_filterMap_eq_countP]

theorem countP_numbers (p : Double → Bool) (rows : List ρ) :
    (numbers accessor field rows).countP p =
      rows.countP fun row => (numberOf? accessor field row).any p := by
  rw [numbers_eq_filterMap, List.countP_filterMap]
  refine List.countP_congr fun row _ => ?_
  cases numberOf? accessor field row <;> simp

theorem length_trimmedTexts (rows : List ρ) :
    (trimmedTexts accessor field rows).length =
      rows.countP fun row => (accessor row field).isSome := by
  rw [trimmedTexts_eq_filterMap, List.length_filterMap_eq_countP]
  refine List.countP_congr fun row _ => ?_
  rw [statusOf?, Option.isSome_map]

theorem count_trimmedTexts (text : String) (rows : List ρ) :
    (trimmedTexts accessor field rows).count text =
      rows.countP fun row => statusOf? accessor field row = some text := by
  rw [List.count, trimmedTexts_eq_filterMap, List.countP_filterMap]
  refine List.countP_congr fun row _ => ?_
  cases statusOf? accessor field row <;> simp

theorem mem_trimmedTexts {text : String} {rows : List ρ} :
    text ∈ trimmedTexts accessor field rows ↔
      ∃ row ∈ rows, statusOf? accessor field row = some text :=
  List.mem_filterMap

end Rows

/-! ## Bands -/

/-- The number of rows in a band. -/
def Bands.count (b : Bands) : Band → Nat
  | .critical => b.critical
  | .poor => b.poor
  | .fair => b.fair
  | .good => b.good
  | .excellent => b.excellent

theorem Bands.count_ofValues (values : List Double) (band : Band) :
    (ofValues values).count band = values.countP fun health => Band.ofHealth health = band := by
  cases band <;> rfl

theorem Bands.ext_count {a b : Bands} (h : ∀ band, a.count band = b.count band) : a = b := by
  obtain ⟨critical, poor, fair, good, excellent⟩ := a
  obtain ⟨critical', poor', fair', good', excellent'⟩ := b
  obtain rfl : critical = critical' := h .critical
  obtain rfl : poor = poor' := h .poor
  obtain rfl : fair = fair' := h .fair
  obtain rfl : good = good' := h .good
  obtain rfl : excellent = excellent' := h .excellent
  rfl

/-! ## Summaries -/

variable {ρ : Type} (config : Config) (accessor : Accessor ρ)

theorem summarize_count (rows : List ρ) : (summarize config accessor rows).count = rows.length := by
  cases rows <;> rfl

theorem summarize_bands (rows : List ρ) : (summarize config accessor rows).bands =
    .ofValues (numbers accessor config.healthField rows) := by
  cases rows <;> rfl

theorem summarize_health (rows : List ρ) : (summarize config accessor rows).health =
    .ofValues (numbers accessor config.healthField rows) := by
  cases rows <;> rfl

theorem summarize_revenue (rows : List ρ) : (summarize config accessor rows).revenue =
    .ofValues (numbers accessor config.revenueField rows) := by
  cases rows <;> rfl

theorem summarize_statuses (rows : List ρ) : (summarize config accessor rows).statuses =
    tally (trimmedTexts accessor config.statusField rows) := by
  cases rows <;> rfl

/-- None of the counts of `m` is larger than that of `n`; a status that does not occur counts 0. -/
structure Metrics.Within (m n : Metrics) : Prop where
  count : m.count ≤ n.count
  bands : ∀ band, m.bands.count band ≤ n.bands.count band
  statuses : ∀ status, (m.statuses.get? status).getD 0 ≤ (n.statuses.get? status).getD 0

theorem summarize_within {kept rows : List ρ} (h : kept.Sublist rows) :
    (summarize config accessor kept).Within (summarize config accessor rows) where
  count := by
    rw [summarize_count, summarize_count]
    exact h.length_le
  bands band := by
    have hhealths : (numbers accessor config.healthField kept).Sublist
        (numbers accessor config.healthField rows) := h.filterMap _
    rw [summarize_bands, summarize_bands, Bands.count_ofValues, Bands.count_ofValues]
    exact hhealths.countP_le
  statuses status := by
    have htexts : (trimmedTexts accessor config.statusField kept).Sublist
        (trimmedTexts accessor config.statusField rows) := h.filterMap _
    rw [summarize_statuses, summarize_statuses, getD_get?_tally, getD_get?_tally]
    exact htexts.count_le status

end RowQuery.Summary
