import Mathlib.Algebra.BigOperators.Group.List.Lemmas
import Mathlib.Algebra.GroupWithZero.Nat
import RowQuery.Proofs.Summary.Additivity
import RowQuery.Proofs.Text.Blank

/-!
# Metrics that fit together

Bands, statuses and risk are counted apart, each by its own property of a row.  But they are
counted in the same rows, so each can be had from another one or from the rows themselves.

* `Bands.total_ofValues`: each number is in one band.
* `sum_tally_filter`: counts of some of the texts add up to the number of all these texts.
* `LeavesOut`, `numbers_leavesOut`: rows without a number leave nothing behind in totals.
* `summarize_consistent`: all metrics of a summary.
-/

namespace RowQuery.Summary

open Rows (Accessor)

/-! ## Statuses -/

theorem trimmed_of_statusOf? {ρ : Type} {accessor : Accessor ρ} {field : String} {row : ρ}
    {text : String} (h : statusOf? accessor field row = some text) : Text.Trimmed text.toList := by
  obtain ⟨typed, -, rfl⟩ := Option.map_eq_some_iff.1 h
  rw [String.toList_ofList]
  exact Text.trimmed_trim typed.toList

/-! ## Bands -/

/-- Each number is in just one of the bands. -/
theorem Bands.total_ofValues (values : List Double) : (ofValues values).total = values.length := by
  induction values with
  | nil => rfl
  | cons health r ih =>
    simp only [total, ofValues] at ih
    simp only [total, ofValues, List.countP_cons, List.length_cons, ← ih]
    cases Band.ofHealth health <;> simp <;> omega

theorem ofHealth_eq_critical_iff (health : Double) :
    Band.ofHealth health = .critical ↔ health.lt (Double.ofNat 40) = true := by
  unfold Band.ofHealth
  split
  · next h => simp [h]
  · next h =>
    simp only [h]
    repeat' split
    all_goals decide

/-! ## Tallies -/

theorem mem_tally_iff {texts : List String} {e : String × Nat} :
    e ∈ (tally texts).entries ↔ e.1 ∈ texts ∧ e.2 = texts.count e.1 := by
  rw [← Dictionary.get?_eq_some_iff, get?_tally]
  split
  · next h => simp [h, eq_comm]
  · next h => simp [h]

theorem keys_tally_perm (texts : List String) :
    ((tally texts).entries.map (·.1)).Perm texts.dedup := by
  refine (List.perm_ext_iff_of_nodup (tally texts).nodup_keys texts.nodup_dedup).2 fun text => ?_
  rw [List.mem_dedup, List.mem_map]
  constructor
  · rintro ⟨e, he, rfl⟩
    exact (mem_tally_iff.1 he).1
  · exact fun htext => ⟨(text, texts.count text), mem_tally_iff.2 ⟨htext, rfl⟩, rfl⟩

/-- Texts with some property are counted under the keys that have it. -/
theorem sum_tally_filter (texts : List String) (p : String → Bool) :
    (((tally texts).entries.filter fun e => p e.1).map (·.2)).sum = texts.countP p := by
  have hcounts : ((tally texts).entries.filter fun e => p e.1).map (·.2) =
      (((tally texts).entries.map (·.1)).filter p).map fun text => texts.count text := by
    rw [List.filter_map, List.map_map]
    refine List.map_congr_left fun e he => ?_
    exact (mem_tally_iff.1 (List.mem_of_mem_filter he)).2
  rw [hcounts, (((keys_tally_perm texts).filter p).map _).sum_eq]
  exact List.sum_map_count_dedup_filter_eq_countP p texts

theorem sum_tally (texts : List String) :
    ((tally texts).entries.map (·.2)).sum = texts.length := by
  have hall := sum_tally_filter texts fun _ => true
  rwa [List.filter_true, List.countP_true] at hall

/-! ## Totals -/

section Totals

variable {ρ : Type}

/-- What is kept of some rows if any of those with a property are left out. -/
inductive LeavesOut (p : ρ → Prop) : List ρ → List ρ → Prop
  | nil : LeavesOut p [] []
  | keep (row : ρ) {kept rows : List ρ} : LeavesOut p kept rows →
      LeavesOut p (row :: kept) (row :: rows)
  | drop {row : ρ} {kept rows : List ρ} : p row → LeavesOut p kept rows →
      LeavesOut p kept (row :: rows)

theorem numbers_leavesOut {accessor : Accessor ρ} {field : String} {kept rows : List ρ}
    (h : LeavesOut (numberOf? accessor field · = none) kept rows) :
    numbers accessor field kept = numbers accessor field rows := by
  simp only [numbers_eq_filterMap]
  induction h with
  | nil => rfl
  | keep row _ ih => rw [List.filterMap_cons, List.filterMap_cons, ih]
  | drop hrow _ ih => rw [List.filterMap_cons_none hrow, ih]

end Totals

/-! ## Summaries -/

/-- The counts of the statuses that are the one to watch, in any case of its ASCII letters. -/
def Metrics.onWatch (risk : RiskConfig) (m : Metrics) : Nat :=
  ((m.statuses.entries.filter fun e => equalsIgnoringAsciiCase e.1 risk.watchStatus).map (·.2)).sum

/-- The number of rows with less health than some number. -/
def rowsBelow {ρ : Type} (accessor : Accessor ρ) (field : String) (rows : List ρ) (limit : Double) :
    Nat :=
  rows.countP fun row => (numberOf? accessor field row).any (·.lt limit)

/-- The metrics of some rows fit to each other and to the rows. -/
structure Metrics.Consistent {ρ : Type} (config : Config) (accessor : Accessor ρ) (rows : List ρ)
    (m : Metrics) : Prop where
  bands : m.bands.total = rows.countP fun row => (numberOf? accessor config.healthField row).isSome
  of_entry : ∀ e ∈ m.statuses.entries, 0 < e.2 ∧ Text.Trimmed e.1.toList ∧
    e.2 = rows.countP fun row => statusOf? accessor config.statusField row = some e.1
  entry_of : ∀ row ∈ rows, ∀ status, statusOf? accessor config.statusField row = some status →
    ∃ e ∈ m.statuses.entries, e.1 = status
  statuses : (m.statuses.entries.map (·.2)).sum =
    rows.countP fun row => (accessor row config.statusField).isSome
  riskScore : rows ≠ [] → m.riskScore =
    ((Double.ofNat (m.onWatch config.risk)).mul config.risk.watchWeight).add
      ((Double.ofNat (rowsBelow accessor config.healthField rows config.risk.lowHealthBelow)).mul
        config.risk.lowHealthWeight)
  critical : config.risk.lowHealthBelow = Double.ofNat 40 →
    rowsBelow accessor config.healthField rows config.risk.lowHealthBelow = m.bands.critical

variable {ρ : Type} (config : Config) (accessor : Accessor ρ)

theorem metrics_consistent (rows : List ρ) :
    (summarize config accessor rows).Consistent config accessor rows where
  bands := by
    rw [summarize_bands, Bands.total_ofValues, length_numbers]
  of_entry e he := by
    rw [summarize_statuses, mem_tally_iff] at he
    obtain ⟨htext, hcount⟩ := he
    obtain ⟨row, -, hrow⟩ := (mem_trimmedTexts ..).1 htext
    refine ⟨?_, trimmed_of_statusOf? hrow, ?_⟩
    · rw [hcount]
      exact List.count_pos_iff.2 htext
    · rw [hcount, count_trimmedTexts]
  entry_of row hrow status hstatus := by
    have htext := (mem_trimmedTexts ..).2 ⟨row, hrow, hstatus⟩
    rw [summarize_statuses]
    exact ⟨(status, (trimmedTexts ..).count status), mem_tally_iff.2 ⟨htext, rfl⟩, rfl⟩
  statuses := by
    rw [summarize_statuses, sum_tally, length_trimmedTexts]
  riskScore hrows := by
    have honWatch : (summarize config accessor rows).onWatch config.risk =
        watched config accessor rows := by
      rw [Metrics.onWatch, summarize_statuses]
      exact sum_tally_filter _ fun status => equalsIgnoringAsciiCase status config.risk.watchStatus
    have hunhealthy : unhealthy config accessor rows =
        rowsBelow accessor config.healthField rows config.risk.lowHealthBelow := countP_numbers ..
    rw [summarize_riskScore, if_neg (by simpa using hrows), honWatch, riskScore, hunhealthy]
  critical hlow := by
    rw [rowsBelow, ← countP_numbers, summarize_bands, hlow]
    refine List.countP_congr fun health _ => ?_
    rw [decide_eq_true_eq, ofHealth_eq_critical_iff]

/-- **The metrics of one summary fit together**, for all rows, also if there are none.  Each health
that is a number is in one band; statuses are counted under their texts without white space at the
ends, and no others are; the risk score goes by the same counts; and totals and averages only by the
rows that have a number. -/
theorem summarize_consistent :
    (∀ rows, (summarize config accessor rows).Consistent config accessor rows) ∧
    (∀ kept rows, LeavesOut (numberOf? accessor config.healthField · = none) kept rows →
      (summarize config accessor kept).health = (summarize config accessor rows).health) ∧
    (∀ kept rows, LeavesOut (numberOf? accessor config.revenueField · = none) kept rows →
      (summarize config accessor kept).revenue = (summarize config accessor rows).revenue) := by
  refine ⟨metrics_consistent config accessor, fun kept rows h => ?_, fun kept rows h => ?_⟩
  · rw [summarize_health, summarize_health, numbers_leavesOut h]
  · rw [summarize_revenue, summarize_revenue, numbers_leavesOut h]

/-- Statuses in two cases, one of them untrimmed, health that is no number and a row without any
field.  Totals are those of the rows with a number, also if there is none. -/
theorem summarize_consistent_four_rows :
    let ill : List (String × String) := [("health", "39.9"), ("status", " Watch"), ("revenue", "7")]
    let well := [("health", "40"), ("status", "active")]
    let unknown := [("health", "NaN"), ("status", "WATCH")]
    let config : Config := { Config.default with risk.lowHealthBelow := .ofNat 40 }
    let accessor : Accessor (List (String × String)) := fun row name => row.lookup name
    let metrics := summarize config accessor
    let rows := [ill, unknown, well, []]
    (metrics rows).Consistent config accessor rows ∧ rows ≠ [] ∧
      (metrics rows).statuses.entries = [("WATCH", 1), ("Watch", 1), ("active", 1)] ∧
      (metrics rows).riskScore = ((Double.ofNat 2).mul config.risk.watchWeight).add
        ((Double.ofNat 1).mul config.risk.lowHealthWeight) ∧
      (metrics rows).bands.critical = 1 ∧
      (metrics [ill, well]).health = (metrics rows).health ∧
      (metrics []).health = (metrics [unknown, []]).health ∧
      (metrics [ill]).revenue = (metrics rows).revenue := by
  intro ill well unknown config accessor metrics rows
  obtain ⟨hconsistent, hhealth, hrevenue⟩ := summarize_consistent config accessor
  have hrows : rows ≠ [] := by decide
  have hnone : ∀ row ∈ [unknown, []], numberOf? accessor config.healthField row = none := by
    decide +kernel
  have hfree : ∀ row ∈ [unknown, well, []], numberOf? accessor config.revenueField row = none := by
    decide +kernel
  have honWatch : (metrics rows).onWatch config.risk = 2 := by decide +kernel
  have hbelow : rowsBelow accessor config.healthField rows config.risk.lowHealthBelow = 1 := by
    decide +kernel
  have hscore := (hconsistent rows).riskScore hrows
  rw [honWatch, hbelow] at hscore
  have hcritical := (hconsistent rows).critical (by decide +kernel)
  rw [hbelow] at hcritical
  refine ⟨hconsistent rows, hrows, by decide +kernel, hscore, hcritical.symm, ?_, ?_, ?_⟩
  · exact hhealth [ill, well] rows (.keep _ (.drop (hnone unknown (by simp)) (.keep _
      (.drop (hnone [] (by simp)) .nil))))
  · exact hhealth [] [unknown, []] (.drop (hnone unknown (by simp))
      (.drop (hnone [] (by simp)) .nil))
  · exact hrevenue [ill] rows (.keep _ (.drop (hfree unknown (by simp)) (.drop
      (hfree well (by simp)) (.drop (hfree [] (by simp)) .nil))))

end RowQuery.Summary
