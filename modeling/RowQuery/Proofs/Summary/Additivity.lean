import Mathlib.Data.List.Basic
import RowQuery.Proofs.Dictionary
import RowQuery.Proofs.Summary.Metrics

/-!
# Counts of rows put together

A count of a summary is the number of rows with some property, so it adds up when rows are put
together, and the order of the rows does not matter to it.  The risk is computed from two such
counts, and from nothing else.  (Totals are not among them: each addition is rounded.)

* `summarize_riskScore`, `summarize_riskLevel`: what the risk is computed from.
* `tally_perm`: a tally is the same for the same texts in another order.
* `summarize_append`, `summarize_perm`: rows put together, and rows in another order.
* `summarize_additive`: both at once.
-/

namespace RowQuery.Summary

open Rows (Accessor)

/-! ## Parts of a summary -/

section Parts

variable {ρ : Type} (config : Config) (accessor : Accessor ρ)

/-- The number of rows on watch. -/
def watched (rows : List ρ) : Nat :=
  (trimmedTexts accessor config.statusField rows).countP fun s =>
    equalsIgnoringAsciiCase s config.risk.watchStatus

/-- The number of unhealthy rows. -/
def unhealthy (rows : List ρ) : Nat :=
  (numbers accessor config.healthField rows).countP fun health =>
    health.lt config.risk.lowHealthBelow

theorem summarize_riskScore (rows : List ρ) : (summarize config accessor rows).riskScore =
    if rows.isEmpty then .zero
    else riskScore config.risk (watched config accessor rows) (unhealthy config accessor rows) := by
  cases rows with
  | nil => rfl
  | cons row r =>
    simp only [summarize, watched, unhealthy, List.isEmpty_cons, Bool.false_eq_true, if_false]

theorem summarize_riskLevel (rows : List ρ) : (summarize config accessor rows).riskLevel =
    if rows.isEmpty then .low
    else classify config.risk (summarize config accessor rows).riskScore := by
  cases rows with
  | nil => rfl
  | cons row r => simp only [summarize, List.isEmpty_cons, Bool.false_eq_true, if_false]

variable {config accessor} {rows others : List ρ}

theorem numbers_append (field : String) (rows others : List ρ) :
    numbers accessor field (rows ++ others) =
      numbers accessor field rows ++ numbers accessor field others :=
  List.filterMap_append

theorem trimmedTexts_append (field : String) (rows others : List ρ) :
    trimmedTexts accessor field (rows ++ others) =
      trimmedTexts accessor field rows ++ trimmedTexts accessor field others :=
  List.filterMap_append

theorem numbers_perm (h : rows.Perm others) (field : String) :
    (numbers accessor field rows).Perm (numbers accessor field others) :=
  h.filterMap _

theorem trimmedTexts_perm (h : rows.Perm others) (field : String) :
    (trimmedTexts accessor field rows).Perm (trimmedTexts accessor field others) :=
  h.filterMap _

theorem watched_perm (h : rows.Perm others) :
    watched config accessor rows = watched config accessor others :=
  (trimmedTexts_perm h _).countP_eq _

theorem unhealthy_perm (h : rows.Perm others) :
    unhealthy config accessor rows = unhealthy config accessor others :=
  (numbers_perm h _).countP_eq _

end Parts

/-! ## Tallies and bands in another order -/

theorem tally_perm {texts others : List String} (h : texts.Perm others) :
    tally texts = tally others := by
  refine Dictionary.ext_get? fun text => ?_
  rw [get?_tally, get?_tally, h.count_eq]
  simp only [h.mem_iff]

theorem Bands.ofValues_perm {values others : List Double} (h : values.Perm others) :
    ofValues values = ofValues others := by
  refine ext_count fun band => ?_
  rw [count_ofValues, count_ofValues]
  exact h.countP_eq _

/-! ## Summaries -/

/-- Each count of `m` is the sum of those of `a` and `b`; a status that does not occur counts 0. -/
structure Metrics.IsSum (m a b : Metrics) : Prop where
  count : m.count = a.count + b.count
  bands : ∀ band, m.bands.count band = a.bands.count band + b.bands.count band
  statuses : ∀ status, (m.statuses.get? status).getD 0 =
    (a.statuses.get? status).getD 0 + (b.statuses.get? status).getD 0

/-- The counts and the risk of `m` are those of `n`. -/
structure Metrics.Alike (m n : Metrics) : Prop where
  count : m.count = n.count
  bands : m.bands = n.bands
  statuses : m.statuses = n.statuses
  riskScore : m.riskScore = n.riskScore
  riskLevel : m.riskLevel = n.riskLevel

variable {ρ : Type} (config : Config) (accessor : Accessor ρ)

theorem summarize_append (rows others : List ρ) : (summarize config accessor (rows ++ others)).IsSum
    (summarize config accessor rows) (summarize config accessor others) where
  count := by
    rw [summarize_count, summarize_count, summarize_count, List.length_append]
  bands band := by
    rw [summarize_bands, summarize_bands, summarize_bands, Bands.count_ofValues,
      Bands.count_ofValues, Bands.count_ofValues, numbers_append, List.countP_append]
  statuses status := by
    rw [summarize_statuses, summarize_statuses, summarize_statuses, getD_get?_tally,
      getD_get?_tally, getD_get?_tally, trimmedTexts_append, List.count_append]

theorem summarize_perm {rows others : List ρ} (h : rows.Perm others) :
    (summarize config accessor rows).Alike (summarize config accessor others) := by
  have hempty : rows.isEmpty = others.isEmpty := by
    rw [Bool.eq_iff_iff, List.isEmpty_iff, List.isEmpty_iff, ← List.length_eq_zero_iff,
      ← List.length_eq_zero_iff, h.length_eq]
  have hscore : (summarize config accessor rows).riskScore =
      (summarize config accessor others).riskScore := by
    rw [summarize_riskScore, summarize_riskScore, hempty, watched_perm h, unhealthy_perm h]
  constructor
  · rw [summarize_count, summarize_count, h.length_eq]
  · rw [summarize_bands, summarize_bands, Bands.ofValues_perm (numbers_perm h _)]
  · rw [summarize_statuses, summarize_statuses, tally_perm (trimmedTexts_perm h _)]
  · exact hscore
  · rw [summarize_riskLevel, summarize_riskLevel, hempty, hscore]

/-- **Counts add up, in any order.**  The number of rows, of those in each band of health and of
those with each status are sums when rows are put together, also if there are none on one side; and
rows in another order have the same counts, the same risk score and the same risk level. -/
theorem summarize_additive :
    (∀ rows others, (summarize config accessor (rows ++ others)).IsSum
      (summarize config accessor rows) (summarize config accessor others)) ∧
    (∀ rows others, rows.Perm others →
      (summarize config accessor rows).Alike (summarize config accessor others)) :=
  ⟨summarize_append config accessor, fun _ _ => summarize_perm config accessor⟩

/-- Two rows on watch, one of them without health, and one row put together with no rows. -/
theorem summarize_additive_rows_on_watch :
    let ill : List (String × String) := [("health", "39.9"), ("status", " Watch")]
    let well := [("health", "40"), ("status", "active")]
    let unknown := [("health", "?"), ("status", "watch")]
    let metrics := summarize .default fun (row : List (String × String)) name => row.lookup name
    [ill, well, unknown].Perm [unknown, ill, well] ∧
      (metrics [ill, well, unknown]).Alike (metrics [unknown, ill, well]) ∧
      (metrics ([ill] ++ [])).IsSum (metrics [ill]) (metrics []) ∧
      (metrics [ill, well, unknown]).bands = ⟨1, 1, 0, 0, 0⟩ ∧
      (metrics [ill, well, unknown]).statuses.entries =
        [("Watch", 1), ("active", 1), ("watch", 1)] ∧
      (metrics [ill, well, unknown]).riskLevel = .medium := by
  intro ill well unknown metrics
  obtain ⟨hsum, halike⟩ := summarize_additive .default
    fun (row : List (String × String)) name => row.lookup name
  have hperm : [ill, well, unknown].Perm [unknown, ill, well] := by decide +kernel
  exact ⟨hperm, halike _ _ hperm, hsum _ _, by decide +kernel, by decide +kernel, by decide +kernel⟩

end RowQuery.Summary
