import RowQuery.Rows.Fields
import RowQuery.Schema.Diagnostic
import RowQuery.Summary.Config

/-!
# Summaries

Counts, totals and averages over rows.  A field that spells no finite number is left out of its
total and of the count behind the average.

* `Health.ofValues`: the numbers of rows in five bands of health.
* `classify`: the level of a risk score.
* `summarize`: all metrics of some rows.
-/

namespace RowQuery.Summary

open Rows (Accessor)

/-! ## Numbers -/

/-- The total and the average of some numbers. -/
structure Totals where
  total : Double
  average : Double
  deriving DecidableEq

/-- The totals of no numbers. -/
def Totals.none : Totals := ⟨.zero, .zero⟩

/-- The totals of some numbers. -/
def Totals.ofValues (values : List Double) : Totals :=
  if values.isEmpty then .none
  else ⟨Double.sum values, (Double.sum values).div (Double.ofNat values.length)⟩

/-! ## Health -/

/-- A range of health. -/
inductive Band where
  | critical
  | poor
  | fair
  | good
  | excellent
  deriving DecidableEq

/-- The band of a health: below 40, 60, 80, 95, or not. -/
def Band.ofHealth (health : Double) : Band :=
  if health.lt (Double.ofNat 40) then .critical
  else if health.lt (Double.ofNat 60) then .poor
  else if health.lt (Double.ofNat 80) then .fair
  else if health.lt (Double.ofNat 95) then .good
  else .excellent

/-- The numbers of rows in the five bands. -/
structure Bands where
  critical : Nat
  poor : Nat
  fair : Nat
  good : Nat
  excellent : Nat
  deriving DecidableEq

namespace Bands

/-- The bands of no rows. -/
def none : Bands := ⟨0, 0, 0, 0, 0⟩

/-- The bands of some values of health. -/
def ofValues (values : List Double) : Bands :=
  let count (band : Band) : Nat := values.countP fun health => Band.ofHealth health = band
  ⟨count .critical, count .poor, count .fair, count .good, count .excellent⟩

/-- The number of rows in all bands. -/
def total (b : Bands) : Nat :=
  b.critical + b.poor + b.fair + b.good + b.excellent

end Bands

/-! ## Risk -/

/-- How much some rows are at risk. -/
inductive RiskLevel where
  | low
  | medium
  | high
  | critical
  deriving DecidableEq

/-- The name of a level. -/
def RiskLevel.name : RiskLevel → String
  | .low => "low"
  | .medium => "medium"
  | .high => "high"
  | .critical => "critical"

/-- The level of a risk score: the highest one whose limit it reaches. -/
def classify (risk : RiskConfig) (score : Double) : RiskLevel :=
  if risk.criticalAt.le score then .critical
  else if risk.highAt.le score then .high
  else if risk.mediumAt.le score then .medium
  else .low

/-- The risk score of numbers of rows on watch and of unhealthy rows. -/
def riskScore (risk : RiskConfig) (watched unhealthy : Nat) : Double :=
  ((Double.ofNat watched).mul risk.watchWeight).add
    ((Double.ofNat unhealthy).mul risk.lowHealthWeight)

/-! ## Metrics -/

/-- How often each text occurs. -/
def tally (texts : List String) : Dictionary Nat :=
  texts.foldl (fun d text => d.insert text ((d.get? text).getD 0 + 1)) .empty

/-- Everything that is said about some rows. -/
structure Metrics where
  count : Nat
  revenue : Totals
  health : Totals
  bands : Bands
  statuses : Dictionary Nat
  riskLevel : RiskLevel
  riskScore : Double
  description : String

/-- The metrics of no rows. -/
def Metrics.none : Metrics where
  count := 0
  revenue := .none
  health := .none
  bands := .none
  statuses := .empty
  riskLevel := .low
  riskScore := .zero
  description := "No matching rows"

/-- Metrics in words. -/
def describe (count : Nat) (averageHealth : Double) (level : RiskLevel) : String :=
  String.ofList (digitsOf count) ++ (if count = 1 then " row" else " rows") ++ " · avg health " ++
    String.ofList (averageHealth.fixed 1) ++ " · risk " ++ level.name

variable {ρ : Type}

/-- The finite numbers in a field of rows. -/
def numbers (accessor : Accessor ρ) (field : String) (rows : List ρ) : List Double :=
  rows.filterMap fun row => (accessor row field).bind fun text => number? text.toList

/-- The texts in a field of rows, without white space at their ends. -/
def trimmedTexts (accessor : Accessor ρ) (field : String) (rows : List ρ) : List String :=
  rows.filterMap fun row =>
    (accessor row field).map fun text => String.ofList (Text.trim text.toList)

/-- The metrics of some rows. -/
def summarize (config : Config) (accessor : Accessor ρ) (rows : List ρ) : Metrics :=
  if rows.isEmpty then .none
  else
    let healths := numbers accessor config.healthField rows
    let statuses := trimmedTexts accessor config.statusField rows
    let watched := statuses.countP fun s => equalsIgnoringAsciiCase s config.risk.watchStatus
    let unhealthy := healths.countP fun health => health.lt config.risk.lowHealthBelow
    let health := Totals.ofValues healths
    let score := riskScore config.risk watched unhealthy
    let level := classify config.risk score
    { count := rows.length
      revenue := .ofValues (numbers accessor config.revenueField rows)
      health := health
      bands := .ofValues healths
      statuses := tally statuses
      riskLevel := level
      riskScore := score
      description := describe rows.length health.average level }

end RowQuery.Summary
