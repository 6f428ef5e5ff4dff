import RowQuery.Number.Decimal

/-!
# Configuring summaries

Which fields a summary reads, and how much rows on watch and unhealthy rows count as a risk.
-/

namespace RowQuery.Summary

/-- The weights and limits of the risk score. -/
structure RiskConfig where
  /-- The status of a row on watch, in any case of its ASCII letters. -/
  watchStatus : String
  watchWeight : Double
  /-- A row with less health than this is unhealthy. -/
  lowHealthBelow : Double
  lowHealthWeight : Double
  /-- The least score of a critical risk. -/
  criticalAt : Double
  highAt : Double
  mediumAt : Double
  deriving DecidableEq

/-- The number `n / 100`. -/
def hundredths (n : Nat) : Double :=
  .ofRatio false (n * unitsPerOne) 100

/-- The weights and limits where nothing else is said. -/
def RiskConfig.default : RiskConfig where
  watchStatus := "watch"
  watchWeight := hundredths 50
  lowHealthBelow := hundredths 4000
  lowHealthWeight := hundredths 30
  criticalAt := hundredths 200
  highAt := hundredths 150
  mediumAt := hundredths 75

/-- The fields of a summary and its risk score. -/
structure Config where
  revenueField : String
  healthField : String
  statusField : String
  risk : RiskConfig
  deriving DecidableEq

/-- The fields where nothing else is said. -/
def Config.default : Config :=
  ⟨"revenue", "health", "status", .default⟩

end RowQuery.Summary
