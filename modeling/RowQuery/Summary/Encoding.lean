import RowQuery.Json.Decode
import RowQuery.Summary.Metrics

/-!
# Summaries as JSON
-/

namespace RowQuery.Summary

open Json (Decoder Value)
open Json.Decode

/-! ## Configuration -/

/-- Weights and limits. -/
def RiskConfig.toJson (r : RiskConfig) : Value :=
  .object [("watch_status", .string r.watchStatus), ("watch_weight", .double r.watchWeight),
    ("low_health_below", .double r.lowHealthBelow),
    ("low_health_weight", .double r.lowHealthWeight), ("critical_at", .double r.criticalAt),
    ("high_at", .double r.highAt), ("medium_at", .double r.mediumAt)]

/-- Reads weights and limits, of which each may be missing. -/
def RiskConfig.ofJson? : Decoder RiskConfig := fun d => do
  let standard := RiskConfig.default
  match ← record? ["watch_status", "watch_weight", "low_health_below", "low_health_weight",
    "critical_at", "high_at", "medium_at"] d with
  | [status, watch, below, low, critical, high, medium] =>
    return ⟨← withDefault? standard.watchStatus string? status,
      ← withDefault? standard.watchWeight double? watch,
      ← withDefault? standard.lowHealthBelow double? below,
      ← withDefault? standard.lowHealthWeight double? low,
      ← withDefault? standard.criticalAt double? critical,
      ← withDefault? standard.highAt double? high,
      ← withDefault? standard.mediumAt double? medium⟩
  | _ => none

/-- Fields and risk score of a summary. -/
def Config.toJson (c : Config) : Value :=
  .object [("revenue_field", .string c.revenueField), ("health_field", .string c.healthField),
    ("status_field", .string c.statusField), ("risk", c.risk.toJson)]

/-- Reads fields and risk score, of which each may be missing. -/
def Config.ofJson? : Decoder Config := fun d => do
  let standard := Config.default
  match ← record? ["revenue_field", "health_field", "status_field", "risk"] d with
  | [revenue, health, status, risk] =>
    return ⟨← withDefault? standard.revenueField string? revenue,
      ← withDefault? standard.healthField string? health,
      ← withDefault? standard.statusField string? status,
      ← withDefault? standard.risk RiskConfig.ofJson? risk⟩
  | _ => none

/-! ## Metrics -/

/-- Total and average. -/
def Totals.members (t : Totals) : List (String × Value) :=
  [("total", .double t.total), ("average", .double t.average)]

/-- Numbers of rows in bands. -/
def Bands.toJson (b : Bands) : Value :=
  .object [("critical", .int b.critical), ("poor", .int b.poor), ("fair", .int b.fair),
    ("good", .int b.good), ("excellent", .int b.excellent)]

/-- All metrics. -/
def Metrics.toJson (m : Metrics) : Value :=
  .object [("count", .int m.count), ("revenue", .object m.revenue.members),
    ("health", .object (m.health.members ++ [("distribution", m.bands.toJson)])),
    ("status_distribution", .object (m.statuses.entries.map fun e => (e.1, .int e.2))),
    ("risk_level", .string m.riskLevel.name), ("risk_score", .double m.riskScore),
    ("description", .string m.description)]

end RowQuery.Summary
