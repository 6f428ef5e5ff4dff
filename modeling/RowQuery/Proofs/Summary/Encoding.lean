import RowQuery.Proofs.Json.Decode
import RowQuery.Summary.Encoding

/-!
# Summary configurations that are written and read

The weights and limits of the risk score are the only numbers of a configuration.  The defaults are
finite, and so is whatever has been read.

* `RiskConfig.IsFinite`, `RiskConfig.isFinite_of_ofJson?`: the doubles have a text.
* `RiskConfig.reads_toJson`, `Config.reads_toJson`: what is written is read.
-/

namespace RowQuery.Summary

open Json (Value)
open Json.Decode

namespace RiskConfig

/-- All weights and limits are finite. -/
structure IsFinite (r : RiskConfig) : Prop where
  watchWeight : r.watchWeight.isFinite = true
  lowHealthBelow : r.lowHealthBelow.isFinite = true
  lowHealthWeight : r.lowHealthWeight.isFinite = true
  criticalAt : r.criticalAt.isFinite = true
  highAt : r.highAt.isFinite = true
  mediumAt : r.mediumAt.isFinite = true

theorem isFinite_default : default.IsFinite := by
  constructor <;> decide +kernel

/-- All numbers that are written are doubles. -/
theorem isFiniteDouble_of_mem_numbers {r : RiskConfig} {x : Json.Number}
    (h : x ∈ r.toJson.numbers) : x.IsFiniteDouble := by
  simp only [toJson, Value.numbers, Value.memberNumbers, List.nil_append, List.append_nil,
    List.mem_append] at h
  obtain h | h | h | h | h | h := h <;> exact Value.isFiniteDouble_of_mem_numbers h

theorem reads_toJson {r : RiskConfig} (h : r.IsFinite) : Reads ofJson? r.toJson r := by
  rw [Reads, ofJson?, toJson, record?_object _ (by simp)]
  simp [member, withDefault?_of_reads (reads_string _),
    withDefault?_of_reads (reads_double h.watchWeight),
    withDefault?_of_reads (reads_double h.lowHealthBelow),
    withDefault?_of_reads (reads_double h.lowHealthWeight),
    withDefault?_of_reads (reads_double h.criticalAt),
    withDefault?_of_reads (reads_double h.highAt), withDefault?_of_reads (reads_double h.mediumAt)]

/-- What has been read is finite. -/
theorem isFinite_of_ofJson? {d : Json.Document} {r : RiskConfig} (h : ofJson? d = some r) :
    r.IsFinite := by
  have hfield {default x : Double} {field : Option Json.Document}
      (hdefault : default.isFinite = true) (hx : withDefault? default double? field = some x) :
      x.isFinite = true :=
    withDefault?_induction (P := fun x => x.isFinite = true) hdefault
      (fun _ _ => isFinite_of_double?) hx
  simp only [ofJson?, Option.bind_eq_bind, Option.bind_eq_some_iff] at h
  obtain ⟨fields, -, h⟩ := h
  split at h
  · simp only [Option.bind_eq_some_iff] at h
    obtain ⟨_, -, _, hwatch, _, hbelow, _, hlow, _, hcritical, _, hhigh, _, hmedium, h⟩ := h
    cases h
    exact ⟨hfield isFinite_default.1 hwatch, hfield isFinite_default.2 hbelow,
      hfield isFinite_default.3 hlow, hfield isFinite_default.4 hcritical,
      hfield isFinite_default.5 hhigh, hfield isFinite_default.6 hmedium⟩
  · cases h

end RiskConfig

namespace Config

theorem reads_toJson {c : Config} (h : c.risk.IsFinite) : Reads ofJson? c.toJson c := by
  rw [Reads, ofJson?, toJson, record?_object _ (by simp)]
  simp [member, withDefault?_of_reads (reads_string _),
    withDefault?_of_reads (RiskConfig.reads_toJson h)]

theorem isFinite_of_ofJson? {d : Json.Document} {c : Config} (h : ofJson? d = some c) :
    c.risk.IsFinite := by
  simp only [ofJson?, Option.bind_eq_bind, Option.bind_eq_some_iff] at h
  obtain ⟨fields, -, h⟩ := h
  split at h
  · simp only [Option.bind_eq_some_iff] at h
    obtain ⟨_, -, _, -, _, -, _, hrisk, h⟩ := h
    cases h
    exact withDefault?_induction RiskConfig.isFinite_default
      (fun _ _ => RiskConfig.isFinite_of_ofJson?) hrisk
  · cases h

end Config

end RowQuery.Summary
