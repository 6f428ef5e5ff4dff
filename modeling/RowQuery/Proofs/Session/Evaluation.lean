import RowQuery.Proofs.Rows.UnknownKeys
import RowQuery.Proofs.Schema.Diagnostic
import RowQuery.Proofs.Summary.Metrics
import RowQuery.Session.Basic

/-!
# Evaluating a filter

The check, the findings, the selection and the summary go over the tokens and the rows on their own,
and yet they fit: a filter is refused for what is found first, and what is summarized is what is
selected.

* `check_eq_error_iff_diagnose`: the check reports the first finding about an unknown key.
* `evaluate_eq_error_iff`, `rows_of_evaluate`: an evaluation fails if the check does; otherwise it
  gives the selected rows and their summary.
* `evaluate_consistent`: how the parts of an evaluation fit.
-/

namespace RowQuery.Session

open Query (Token)
open Rows (Selector)

variable {s : Session} {text : String} {tokens : List Token}

/-! ## What is refused is what is found -/

@[simp] theorem selector_registry (s : Session) : s.selector.registry = s.registry := rfl

@[simp] theorem selector_unknownKeys (s : Session) :
    s.selector.unknownKeys = s.config.unknownKeys := rfl

/-- The check looks for the first token of an unknown key, and so do the findings. -/
theorem check_eq_error_iff_diagnose {error : Rows.FilterError} :
    s.selector.check tokens = .error error ↔ s.config.unknownKeys = .reject ∧
      ∃ d, (diagnose s.registry tokens).find? (·.isUnknownKey) = some d ∧
        error = .unknownKey d.key d.span.start := by
  by_cases hpolicy : s.config.unknownKeys = .reject
  · rw [Selector.check, selector_unknownKeys, if_pos hpolicy, selector_registry, find?_diagnose]
    cases tokens.find? fun t => !s.registry.isDeclared t.key with
    | none => simp
    | some t => simp [hpolicy, eq_comm]
  · rw [Selector.check_eq_ok_of_ne (s := s.selector) hpolicy]
    simp [hpolicy]

/-! ## The two outcomes -/

theorem evaluate_eq_error_iff {error : HostError} : s.evaluate text = .error error ↔
    ∃ e, s.selector.check (Query.parse text) = .error e ∧ error = .filter e := by
  unfold evaluate
  cases hcheck : s.selector.check (Query.parse text) with
  | error e => simp [hcheck, eq_comm]
  | ok u => simp [hcheck]

theorem rows_of_evaluate {o : Outcome} (h : s.evaluate text = .ok o) :
    o.rows = s.selector.select s.rows (Query.parse text) ∧ o.metrics = s.summarize o.rows := by
  unfold evaluate at h
  cases hcheck : s.selector.check (Query.parse text) with
  | error e =>
    simp only [hcheck] at h
    cases h
  | ok u =>
    simp only [hcheck] at h
    cases h
    exact ⟨rfl, rfl⟩

/-- **The parts of an evaluation fit.**  It fails if and only if unknown keys are rejected and one is
found, and then for the first that is found.  Otherwise the rows are those of the session that
satisfy the filter, the metrics are those of these rows, and no count in them is larger than in the
metrics of all rows.  A text without tokens keeps all rows. -/
theorem evaluate_consistent (s : Session) (text : String) :
    let tokens := Query.parse text
    let findings := diagnose s.registry tokens
    ((∃ error, s.evaluate text = .error error) ↔
      s.config.unknownKeys = .reject ∧ ∃ d ∈ findings, d.isUnknownKey = true) ∧
    (∀ error, s.evaluate text = .error error →
      ∃ d, findings.find? (·.isUnknownKey) = some d ∧
        error = .filter (.unknownKey d.key d.span.start)) ∧
    (∀ o, s.evaluate text = .ok o →
      o.rows.Sublist s.rows ∧ (o.rows = s.rows.filter fun row => s.selector.accepts row tokens) ∧
        o.metrics = s.summarize o.rows ∧ o.metrics.count = o.rows.length ∧
        o.metrics.Within s.summarizeAll) ∧
    (tokens = [] → ∃ o, s.evaluate text = .ok o ∧ o.rows = s.rows ∧ o.metrics = s.summarizeAll) := by
  intro tokens findings
  refine ⟨?_, ?_, ?_, ?_⟩
  · simp only [evaluate_eq_error_iff, check_eq_error_iff_diagnose]
    constructor
    · rintro ⟨error, e, ⟨hpolicy, d, hd, rfl⟩, rfl⟩
      have hunknown : d.isUnknownKey = true := List.find?_some hd
      exact ⟨hpolicy, d, List.mem_of_find?_eq_some hd, hunknown⟩
    · rintro ⟨hpolicy, d, hd, hunknown⟩
      obtain ⟨first, hfirst⟩ := Option.isSome_iff_exists.1 (List.find?_isSome.2 ⟨d, hd, hunknown⟩)
      exact ⟨_, _, ⟨hpolicy, first, hfirst, rfl⟩, rfl⟩
  · intro error herror
    obtain ⟨e, hcheck, rfl⟩ := evaluate_eq_error_iff.1 herror
    obtain ⟨-, d, hd, rfl⟩ := check_eq_error_iff_diagnose.1 hcheck
    exact ⟨d, hd, rfl⟩
  · intro o ho
    obtain ⟨hrows, hmetrics⟩ := rows_of_evaluate ho
    have hsub : o.rows.Sublist s.rows := hrows ▸ Selector.select_sublist s.selector s.rows tokens
    refine ⟨hsub, ?_, hmetrics, ?_, ?_⟩
    · rw [hrows, Selector.select_eq_filter]
    · rw [hmetrics]
      exact Summary.summarize_count ..
    · rw [hmetrics]
      exact Summary.summarize_within _ _ hsub
  · intro hempty
    have hparse : Query.parse text = [] := hempty
    cases hresult : s.evaluate text with
    | error error =>
      obtain ⟨e, hcheck, -⟩ := evaluate_eq_error_iff.1 hresult
      obtain ⟨-, d, hd, -⟩ := check_eq_error_iff_diagnose.1 hcheck
      rw [hparse] at hd
      cases hd
    | ok o =>
      obtain ⟨hrows, hmetrics⟩ := rows_of_evaluate hresult
      have hall : o.rows = s.rows := by
        rw [hrows, Selector.select_eq_filter, hparse]
        exact List.filter_eq_self.2 fun row _ => Selector.accepts_nil s.selector row
      exact ⟨o, rfl, hall, by rw [hmetrics, hall, summarizeAll]⟩

/-- An unknown key behind a declared one, under two policies, and a text without tokens. -/
theorem evaluate_consistent_misspelt_key :
    let high : Json.Value := .object [("score", .int 90), ("status", .string "active")]
    let low : Json.Value := .object [("score", .int 10), ("status", .string "active")]
    let text := "score:>50 scor:1"
    let s (policy : Rows.UnknownKeys) : Session :=
      ⟨{ Config.default with unknownKeys := policy }, .dashboard, rfl, [high, low]⟩
    (s .reject).evaluate text = .error (.filter (.unknownKey "scor" 10)) ∧
      (∃ o, (s .ignore).evaluate text = .ok o ∧ o.rows = [high] ∧ o.metrics.count = 1 ∧
        o.metrics.Within (s .ignore).summarizeAll) ∧
      ∃ o, (s .reject).evaluate " " = .ok o ∧ o.rows = [high, low] := by
  intro high low text s
  have htokens : Query.parse text =
      [⟨"score", .greater, "50", ⟨0, 9⟩⟩, ⟨"scor", .contains, "1", ⟨10, 16⟩⟩] := by
    decide +kernel
  have hknown : Registry.dashboard.isDeclared "score" = true := by decide +kernel
  have hunknown : Registry.dashboard.isDeclared "scor" = false := by decide +kernel
  have hfound := find?_diagnose Registry.dashboard (Query.parse text)
  rw [htokens] at hfound
  simp only [List.find?_cons, hknown, hunknown, Bool.not_true, Bool.not_false, Option.map_some]
    at hfound
  refine ⟨?_, ?_, ?_⟩
  · obtain ⟨hfails, hreports, -, -⟩ := evaluate_consistent (s .reject) text
    obtain ⟨error, herror⟩ := hfails.2 ⟨rfl, _, htokens ▸ List.mem_of_find?_eq_some hfound, rfl⟩
    obtain ⟨d, hd, rfl⟩ := hreports error herror
    rw [htokens] at hd
    obtain rfl := Option.some.inj (hfound.symm.trans hd)
    exact herror
  · obtain ⟨hfails, -, hgives, -⟩ := evaluate_consistent (s .ignore) text
    cases hresult : (s .ignore).evaluate text with
    | error error =>
      obtain ⟨hreject, -⟩ := hfails.1 ⟨error, hresult⟩
      cases hreject
    | ok o =>
      obtain ⟨-, hrows, -, hcount, hwithin⟩ := hgives o hresult
      have hhigh : (s .ignore).selector.accepts high (Query.parse text) = true := by
        decide +kernel
      have hlow : (s .ignore).selector.accepts low (Query.parse text) = false := by
        decide +kernel
      have hkept : o.rows = [high] := by
        rw [hrows]
        show List.filter _ [high, low] = [high]
        simp only [List.filter_cons, hhigh, hlow, if_true, List.filter_nil]
        rfl
      exact ⟨o, rfl, hkept, by rw [hcount, hkept]; rfl, hwithin⟩
  · obtain ⟨-, -, -, hempty⟩ := evaluate_consistent (s .reject) " "
    obtain ⟨o, ho, hrows, -⟩ := hempty (by decide +kernel)
    exact ⟨o, ho, hrows⟩

end RowQuery.Session
