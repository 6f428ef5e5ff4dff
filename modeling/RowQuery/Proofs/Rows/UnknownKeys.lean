import RowQuery.Proofs.Rows.Selector
import RowQuery.Proofs.Schema.Registry

/-!
# Tokens whose key is not declared

The policy for unknown keys decides about the tokens of unknown keys only: they are compared, or
always hold, or never.  So a policy that asks for less keeps more rows, and a filter without such
tokens is the same under all policies.  Whether a filter is rejected is decided apart from the plan,
by the first such token, and a rejected filter has no plan.

* `accepts_of_entry`, `accepts_of_not_declares`: what one token asks of a row.
* `check_eq_ok_iff`, `check_eq_error_iff`: which filters are rejected, and for which token.
* `policies_agree`: the three policies and the check compared.
-/

namespace RowQuery.Rows.Selector

open Query (Token)

variable {ρ : Type} {s : Selector ρ} {t : Token} {tokens : List Token} {row : ρ}

/-! ## One token -/

/-- A token of a declared key asks for the field that the key stands for as it was declared. -/
theorem accepts_of_entry {e : Registry.Entry} (h : s.registry.entry? t.key = some e) :
    s.accepts row [t] = (s.accessor row (s.fieldMap.resolve e.1)).any fun actual =>
      holds (some e.2.kind) t.operator actual t.value := by
  simp only [accepts, plan?, h, Option.map_some, List.all_cons, List.all_nil, Bool.and_true,
    satisfies]

/-- A token of another key asks for what the policy says. -/
theorem accepts_of_not_declares (h : ¬ s.registry.Declares t.key) :
    s.accepts row [t] =
      match s.unknownKeys with
      | .evaluate => (s.accessor row (s.fieldMap.resolve t.key)).any fun actual =>
          holds none t.operator actual t.value
      | .ignore => true
      | .reject => false := by
  have hnone := Registry.entry?_eq_none_iff.2 h
  cases hpolicy : s.unknownKeys <;> simp [accepts, plan?, hnone, hpolicy, satisfies]

/-! ## Policies -/

/-- The selector with another policy. -/
def under (s : Selector ρ) (policy : UnknownKeys) : Selector ρ :=
  { s with unknownKeys := policy }

/-- For a declared key the policy does not matter. -/
theorem accepts_under_of_declares (h : s.registry.Declares t.key) (p q : UnknownKeys) :
    (s.under p).accepts row [t] = (s.under q).accepts row [t] := by
  obtain ⟨e, he, hfold⟩ := h
  have hentry := Registry.entry?_eq_some_iff.2 ⟨he, hfold⟩
  rw [accepts_of_entry (s := s.under p) hentry, accepts_of_entry (s := s.under q) hentry]
  rfl

theorem accepts_under_ignore (h : ¬ s.registry.Declares t.key) :
    (s.under .ignore).accepts row [t] = true :=
  accepts_of_not_declares (s := s.under .ignore) h

theorem accepts_under_reject (h : ¬ s.registry.Declares t.key) :
    (s.under .reject).accepts row [t] = false :=
  accepts_of_not_declares (s := s.under .reject) h

/-- A policy that asks for less of the tokens of unknown keys asks for less of the filter. -/
theorem accepts_under_mono {p q : UnknownKeys}
    (hpq : ∀ t, ¬ s.registry.Declares t.key → (s.under p).accepts row [t] = true →
      (s.under q).accepts row [t] = true)
    (h : (s.under p).accepts row tokens = true) : (s.under q).accepts row tokens = true := by
  rw [accepts_iff] at h ⊢
  intro t ht
  by_cases hkey : s.registry.Declares t.key
  · rw [accepts_under_of_declares hkey q p]
    exact h t ht
  · exact hpq t hkey (h t ht)

theorem accepts_evaluate_of_reject (h : (s.under .reject).accepts row tokens = true) :
    (s.under .evaluate).accepts row tokens = true := by
  refine accepts_under_mono (fun t hkey hrejected => ?_) h
  rw [accepts_under_reject hkey] at hrejected
  cases hrejected

theorem accepts_ignore_of_evaluate (h : (s.under .evaluate).accepts row tokens = true) :
    (s.under .ignore).accepts row tokens = true :=
  accepts_under_mono (fun _ hkey _ => accepts_under_ignore hkey) h

/-- One rejected token is enough. -/
theorem not_accepts_of_mem (ht : t ∈ tokens) (h : ¬ s.registry.Declares t.key) (row : ρ) :
    (s.under .reject).accepts row tokens = false := by
  rw [Bool.eq_false_iff]
  intro haccepts
  have hone := accepts_iff.1 haccepts t ht
  rw [accepts_under_reject h] at hone
  cases hone

/-- Ignored tokens may as well be left out. -/
theorem accepts_ignore_filter (s : Selector ρ) (row : ρ) (tokens : List Token) :
    (s.under .ignore).accepts row tokens =
      (s.under .ignore).accepts row (tokens.filter fun t => s.registry.Declares t.key) := by
  rw [Bool.eq_iff_iff, accepts_iff, accepts_iff]
  constructor
  · intro h t ht
    exact h t (List.mem_filter.1 ht).1
  · intro h t ht
    by_cases hkey : s.registry.Declares t.key
    · exact h t (List.mem_filter.2 ⟨ht, decide_eq_true hkey⟩)
    · exact accepts_under_ignore hkey

/-! ## Selections -/

theorem select_sublist_of_accepts {a b : Selector ρ} (rows : List ρ)
    (h : ∀ row, a.accepts row tokens = true → b.accepts row tokens = true) :
    (a.select rows tokens).Sublist (b.select rows tokens) := by
  have hboth : a.select rows tokens =
      (b.select rows tokens).filter fun row => a.accepts row tokens := by
    rw [select_eq_filter, select_eq_filter, List.filter_filter]
    congr 1
    funext row
    rw [Bool.eq_iff_iff, Bool.and_eq_true]
    exact ⟨fun hrow => ⟨hrow, h row hrow⟩, And.left⟩
  rw [hboth]
  exact List.filter_sublist

theorem select_congr_accepts {a b : Selector ρ} (rows : List ρ) {u : List Token}
    (h : ∀ row, a.accepts row tokens = b.accepts row u) :
    a.select rows tokens = b.select rows u := by
  rw [select_eq_filter, select_eq_filter]
  congr 1
  funext row
  exact h row

/-! ## Rejected filters -/

theorem check_eq_ok_of_ne (h : s.unknownKeys ≠ .reject) : s.check tokens = .ok () :=
  if_neg h

theorem check_eq_ok_iff (h : s.unknownKeys = .reject) :
    s.check tokens = .ok () ↔ ∀ t ∈ tokens, s.registry.Declares t.key := by
  have hfind : (tokens.find? fun t => !s.registry.isDeclared t.key) = none ↔
      ∀ t ∈ tokens, s.registry.Declares t.key := by
    simp only [List.find?_eq_none, Bool.not_eq_true', Bool.not_eq_false, Registry.isDeclared_iff]
  rw [← hfind, check, if_pos h]
  cases tokens.find? fun t => !s.registry.isDeclared t.key <;> simp

/-- The token that is reported is the first one of an unknown key. -/
theorem check_eq_error_iff {error : FilterError} (h : s.unknownKeys = .reject) :
    s.check tokens = .error error ↔ ∃ before t after, tokens = before ++ t :: after ∧
      (∀ u ∈ before, s.registry.Declares u.key) ∧ ¬ s.registry.Declares t.key ∧
        error = .unknownKey t.key t.span.start := by
  rw [check, if_pos h]
  constructor
  · intro herror
    split at herror
    · next t ht =>
      obtain ⟨hkey, before, after, rfl, hbefore⟩ := List.find?_eq_some_iff_append.1 ht
      refine ⟨before, t, after, rfl, ?_, ?_, (Except.error.inj herror).symm⟩
      · intro u hu
        exact Registry.isDeclared_iff.1 (by simpa using hbefore u hu)
      · rw [← Registry.isDeclared_iff]
        simpa using hkey
    · cases herror
  · rintro ⟨before, t, after, rfl, hbefore, hkey, rfl⟩
    have hfind : (before ++ t :: after).find? (fun t => !s.registry.isDeclared t.key) = some t := by
      refine List.find?_eq_some_iff_append.2 ⟨?_, before, after, rfl, ?_⟩
      · simpa [Registry.isDeclared_eq_false_iff] using hkey
      · intro u hu
        simpa [Registry.isDeclared_iff] using hbefore u hu
    rw [hfind]

/-- **The policies and the check agree.**  Let the known tokens be those whose key is declared.
Ignoring the others is selecting by the known ones.  Rejecting accepts a filter that has no others;
else it reports the first of them, and no row satisfies the filter.  Without others, the policies
keep the same rows, and no other policy rejects a filter.  Rejecting keeps some of the rows that
evaluating keeps, and that some of those that ignoring keeps. -/
theorem policies_agree (s : Selector ρ) (rows : List ρ) (tokens : List Token) :
    let known := tokens.filter fun t => s.registry.Declares t.key
    (s.under .ignore).select rows tokens = (s.under .ignore).select rows known ∧
      ((s.under .reject).check tokens = .ok () ↔ known = tokens) ∧
      (known ≠ tokens →
        (∃ before t after, tokens = before ++ t :: after ∧
          (∀ u ∈ before, s.registry.Declares u.key) ∧ ¬ s.registry.Declares t.key ∧
            (s.under .reject).check tokens = .error (.unknownKey t.key t.span.start)) ∧
          (s.under .reject).select rows tokens = [] ∧
            ∀ row, (s.under .reject).accepts row tokens = false) ∧
      (known = tokens → ∀ p q, (s.under p).select rows tokens = (s.under q).select rows tokens) ∧
      (∀ p, p ≠ .reject → (s.under p).check tokens = .ok ()) ∧
      ((s.under .reject).select rows tokens).Sublist ((s.under .evaluate).select rows tokens) ∧
      ((s.under .evaluate).select rows tokens).Sublist ((s.under .ignore).select rows tokens) := by
  intro known
  have hknown : known = tokens ↔ ∀ t ∈ tokens, s.registry.Declares t.key := by
    simp only [known, List.filter_eq_self, decide_eq_true_eq]
  have hcheck : (s.under .reject).check tokens = .ok () ↔ known = tokens :=
    (check_eq_ok_iff (s := s.under .reject) rfl).trans hknown.symm
  refine ⟨?_, hcheck, ?_, ?_, ?_, ?_, ?_⟩
  · exact select_congr_accepts rows fun row => accepts_ignore_filter s row tokens
  · intro hothers
    cases herror : (s.under .reject).check tokens with
    | ok u => exact absurd (hcheck.1 herror) hothers
    | error error =>
      obtain ⟨before, t, after, htokens, hbefore, hkey, rfl⟩ :=
        (check_eq_error_iff (s := s.under .reject) rfl).1 herror
      have hrefused := not_accepts_of_mem (s := s)
        (htokens ▸ List.mem_append_right _ (List.mem_cons_self ..)) hkey
      refine ⟨⟨before, t, after, htokens, hbefore, hkey, rfl⟩, ?_, hrefused⟩
      rw [select_eq_filter, List.filter_eq_nil_iff]
      intro row _
      rw [hrefused row]
      decide
  · intro hall p q
    refine select_congr_accepts rows fun row => ?_
    rw [Bool.eq_iff_iff, accepts_iff, accepts_iff]
    refine forall₂_congr fun t ht => ?_
    rw [accepts_under_of_declares (hknown.1 hall t ht) p q]
  · intro p hp
    exact check_eq_ok_of_ne hp
  · exact select_sublist_of_accepts rows fun row => accepts_evaluate_of_reject
  · exact select_sublist_of_accepts rows fun row => accepts_ignore_of_evaluate

/-- A field that is not declared, between two that are, and a row without one of the declared. -/
theorem policies_agree_undeclared_field :
    let both := [("score", "90"), ("id", "4"), ("owner", "Ann")]
    let other := [("score", "70"), ("id", "5"), ("owner", "Anna")]
    let rows := [both, other, [("score", "80"), ("id", "4")]]
    let score : Token := ⟨"SCORE", .greater, "50", ⟨0, 8⟩⟩
    let id : Token := ⟨"id", .contains, "4", ⟨9, 13⟩⟩
    let owner : Token := ⟨"owner", .contains, "ann", ⟨14, 23⟩⟩
    let s : Selector (List (String × String)) :=
      ⟨.dashboard, fun row name => row.lookup name, .empty, .evaluate⟩
    (s.under .ignore).select rows [score, id, owner] = [both, other] ∧
      (s.under .evaluate).select rows [score, id, owner] = [both] ∧
      (s.under .reject).select rows [score, id, owner] = [] ∧
      (s.under .reject).check [score, id, owner] = .error (.unknownKey "id" 9) ∧
      (s.under .ignore).check [score, id, owner] = .ok () ∧
      (s.under .reject).select rows [score] = (s.under .ignore).select rows [score] := by
  intro both other rows score id owner s
  obtain ⟨hignored, -, hrefused, -, hok, -⟩ := policies_agree s rows [score, id, owner]
  obtain ⟨-, -, -, hsame, -⟩ := policies_agree s rows [score]
  have hothers : [score, id, owner].filter (fun t => s.registry.Declares t.key) ≠
      [score, id, owner] := by decide +kernel
  obtain ⟨-, hnone, -⟩ := hrefused hothers
  refine ⟨?_, by decide +kernel, hnone, ?_, hok .ignore (by decide), ?_⟩
  · rw [hignored]
    decide +kernel
  · exact (check_eq_error_iff rfl).2
      ⟨[score], id, [owner], rfl, by decide +kernel, by decide +kernel, rfl⟩
  · exact hsame (by decide +kernel) .reject .ignore

end RowQuery.Rows.Selector
