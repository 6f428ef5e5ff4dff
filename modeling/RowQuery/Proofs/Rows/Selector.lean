import RowQuery.Rows.Selector

/-!
# Selecting rows is conjunction

A filter is planned once for all rows, and the plan of a token does not depend on the tokens beside
it.  So a row satisfies a filter if it satisfies each of its tokens, whatever becomes of unknown
keys: a rejected token makes the plan fail, and a row satisfies no filter that has it.

* `plan?_cons`: the plan of a filter, token by token.
* `accepts_iff`: a row satisfies a filter if it satisfies each token by itself.
* `select_eq_filter`: the rows of a selection are those that satisfy the filter.
* `select_conjunction`: what follows for selections.
-/

namespace RowQuery.Rows.Selector

open Query (Token)

variable {ρ : Type}

/-! ## One token after the other -/

/-- A token asks for the same whatever tokens follow it; one that is rejected leaves no plan. -/
theorem plan?_cons (s : Selector ρ) (t : Token) (r : List Token) :
    s.plan? (t :: r) = (s.plan? [t]).bind fun now => (s.plan? r).map (now ++ ·) := by
  simp only [plan?]
  cases s.registry.entry? t.key with
  | some e => simp
  | none => cases s.unknownKeys <;> simp

theorem accepts_nil (s : Selector ρ) (row : ρ) : s.accepts row [] = true := rfl

theorem accepts_cons (s : Selector ρ) (row : ρ) (t : Token) (r : List Token) :
    s.accepts row (t :: r) = (s.accepts row [t] && s.accepts row r) := by
  unfold accepts
  rw [plan?_cons]
  cases s.plan? [t] with
  | none => rfl
  | some now =>
    cases s.plan? r with
    | none => simp
    | some later => simp [List.all_append]

/-- A row satisfies a filter if it satisfies each token by itself. -/
theorem accepts_iff {s : Selector ρ} {row : ρ} {tokens : List Token} :
    s.accepts row tokens = true ↔ ∀ t ∈ tokens, s.accepts row [t] = true := by
  induction tokens with
  | nil => simp [accepts_nil]
  | cons t r ih => rw [accepts_cons, Bool.and_eq_true, ih, List.forall_mem_cons]

theorem accepts_append (s : Selector ρ) (row : ρ) (a b : List Token) :
    s.accepts row (a ++ b) = (s.accepts row a && s.accepts row b) := by
  rw [Bool.eq_iff_iff, Bool.and_eq_true, accepts_iff, accepts_iff, accepts_iff,
    List.forall_mem_append]

/-- More tokens ask for more. -/
theorem accepts_of_subset {s : Selector ρ} {row : ρ} {a b : List Token} (h : a ⊆ b)
    (hb : s.accepts row b = true) : s.accepts row a = true := by
  rw [accepts_iff] at hb ⊢
  intro t ht
  exact hb t (h ht)

/-! ## Selections -/

theorem select_eq_filter (s : Selector ρ) (rows : List ρ) (tokens : List Token) :
    s.select rows tokens = rows.filter fun row => s.accepts row tokens := by
  unfold select accepts
  cases s.plan? tokens with
  | none => simp
  | some conditions => rfl

theorem select_append_tokens (s : Selector ρ) (rows : List ρ) (a b : List Token) :
    s.select rows (a ++ b) = s.select (s.select rows a) b := by
  rw [select_eq_filter, select_eq_filter, select_eq_filter, List.filter_filter]
  congr 1
  funext row
  rw [accepts_append, Bool.and_comm]

theorem select_append_rows (s : Selector ρ) (rows others : List ρ) (tokens : List Token) :
    s.select (rows ++ others) tokens = s.select rows tokens ++ s.select others tokens := by
  rw [select_eq_filter, select_eq_filter, select_eq_filter, List.filter_append]

/-- Neither the order of the tokens nor how often one stands there matters. -/
theorem select_congr (s : Selector ρ) (rows : List ρ) {a b : List Token} (hab : a ⊆ b)
    (hba : b ⊆ a) : s.select rows a = s.select rows b := by
  rw [select_eq_filter, select_eq_filter]
  congr 1
  funext row
  rw [Bool.eq_iff_iff]
  exact ⟨accepts_of_subset hba, accepts_of_subset hab⟩

theorem select_sublist (s : Selector ρ) (rows : List ρ) (tokens : List Token) :
    (s.select rows tokens).Sublist rows := by
  rw [select_eq_filter]
  exact List.filter_sublist

theorem select_sublist_of_subset (s : Selector ρ) (rows : List ρ) {a b : List Token} (h : a ⊆ b) :
    (s.select rows b).Sublist (s.select rows a) := by
  -- the tokens of `a` may be asked for first
  have hboth : s.select rows b = s.select rows (a ++ b) :=
    select_congr s rows (List.subset_append_right a b)
      (List.append_subset.2 ⟨h, List.Subset.refl b⟩)
  rw [hboth, select_append_tokens]
  exact select_sublist s (s.select rows a) b

/-- **Selecting rows is conjunction.**  One filter after the other is both together, rows are
selected one by one, and what is selected are the rows that satisfy the filter, each in its place.
So a filter that has been applied changes nothing, more tokens never let more rows through, and
neither the order of the tokens nor repeated ones matter. -/
theorem select_conjunction (s : Selector ρ) :
    (∀ rows a b, s.select rows (a ++ b) = s.select (s.select rows a) b) ∧
      (∀ rows others tokens,
        s.select (rows ++ others) tokens = s.select rows tokens ++ s.select others tokens) ∧
      (∀ rows tokens, s.select rows tokens = rows.filter fun row => s.accepts row tokens) ∧
      (∀ rows tokens, s.select (s.select rows tokens) tokens = s.select rows tokens) ∧
      (∀ rows a b, a ⊆ b → (s.select rows b).Sublist (s.select rows a)) ∧
      (∀ rows a b, a ⊆ b → b ⊆ a → s.select rows a = s.select rows b) := by
  refine ⟨select_append_tokens s, select_append_rows s, select_eq_filter s, ?_, ?_, ?_⟩
  · intro rows tokens
    rw [← select_append_tokens]
    exact select_congr s rows (by simp) (by simp)
  · intro rows a b h
    exact select_sublist_of_subset s rows h
  · intro rows a b hab hba
    exact select_congr s rows hab hba

/-- Under each policy: two equal rows, a missing field, and a token whose key is not declared. -/
theorem select_conjunction_unknown_key :
    let high := [("score", "90"), ("id", "4")]
    let low := [("score", "10"), ("id", "4")]
    let other := [("id", "4")]
    let rows := [high, low, high, other]
    let score : Token := ⟨"Score", .greater, "50", ⟨0, 8⟩⟩
    let id : Token := ⟨"id", .contains, "5", ⟨9, 13⟩⟩
    let s (policy : UnknownKeys) : Selector (List (String × String)) :=
      ⟨.dashboard, fun row name => row.lookup name, .empty, policy⟩
    [score] ⊆ [id, score, id] ∧ [id, score, id] ⊆ [score, id] ∧
      ((s .ignore).select rows [id, score, id]).Sublist ((s .ignore).select rows [score]) ∧
      (s .ignore).select rows [id, score, id] = (s .ignore).select rows [score, id] ∧
      (s .ignore).select rows [score, id] = [high, high] ∧
      (s .evaluate).select rows [score, id] = [] ∧ (s .reject).select rows [score, id] = [] := by
  intro high low other rows score id s
  have hsub : [score] ⊆ [id, score, id] := by simp
  have hsame : [id, score, id] ⊆ [score, id] := by simp
  have hback : [score, id] ⊆ [id, score, id] := by simp
  obtain ⟨-, -, -, -, hmore, hcongr⟩ := select_conjunction (s .ignore)
  exact ⟨hsub, hsame, hmore rows _ _ hsub, hcongr rows _ _ hsame hback, by decide +kernel,
    by decide +kernel, by decide +kernel⟩

end RowQuery.Rows.Selector
