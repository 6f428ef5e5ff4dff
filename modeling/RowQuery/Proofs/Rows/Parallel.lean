import RowQuery.Proofs.Rows.Selector

/-!
# Selecting rows piece by piece

Many rows are cut into consecutive pieces, and each piece is filtered by itself.  Filtering keeps
the rows in their order, so the pieces of the result stand where they belong, wherever the cuts are.

* `Cut`: consecutive pieces of some rows.
* `flatten_pieces`: the pieces of one size are such a cut.
* `selectPieces_eq_select`: cutting rows makes no difference to what is selected.
* `selectParallel_anyhow`: the selection in parallel is the plain one, however rows are cut.
-/

namespace RowQuery.Rows

open Query (Token)

variable {ρ : Type} {rows : List ρ}

/-- Consecutive pieces of some rows, of any sizes. -/
structure Cut (rows : List ρ) where
  pieces : List (List ρ)
  flatten_pieces : pieces.flatten = rows

namespace Selector

/-- Every row is in one piece, in its order. -/
theorem flatten_pieces (size : Nat) (rows : List ρ) : (pieces size rows).flatten = rows := by
  induction rows using pieces.induct size with
  | case1 rows hfew =>
    rw [pieces, if_pos hfew, List.flatten_cons, List.flatten_nil, List.append_nil]
  | case2 rows hmany ih =>
    rw [pieces, if_neg hmany, List.flatten_cons, ih, List.take_append_drop]

/-- The pieces of `size` rows and a last one with the rest. -/
def sizedCut (size : Nat) (rows : List ρ) : Cut rows :=
  ⟨pieces size rows, flatten_pieces size rows⟩

/-- The pieces of the selected rows are selected from the pieces of the rows. -/
theorem selectPieces_eq_flatMap (s : Selector ρ) (parts : List (List ρ)) (tokens : List Token) :
    s.selectPieces parts tokens = parts.flatMap fun part => s.select part tokens := by
  unfold selectPieces select
  cases s.plan? tokens with
  | none => simp
  | some conditions => simp [List.flatMap_map, Task.spawn]

theorem selectPieces_eq_select (s : Selector ρ) (parts : List (List ρ)) (tokens : List Token) :
    s.selectPieces parts tokens = s.select parts.flatten tokens := by
  rw [selectPieces_eq_flatMap]
  induction parts with
  | nil => rw [List.flatMap_nil, List.flatten_nil, select_eq_filter, List.filter_nil]
  | cons part r ih => rw [List.flatMap_cons, ih, List.flatten_cons, select_append_rows]

/-- The selection of rows in parallel if many rows are cut as `cut` says. -/
def selectCut (s : Selector ρ) (cut : Cut rows) (tokens : List Token) : List ρ :=
  if rows.length < parallelThreshold then s.select rows tokens
  else s.selectPieces cut.pieces tokens

theorem selectCut_eq_select (s : Selector ρ) (cut : Cut rows) (tokens : List Token) :
    s.selectCut cut tokens = s.select rows tokens := by
  rw [selectCut]
  split
  · rfl
  · rw [selectPieces_eq_select, cut.flatten_pieces]

theorem selectParallel_eq_selectCut (s : Selector ρ) (rows : List ρ) (tokens : List Token) :
    s.selectParallel rows tokens = s.selectCut (sizedCut (parallelThreshold / 2) rows) tokens := rfl

/-- **Selecting in parallel is selecting.**  However many rows there are and wherever they are cut,
the same rows are selected in the same order; so they are with the pieces that are made. -/
theorem selectParallel_anyhow (s : Selector ρ) (rows : List ρ) (tokens : List Token) :
    (∀ cut : Cut rows, s.selectCut cut tokens = s.select rows tokens) ∧
      s.selectParallel rows tokens = s.select rows tokens := by
  refine ⟨fun cut => selectCut_eq_select s cut tokens, ?_⟩
  rw [selectParallel_eq_selectCut]
  exact selectCut_eq_select s _ tokens

end Selector

end RowQuery.Rows
