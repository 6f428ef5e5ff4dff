import Mathlib.Data.List.Forall2
import RowQuery.Proofs.Rows.UnknownKeys
import RowQuery.Schema.Diagnostic

/-!
# The case in which a key is typed

Two filters that differ only in the case of declared keys are one filter: the selection, the check
and the findings are the same.  All of them look a key up first, and only if it is not declared do
they use it as it was typed; then it is typed in the same way in both filters.

* `SameButCase`: tokens that differ at most in the case of a declared key.
* `plan?_congr`, `check_congr`, `diagnose_congr`: two such filters side by side.
* `case_irrelevant`: what cannot be told apart.
-/

namespace RowQuery.Rows

open Query (Token)

/-! ## Tokens -/

/-- Tokens that differ at most in the case of a declared key. -/
structure SameButCase (r : Registry) (t u : Token) : Prop where
  key : t.key = u.key ∨ Text.fold t.key = Text.fold u.key ∧ r.Declares t.key
  operator : t.operator = u.operator
  value : t.value = u.value
  span : t.span = u.span

namespace SameButCase

variable {r : Registry} {t u : Token}

theorem entry_eq (h : SameButCase r t u) : r.entry? t.key = r.entry? u.key := by
  rcases h.key with hkey | ⟨hfold, -⟩
  · rw [hkey]
  · exact Registry.entry?_congr r hfold

theorem isDeclared_eq (h : SameButCase r t u) :
    r.isDeclared t.key = r.isDeclared u.key := by
  rcases h.key with hkey | ⟨hfold, -⟩
  · rw [hkey]
  · exact Registry.isDeclared_congr r hfold

/-- An unknown key is the same. -/
theorem key_eq (h : SameButCase r t u) (hno : ¬ r.Declares t.key) : t.key = u.key :=
  h.key.resolve_right fun hkey => hno hkey.2

theorem problem?_eq (h : SameButCase r t u) (c : Command) : problem? c t = problem? c u := by
  unfold problem?
  rw [h.operator, h.value]

/-- What is found, and where. -/
theorem finding_eq (h : SameButCase r t u) :
    (diagnoseToken? r t).map (fun d => (d.span, d.problem)) =
      (diagnoseToken? r u).map fun d => (d.span, d.problem) := by
  simp only [diagnoseToken?, Registry.command?, ← h.entry_eq]
  cases hentry : r.entry? t.key with
  | some e =>
    simp only [Option.map_some, Option.map_map, h.problem?_eq, h.span]
    rfl
  | none => simp [h.key_eq (Registry.entry?_eq_none_iff.1 hentry), h.span]

end SameButCase

/-! ## Filters -/

variable {ρ : Type} {s : Selector ρ} {r : Registry} {a b : List Token}

theorem Selector.plan?_congr (h : List.Forall₂ (SameButCase s.registry) a b) :
    s.plan? a = s.plan? b := by
  induction h with
  | nil => rfl
  | @cons t u a b htu _ ih =>
    simp only [Selector.plan?, ← htu.entry_eq, ← htu.operator, ← htu.value, ih]
    cases hentry : s.registry.entry? t.key with
    | some e => rfl
    | none => rw [htu.key_eq (Registry.entry?_eq_none_iff.1 hentry)]

theorem Selector.check_congr (h : List.Forall₂ (SameButCase s.registry) a b) :
    s.check a = s.check b := by
  unfold Selector.check
  split
  · induction h with
    | nil => rfl
    | @cons t u a b htu _ ih =>
      rw [List.find?_cons, List.find?_cons, ← htu.isDeclared_eq]
      cases hkey : s.registry.isDeclared t.key with
      | true => exact ih
      | false =>
        have hsame := htu.key_eq (Registry.isDeclared_eq_false_iff.1 hkey)
        simp only [Bool.not_false, hsame, htu.span]
  · rfl

theorem diagnose_congr (h : List.Forall₂ (SameButCase r) a b) :
    (diagnose r a).map (fun d => (d.span, d.problem)) =
      (diagnose r b).map fun d => (d.span, d.problem) := by
  rw [diagnose, diagnose, List.map_filterMap, List.map_filterMap]
  induction h with
  | nil => rfl
  | cons htu _ ih => rw [List.filterMap_cons, List.filterMap_cons, htu.finding_eq, ih]

/-- **The case of a declared key does not matter.**  Filters that differ in nothing else select the
same rows, hold of the same rows, are accepted or rejected alike and at the same position, and have
the same findings at the same places; and of a row, a token reads the field that the key stands for
as it was declared. -/
theorem case_irrelevant (s : Selector ρ) :
    (∀ a b, List.Forall₂ (SameButCase s.registry) a b →
      (∀ rows, s.select rows a = s.select rows b) ∧
        (∀ row, s.accepts row a = s.accepts row b) ∧ s.check a = s.check b ∧
        (diagnose s.registry a).map (fun d => (d.span, d.problem)) =
          (diagnose s.registry b).map fun d => (d.span, d.problem)) ∧
    ∀ e ∈ s.registry.entries, ∀ t : Token, Text.fold t.key = Text.fold e.1 →
      ∀ row, s.accepts row [t] = (s.accessor row (s.fieldMap.resolve e.1)).any fun actual =>
        holds (some e.2.kind) t.operator actual t.value := by
  constructor
  · intro a b h
    have hplan := Selector.plan?_congr h
    refine ⟨?_, ?_, Selector.check_congr h, diagnose_congr h⟩
    · intro rows
      rw [Selector.select, hplan, ← Selector.select]
    · intro row
      rw [Selector.accepts, hplan, ← Selector.accepts]
  · intro e he t hfold row
    exact Selector.accepts_of_entry (Registry.entry?_eq_some_iff.2 ⟨he, hfold.symm⟩)

/-- Keys of two filters that differ in case only, and one that is not declared and must not. -/
theorem case_irrelevant_undeclared_key :
    let r : Registry := ⟨[("Größe", .ofKind .number ""), ("Ort", .ofKind .text "")],
      by decide +kernel, by decide +kernel⟩
    let rows := [[("Größe", "12"), ("id", "3")], [("Größe", "8"), ("id", "3")]]
    let s : Selector (List (String × String)) :=
      ⟨r, fun row name => row.lookup name, .empty, .evaluate⟩
    let size (key : String) : Token := ⟨key, .greater, "10", ⟨0, 9⟩⟩
    let id : Token := ⟨"id", .contains, "3", ⟨10, 14⟩⟩
    s.select rows [size "größe", id] = s.select rows [size "GRÖßE", id] ∧
      s.select rows [size "GRÖßE", id] = [[("Größe", "12"), ("id", "3")]] ∧
      s.accepts [("Größe", "12")] [size "größe"] = true := by
  intro r rows s size id
  obtain ⟨hsame, hreads⟩ := case_irrelevant s
  have hcase : List.Forall₂ (SameButCase s.registry) [size "größe", id] [size "GRÖßE", id] :=
    .cons ⟨Or.inr (by decide +kernel), rfl, rfl, rfl⟩
      (.cons ⟨Or.inl rfl, rfl, rfl, rfl⟩ .nil)
  refine ⟨(hsame _ _ hcase).1 rows, by decide +kernel, ?_⟩
  rw [hreads ("Größe", .ofKind .number "") (by decide +kernel) (size "größe") (by decide +kernel)]
  decide +kernel

end RowQuery.Rows
