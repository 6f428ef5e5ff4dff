import RowQuery.Query.Token

/-!
# The comparison at the start of a text

* `strip?_eq_some_iff`: `strip?` takes the longest symbol that the text begins with, and
  `strip?_eq_none_iff`: it fails only if the text begins with none.
* `strip?_append`: it does not see past a character that begins no comparison.
-/

namespace RowQuery.Query.Operator

theorem beginsComparison_of_mem_symbol {op : Operator} (hop : op ≠ .contains) {c : Char}
    (hc : c ∈ op.symbol) : beginsComparison c = true := by
  cases op with
  | contains => exact absurd rfl hop
  | equal | notEqual | greater | less | atLeast | atMost =>
    simp only [symbol, List.mem_cons, List.not_mem_nil, or_false] at hc
    rcases hc with rfl | rfl <;> decide

theorem plain_of_beginsComparison {c : Char} (h : beginsComparison c = true) :
    Text.isBlank c = false ∧ c ≠ '\\' := by
  simp only [beginsComparison, Bool.or_eq_true, beq_iff_eq] at h
  rcases h with ((rfl | rfl) | rfl) | rfl <;> decide

theorem strip?_cons {c : Char} (hc : beginsComparison c = false) (r : List Char) :
    strip? (c :: r) = none := by
  unfold strip?
  split <;> simp_all [beginsComparison]

/-- `>` and `<` are taken alone only where no `=` follows. -/
theorem strip?_eq_some_iff {s r : List Char} {op : Operator} :
    strip? s = some (op, r) ↔
      s = op.symbol ++ r ∧ op ≠ .contains ∧ (op = .greater ∨ op = .less → r.head? ≠ some '=') := by
  constructor
  · intro h
    refine ⟨(symbol_append_of_strip? h).symm, ?_, ?_⟩
    · intro hop
      unfold strip? at h
      split at h <;> simp_all
    · rintro (rfl | rfl) hr
      all_goals
        rw [List.head?_eq_some_iff] at hr
        obtain ⟨t, rfl⟩ := hr
        rw [← symbol_append_of_strip? h] at h
        simp [symbol, strip?] at h
  · rintro ⟨rfl, hop, hr⟩
    cases op with
    | contains => exact absurd rfl hop
    | equal | notEqual | atLeast | atMost => rfl
    | greater | less =>
      cases r with
      | nil => rfl
      | cons c t =>
        have hc : c ≠ '=' := by simpa using hr
        simp [symbol, strip?, hc]

theorem beginsComparison_of_strip? {s r : List Char} {op : Operator} (h : strip? s = some (op, r)) :
    ∀ c ∈ op.symbol, beginsComparison c = true := by
  obtain ⟨-, hop, -⟩ := strip?_eq_some_iff.1 h
  exact fun c hc => beginsComparison_of_mem_symbol hop hc

theorem strip?_eq_none_iff {s : List Char} :
    strip? s = none ↔ ∀ op : Operator, op ≠ .contains → ¬ op.symbol <+: s := by
  constructor
  · rintro h op hop ⟨r, rfl⟩
    by_cases hr : op = .greater ∨ op = .less → r.head? ≠ some '='
    · rw [strip?_eq_some_iff.2 ⟨rfl, hop, hr⟩] at h
      exact absurd h (by simp)
    · rw [Classical.not_imp, ne_eq, Classical.not_not, List.head?_eq_some_iff] at hr
      obtain ⟨rfl | rfl, t, rfl⟩ := hr
      all_goals exact absurd h (by simp [symbol, strip?])
  · intro h
    cases hs : strip? s with
    | none => rfl
    | some p =>
      obtain ⟨rfl, hop, -⟩ := strip?_eq_some_iff.1 hs
      exact absurd (List.prefix_append _ _) (h p.1 hop)

theorem strip?_append {c : Char} (hc : beginsComparison c = false) (s t : List Char) :
    strip? (s ++ c :: t) = (strip? s).map fun p => (p.1, p.2 ++ c :: t) := by
  cases hs : strip? s with
  | some p =>
    obtain ⟨rfl, hop, hr⟩ := strip?_eq_some_iff.1 hs
    refine strip?_eq_some_iff.2 ⟨by rw [List.append_assoc], hop, fun h => ?_⟩
    have hp := hr h
    cases hp2 : p.2 with
    | cons x u => simpa [hp2] using hp
    | nil =>
      intro he
      have heq : c = '=' := by simpa using he
      rw [heq] at hc
      exact absurd hc (by decide)
  | none =>
    refine strip?_eq_none_iff.2 fun op hop hp => ?_
    by_cases hl : op.symbol.length ≤ s.length
    · exact strip?_eq_none_iff.1 hs op hop
        (List.prefix_of_prefix_length_le hp (List.prefix_append _ _) hl)
    · -- the symbol would have `c` in it
      have hsc : s ++ [c] <+: op.symbol := by
        refine List.prefix_of_prefix_length_le ?_ hp (by simp; omega)
        exact ⟨t, by simp⟩
      have hmem : c ∈ op.symbol := hsc.subset (by simp)
      rw [beginsComparison_of_mem_symbol hop hmem] at hc
      exact absurd hc (by decide)

end RowQuery.Query.Operator
