import RowQuery.Text.LetterCase

/-!
# Texts that are cut behind a sigma

The lowercase form of one letter depends on what stands around it: `Σ` becomes `ς` where it ends a
word and `σ` elsewhere.  If a text is cut within a word, behind a `Σ`, this letter ends a word of the
beginning and none of the whole.  If it is cut anywhere else, the lowercase form of the text begins
with that of its beginning.

* `endsWord_append_iff`: whether a letter ends a word also where the text goes on.
* `EndsInSigma`, `CutAtSigma`: a text that ends in such a `Σ`, and one that is cut there.
* `lowercase_prefix_iff`: when a lowercase form begins with that of a beginning.
-/

namespace RowQuery.Text

/-! ## What stands behind a letter -/

/-- A character that does not count where letters are looked for. -/
def isCaseIgnorable (c : Char) : Bool :=
  inRanges caseIgnorableRanges c.toNat

theorem facesLetter_cons (c : Char) (s : List Char) :
    facesLetter (c :: s) =
      if isCaseIgnorable c then facesLetter s else inRanges casedRanges c.toNat := by
  unfold facesLetter isCaseIgnorable
  rw [List.dropWhile_cons]
  by_cases hc : inRanges caseIgnorableRanges c.toNat = true
  · rw [if_pos hc, if_pos hc]
  · rw [if_neg hc, if_neg hc]

/-- The first character that counts decides. -/
theorem facesLetter_append (s t : List Char) :
    facesLetter (s ++ t) = if s.all isCaseIgnorable then facesLetter t else facesLetter s := by
  induction s with
  | nil => rfl
  | cons c r ih =>
    rw [List.cons_append, facesLetter_cons, facesLetter_cons, List.all_cons, ih]
    cases isCaseIgnorable c with
    | true => simp only [if_true, Bool.true_and]
    | false => simp only [Bool.false_eq_true, if_false, Bool.false_and]

theorem facesLetter_of_ignorable {s : List Char} (h : s.all isCaseIgnorable = true) :
    facesLetter s = false := by
  have hnil := facesLetter_append s []
  rwa [List.append_nil, if_pos h] at hnil

/-- A letter that ends a word does so also where the text goes on, unless nothing has counted behind
it until now and a letter follows. -/
theorem endsWord_append_iff {before r t : List Char} :
    endsWord before r = endsWord before (r ++ t) ↔
      ¬ (facesLetter before = true ∧ r.all isCaseIgnorable = true ∧ facesLetter t = true) := by
  rw [endsWord, endsWord, facesLetter_append]
  cases hr : r.all isCaseIgnorable with
  | true =>
    rw [facesLetter_of_ignorable hr]
    cases facesLetter before <;> cases facesLetter t <;> decide
  | false => exact iff_of_true rfl fun h => absurd h.2.1 (by decide)

/-! ## Where a text is cut -/

/-- The last character that counts is a `Σ` behind a letter; `before` is what precedes the text, the
nearest character first. -/
def EndsInSigma (before s : List Char) : Prop :=
  ∃ a b, s = a ++ 'Σ' :: b ∧ facesLetter (a.reverse ++ before) = true ∧
    b.all isCaseIgnorable = true

theorem not_endsInSigma_nil (before : List Char) : ¬ EndsInSigma before [] := by
  rintro ⟨a, b, hab, -⟩
  exact absurd hab.symm (by simp)

theorem endsInSigma_cons {before r : List Char} {c : Char} :
    EndsInSigma before (c :: r) ↔
      (c = 'Σ' ∧ facesLetter before = true ∧ r.all isCaseIgnorable = true) ∨
        EndsInSigma (c :: before) r := by
  constructor
  · rintro ⟨a, b, hab, hbefore, hb⟩
    cases a with
    | nil =>
      obtain ⟨rfl, rfl⟩ := List.cons.inj hab
      exact Or.inl ⟨rfl, hbefore, hb⟩
    | cons d a =>
      obtain ⟨rfl, rfl⟩ := List.cons.inj hab
      refine Or.inr ⟨a, b, rfl, ?_, hb⟩
      simpa using hbefore
  · rintro (⟨rfl, hbefore, hr⟩ | ⟨a, b, rfl, hbefore, hb⟩)
    · exact ⟨[], r, rfl, hbefore, hr⟩
    · refine ⟨c :: a, b, rfl, ?_, hb⟩
      simpa using hbefore

theorem endsInSigma_cons_of_ne {before r : List Char} {c : Char} (hc : c ≠ 'Σ') :
    EndsInSigma before (c :: r) ↔ EndsInSigma (c :: before) r := by
  rw [endsInSigma_cons, or_iff_right fun h => hc h.1]

instance decidableEndsInSigma : (before s : List Char) → Decidable (EndsInSigma before s)
  | before, [] => isFalse (not_endsInSigma_nil before)
  | before, c :: r =>
    have := decidableEndsInSigma (c :: before) r
    decidable_of_iff _ endsInSigma_cons.symm

/-- A text is cut within a word, and its beginning `s` ends in a `Σ`. -/
def CutAtSigma (s t : List Char) : Prop :=
  EndsInSigma [] s ∧ facesLetter t = true

instance (s t : List Char) : Decidable (CutAtSigma s t) :=
  inferInstanceAs (Decidable (_ ∧ _))

/-! ## Lowercase forms of beginnings -/

theorem length_lowercaseAfter_le (before s t : List Char) :
    (lowercaseAfter before s).length ≤ (lowercaseAfter before (s ++ t)).length := by
  induction s generalizing before with
  | nil => exact Nat.zero_le _
  | cons c r ih =>
    rw [List.cons_append, lowercaseAfter, lowercaseAfter]
    split
    · exact Nat.succ_le_succ (ih _)
    · split
      · exact Nat.succ_le_succ (Nat.succ_le_succ (ih _))
      · exact Nat.succ_le_succ (ih _)

theorem lowercaseAfter_prefix_iff {before s t : List Char} :
    lowercaseAfter before s <+: lowercaseAfter before (s ++ t) ↔
      ¬ (EndsInSigma before s ∧ facesLetter t = true) := by
  induction s generalizing before with
  | nil => exact iff_of_true List.nil_prefix fun h => not_endsInSigma_nil before h.1
  | cons c r ih =>
    rw [List.cons_append, lowercaseAfter, lowercaseAfter]
    by_cases hsigma : c = 'Σ'
    · have hhead : ((if endsWord before r = true then 'ς' else 'σ') =
          if endsWord before (r ++ t) = true then 'ς' else 'σ') ↔
            endsWord before r = endsWord before (r ++ t) := by
        cases endsWord before r <;> cases endsWord before (r ++ t) <;> decide
      rw [if_pos hsigma, if_pos hsigma, List.cons_prefix_cons, hhead, endsWord_append_iff, ih,
        endsInSigma_cons, ← not_or, or_and_right]
      simp only [hsigma, true_and, and_assoc]
    · rw [if_neg hsigma, if_neg hsigma, endsInSigma_cons_of_ne hsigma]
      split
      · simp only [List.cons_prefix_cons, true_and, ih]
      · simp only [List.cons_prefix_cons, true_and, ih]

/-- **The lowercase form of a text begins with that of its beginning unless a word is cut behind a
`Σ`.** -/
theorem lowercase_prefix_iff {s t : List Char} :
    lowercase s <+: lowercase (s ++ t) ↔ ¬ CutAtSigma s t :=
  lowercaseAfter_prefix_iff

end RowQuery.Text
