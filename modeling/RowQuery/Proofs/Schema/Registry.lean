import RowQuery.Proofs.Text.LetterCase
import RowQuery.Schema.Registry

/-!
# Looking up keys

No two keys of a registry have the same lowercase form, and a lowercase form is its own.  So the
index has each entry under one key, and a key finds the declaration with its lowercase form whatever
the case in which it is typed.

* `position?_eq`: looking a key up as it is typed, before it is folded, makes no difference.
* `Declares`: a key is declared in some case.
* `isDeclared_iff`, `entry?_eq_some_iff`, `entry?_eq_none_iff`: what the lookups answer.
* `nodup_keys`: no key is listed twice.
* `key_ne_nil`, `isKeyChar_of_mem_key`, `allowedValues_ne_nil`: what is checked of a declaration.
-/

namespace RowQuery.Registry

variable {r : Registry} {e : Entry}

/-! ## The index -/

theorem nodup_folds (r : Registry) : (r.entries.map fun e => Text.fold e.1).Nodup := by
  refine List.pairwise_map.2 (r.ascending.imp ?_)
  intro a b hlt
  exact String.ne_of_lt hlt

theorem get?_index_eq_some_iff {key : String} {i : Nat} :
    r.index.get? key = some i ↔ ∃ e, r.entries[i]? = some e ∧ Text.fold e.1 = key := by
  have hkeys : (r.entries.zipIdx.map fun e => (Text.fold e.1.1, e.2)).map (·.1) =
      r.entries.map fun e => Text.fold e.1 := by
    calc (r.entries.zipIdx.map fun e => (Text.fold e.1.1, e.2)).map (·.1)
        = (r.entries.zipIdx.map (·.1)).map fun e => Text.fold e.1 := by
          rw [List.map_map, List.map_map]
          rfl
      _ = r.entries.map fun e => Text.fold e.1 := by rw [List.zipIdx_map_fst]
  rw [index, Dictionary.get?_ofList_eq_some_iff (hkeys ▸ nodup_folds r), List.mem_map]
  constructor
  · rintro ⟨⟨e, j⟩, hmem, heq⟩
    obtain ⟨rfl, rfl⟩ := Prod.mk.inj heq
    exact ⟨e, List.mem_zipIdx_iff_getElem?.1 hmem, rfl⟩
  · rintro ⟨e, he, rfl⟩
    exact ⟨(e, i), List.mem_zipIdx_iff_getElem?.2 he, rfl⟩

/-- A key of the index is its own lowercase form, so what is found as it is typed is also found
after folding. -/
theorem position?_eq (r : Registry) (key : String) :
    r.position? key = r.index.get? (Text.fold key) := by
  unfold position?
  split
  · next i hi =>
    obtain ⟨e, -, rfl⟩ := get?_index_eq_some_iff.1 hi
    rw [Text.fold_fold, hi]
  · rfl

theorem position?_eq_some_iff {key : String} {i : Nat} :
    r.position? key = some i ↔ ∃ e, r.entries[i]? = some e ∧ Text.fold e.1 = Text.fold key := by
  rw [position?_eq, get?_index_eq_some_iff]

/-- Only the lowercase form of a key matters. -/
theorem position?_congr (r : Registry) {a b : String} (h : Text.fold a = Text.fold b) :
    r.position? a = r.position? b := by
  rw [position?_eq, position?_eq, h]

/-! ## Declared keys -/

/-- A key that is declared, in whatever case. -/
def Declares (r : Registry) (key : String) : Prop :=
  ∃ e ∈ r.entries, Text.fold e.1 = Text.fold key

instance (r : Registry) (key : String) : Decidable (r.Declares key) :=
  inferInstanceAs (Decidable (∃ e ∈ r.entries, Text.fold e.1 = Text.fold key))

theorem isDeclared_iff {key : String} : r.isDeclared key = true ↔ r.Declares key := by
  rw [isDeclared, Option.isSome_iff_exists]
  constructor
  · rintro ⟨i, hi⟩
    obtain ⟨e, he, hfold⟩ := position?_eq_some_iff.1 hi
    exact ⟨e, List.mem_of_getElem? he, hfold⟩
  · rintro ⟨e, he, hfold⟩
    obtain ⟨i, hi⟩ := List.mem_iff_getElem?.1 he
    exact ⟨i, position?_eq_some_iff.2 ⟨e, hi, hfold⟩⟩

theorem isDeclared_eq_false_iff {key : String} : r.isDeclared key = false ↔ ¬ r.Declares key := by
  rw [← isDeclared_iff, Bool.not_eq_true]

theorem entry?_eq_some_iff {key : String} :
    r.entry? key = some e ↔ e ∈ r.entries ∧ Text.fold e.1 = Text.fold key := by
  unfold entry?
  rw [Option.bind_eq_some_iff]
  constructor
  · rintro ⟨i, hi, he⟩
    obtain ⟨d, hd, hfold⟩ := position?_eq_some_iff.1 hi
    obtain rfl : d = e := Option.some.inj (hd.symm.trans he)
    exact ⟨List.mem_of_getElem? hd, hfold⟩
  · rintro ⟨he, hfold⟩
    obtain ⟨i, hi⟩ := List.mem_iff_getElem?.1 he
    exact ⟨i, position?_eq_some_iff.2 ⟨e, hi, hfold⟩, hi⟩

theorem entry?_eq_none_iff {key : String} : r.entry? key = none ↔ ¬ r.Declares key := by
  rw [Option.eq_none_iff_forall_ne_some]
  constructor
  · rintro h ⟨e, he, hfold⟩
    exact h e (entry?_eq_some_iff.2 ⟨he, hfold⟩)
  · intro h e he
    exact h ⟨e, entry?_eq_some_iff.1 he⟩

theorem entry?_congr (r : Registry) {a b : String} (h : Text.fold a = Text.fold b) :
    r.entry? a = r.entry? b := by
  unfold entry?
  rw [position?_congr r h]

theorem isDeclared_congr (r : Registry) {a b : String} (h : Text.fold a = Text.fold b) :
    r.isDeclared a = r.isDeclared b := by
  rw [isDeclared, isDeclared, position?_congr r h]

theorem entry?_of_mem (h : e ∈ r.entries) : r.entry? e.1 = some e :=
  entry?_eq_some_iff.2 ⟨h, rfl⟩

theorem command?_of_mem (h : e ∈ r.entries) : r.command? e.1 = some e.2 := by
  rw [command?, entry?_of_mem h]
  rfl

theorem nodup_keys (r : Registry) : r.keys.Nodup := by
  unfold keys
  refine List.pairwise_map.2 (r.ascending.imp ?_)
  intro a b hlt hab
  rw [hab] at hlt
  exact String.lt_irrefl _ hlt

/-! ## What is checked of a declaration -/

theorem fault?_eq_none_iff : fault? e = none ↔
    e.1.toList ≠ [] ∧ (∀ c ∈ e.1.toList, Query.isKeyChar c = true) ∧
      ¬ (e.2.kind = .enumeration ∧ e.2.allowedValues = []) := by
  unfold fault?
  by_cases hkey : e.1.toList = []
  · simp [hkey]
  · by_cases hchars : ∀ c ∈ e.1.toList, Query.isKeyChar c = true
    · have hall : e.1.toList.all Query.isKeyChar = true := List.all_eq_true.2 hchars
      rw [if_neg (by simpa using hkey), hall, if_neg (by decide), ite_eq_right_iff]
      constructor
      · intro h
        exact ⟨hkey, hchars, fun hv => absurd (h hv) (by simp)⟩
      · rintro ⟨-, -, h⟩ hv
        exact absurd hv h
    · have hall : e.1.toList.all Query.isKeyChar = false := by
        rw [Bool.eq_false_iff, Ne, List.all_eq_true]
        exact hchars
      rw [if_neg (by simpa using hkey), hall]
      simp [hchars]

theorem key_ne_nil (h : e ∈ r.entries) : e.1.toList ≠ [] :=
  (fault?_eq_none_iff.1 (r.faultless e h)).1

theorem isKeyChar_of_mem_key (h : e ∈ r.entries) : ∀ c ∈ e.1.toList, Query.isKeyChar c = true :=
  (fault?_eq_none_iff.1 (r.faultless e h)).2.1

theorem allowedValues_ne_nil (h : e ∈ r.entries) (hk : e.2.kind = .enumeration) :
    e.2.allowedValues ≠ [] :=
  fun hv => (fault?_eq_none_iff.1 (r.faultless e h)).2.2 ⟨hk, hv⟩

end RowQuery.Registry
