import Mathlib.Data.List.Nodup
import RowQuery.Dictionary

/-!
# Dictionaries are determined by their answers

Keys ascend strictly, so a key has one entry, and the same entries stand in the same places.

* `Dictionary.get?_eq_some_iff`: what is found is an entry.
* `Dictionary.ext_get?`: two dictionaries with the same answers are equal.
* `Dictionary.ofList_entries`: a dictionary is that of its entries.
* `Dictionary.get?_ofList`: of several entries with one key the last is found.
* `Dictionary.entries_ofList_perm`: entries with different keys are all kept.
-/

namespace RowQuery.Dictionary

variable {α : Type} {d e : Dictionary α}

theorem nodup_keys (d : Dictionary α) : (d.entries.map (·.1)).Nodup := by
  refine List.pairwise_map.2 (d.sorted.imp ?_)
  intro a b hlt
  exact String.ne_of_lt hlt

theorem nodup_entries (d : Dictionary α) : d.entries.Nodup :=
  d.nodup_keys.of_map

theorem get?_eq_some_iff {key : String} {value : α} :
    d.get? key = some value ↔ (key, value) ∈ d.entries := by
  constructor
  · intro h
    obtain ⟨⟨k, v⟩, hfound, rfl⟩ := Option.map_eq_some_iff.1 h
    obtain rfl : k = key := by simpa using List.find?_some hfound
    exact List.mem_of_find?_eq_some hfound
  · intro h
    have hsome : (d.entries.find? (·.1 = key)).isSome := List.find?_isSome.2 ⟨_, h, by simp⟩
    obtain ⟨⟨k, v⟩, hfound⟩ := Option.isSome_iff_exists.1 hsome
    obtain rfl : k = key := by simpa using List.find?_some hfound
    have hsame := List.inj_on_of_nodup_map d.nodup_keys (List.mem_of_find?_eq_some hfound) h rfl
    rw [get?, hfound, hsame]
    rfl

/-- Entries that are the same ones stand in the same places. -/
theorem ext_get? (h : ∀ key, d.get? key = e.get? key) : d = e := by
  have hperm : d.entries.Perm e.entries := by
    refine (List.perm_ext_iff_of_nodup d.nodup_entries e.nodup_entries).2 ?_
    rintro ⟨key, value⟩
    rw [← get?_eq_some_iff, ← get?_eq_some_iff, h]
  refine ext (hperm.eq_of_pairwise ?_ d.sorted e.sorted)
  intro a b _ _ hab hba
  exact absurd (String.lt_trans hab hba) (String.lt_irrefl _)

theorem ofList_entries (d : Dictionary α) : ofList d.entries = d := by
  refine ext_get? fun key => Option.ext fun value => ?_
  rw [get?_ofList_eq_some_iff d.nodup_keys, get?_eq_some_iff]

/-! ## Dictionaries of any entries -/

theorem insertEntry_ne_nil (key : String) (value : α) (l : List (String × α)) :
    insertEntry key value l ≠ [] := by
  cases l with
  | nil => simp [insertEntry]
  | cons e r =>
    rw [insertEntry]
    split
    · simp
    · split <;> simp

theorem ofList_append_singleton (l : List (String × α)) (key : String) (value : α) :
    ofList (l ++ [(key, value)]) = (ofList l).insert key value :=
  List.foldl_append

theorem isEmpty_ofList_iff {l : List (String × α)} : (ofList l).isEmpty = true ↔ l = [] := by
  rcases List.eq_nil_or_concat l with rfl | ⟨r, ⟨key, value⟩, rfl⟩
  · exact iff_of_true rfl rfl
  · rw [List.concat_eq_append, ofList_append_singleton, isEmpty, List.isEmpty_iff]
    exact iff_of_false (insertEntry_ne_nil key value _) (by simp)

theorem get?_foldl_insert_eq (l : List (String × α)) (d : Dictionary α) (key : String) :
    (l.foldl (fun d e => d.insert e.1 e.2) d).get? key =
      ((l.reverse.find? (·.1 = key)).map (·.2)).or (d.get? key) := by
  induction l generalizing d with
  | nil => rfl
  | cons e l ih =>
    rw [List.foldl_cons, ih, get?_insert, List.reverse_cons, List.find?_append]
    cases l.reverse.find? (·.1 = key) with
    | some found => rfl
    | none => by_cases h : e.1 = key <;> simp [h]

/-- Of several entries with one key the last is found. -/
theorem get?_ofList (l : List (String × α)) (key : String) :
    (ofList l).get? key = (l.reverse.find? (·.1 = key)).map (·.2) := by
  rw [ofList, get?_foldl_insert_eq, get?_empty, Option.or_none]

/-- Entries with different keys are all kept; only their order is another one. -/
theorem entries_ofList_perm {l : List (String × α)} (h : (l.map (·.1)).Nodup) :
    (ofList l).entries.Perm l := by
  refine (List.perm_ext_iff_of_nodup (nodup_entries _) h.of_map).2 ?_
  rintro ⟨key, value⟩
  rw [← get?_eq_some_iff, get?_ofList_eq_some_iff h]

end RowQuery.Dictionary
