/-!
# Dictionaries

A dictionary keeps its entries in ascending order of their keys, one entry for each key, so two
dictionaries with the same answers are equal.  Keys are ordered by their code points.

* `insertEntry`: a new entry takes its place among sorted ones, or that of the entry with its key.
* `Dictionary.ofList`: of several entries with one key the last stays.
* `Dictionary.get?_insert`: only the inserted key has a new answer.
* `Dictionary.get?_ofList_eq_some_iff`: entries with different keys are all found.
-/

namespace RowQuery

/-! ## Sorted entries -/

/-- Puts an entry among entries in ascending order of their keys. -/
def insertEntry {α : Type} (key : String) (value : α) : List (String × α) → List (String × α)
  | [] => [(key, value)]
  | (k, v) :: r =>
    if key < k then (key, value) :: (k, v) :: r
    else if k < key then (k, v) :: insertEntry key value r
    else (key, value) :: r

theorem mem_insertEntry {α : Type} {key : String} {value : α} {e : String × α}
    {l : List (String × α)} (h : e ∈ insertEntry key value l) : e = (key, value) ∨ e ∈ l := by
  induction l with
  | nil => simpa [insertEntry] using h
  | cons a r ih =>
    obtain ⟨k, v⟩ := a
    rw [insertEntry] at h
    split at h
    · simpa using h
    · split at h
      · rcases List.mem_cons.1 h with rfl | h
        · exact Or.inr (List.mem_cons_self ..)
        · rcases ih h with h | h
          · exact Or.inl h
          · exact Or.inr (List.mem_cons_of_mem _ h)
      · rcases List.mem_cons.1 h with h | h
        · exact Or.inl h
        · exact Or.inr (List.mem_cons_of_mem _ h)

theorem pairwise_insertEntry {α : Type} (key : String) (value : α) {l : List (String × α)}
    (h : l.Pairwise fun a b => a.1 < b.1) :
    (insertEntry key value l).Pairwise fun a b => a.1 < b.1 := by
  induction l with
  | nil => simp [insertEntry]
  | cons a r ih =>
    obtain ⟨k, v⟩ := a
    obtain ⟨hk, hr⟩ := List.pairwise_cons.1 h
    rw [insertEntry]
    split
    · next hlt =>
      refine List.pairwise_cons.2 ⟨fun e he => ?_, h⟩
      rcases List.mem_cons.1 he with rfl | he
      · exact hlt
      · exact String.lt_trans hlt (hk e he)
    · next hge =>
      split
      · next hlt =>
        refine List.pairwise_cons.2 ⟨fun e he => ?_, ih hr⟩
        rcases mem_insertEntry he with rfl | he
        · exact hlt
        · exact hk e he
      · next hle =>
        obtain rfl : key = k := String.le_antisymm (String.not_lt.1 hle) (String.not_lt.1 hge)
        exact List.pairwise_cons.2 ⟨fun e he => hk e he, hr⟩

/-! ## Dictionaries -/

/-- Values under keys, sorted by key. -/
structure Dictionary (α : Type) where
  entries : List (String × α)
  sorted : entries.Pairwise fun a b => a.1 < b.1

namespace Dictionary

variable {α : Type}

/-- The dictionary without entries. -/
def empty : Dictionary α := ⟨[], .nil⟩

instance : EmptyCollection (Dictionary α) := ⟨empty⟩

/-- The value under a key. -/
def get? (d : Dictionary α) (key : String) : Option α :=
  (d.entries.find? (·.1 = key)).map (·.2)

/-- The dictionary with `value` under `key`. -/
def insert (d : Dictionary α) (key : String) (value : α) : Dictionary α :=
  ⟨insertEntry key value d.entries, pairwise_insertEntry key value d.sorted⟩

/-- The dictionary of some entries, of which the last with each key counts. -/
def ofList (l : List (String × α)) : Dictionary α :=
  l.foldl (fun d e => d.insert e.1 e.2) empty

/-- Whether there is no entry. -/
def isEmpty (d : Dictionary α) : Bool :=
  d.entries.isEmpty

@[ext] theorem ext {d e : Dictionary α} (h : d.entries = e.entries) : d = e := by
  cases d
  cases e
  cases h
  rfl

@[simp] theorem get?_empty (key : String) : (empty : Dictionary α).get? key = none := rfl

theorem find?_insertEntry (key k : String) (value : α) (l : List (String × α)) :
    (insertEntry key value l).find? (·.1 = k) =
      if key = k then some (key, value) else l.find? (·.1 = k) := by
  induction l with
  | nil => by_cases h : key = k <;> simp [insertEntry, h]
  | cons a r ih =>
    obtain ⟨j, v⟩ := a
    rw [insertEntry]
    split
    · by_cases h : key = k <;> simp [h, List.find?_cons]
    · next hge =>
      split
      · next hlt =>
        by_cases hj : j = k
        · have : key ≠ k := by
            rintro rfl
            exact String.lt_irrefl _ (hj ▸ hlt)
          simp [hj, this]
        · simp [hj, ih]
      · next hle =>
        obtain rfl : key = j := String.le_antisymm (String.not_lt.1 hle) (String.not_lt.1 hge)
        by_cases h : key = k <;> simp [h]

theorem get?_insert (d : Dictionary α) (key k : String) (value : α) :
    (d.insert key value).get? k = if key = k then some value else d.get? k := by
  simp only [get?, insert, find?_insertEntry]
  split <;> rfl

/-- Entries whose keys are all different keep their values. -/
theorem get?_foldl_insert {l : List (String × α)} (h : (l.map (·.1)).Nodup) (d : Dictionary α)
    {key : String} {value : α} :
    (l.foldl (fun d e => d.insert e.1 e.2) d).get? key = some value ↔
      (key, value) ∈ l ∨ key ∉ l.map (·.1) ∧ d.get? key = some value := by
  induction l generalizing d with
  | nil => simp
  | cons e r ih =>
    obtain ⟨k, v⟩ := e
    obtain ⟨hk, hr⟩ := List.nodup_cons.1 h
    rw [List.foldl_cons, ih hr, get?_insert]
    by_cases hkey : k = key
    · subst hkey
      have hno : ∀ w, (k, w) ∉ r := fun w hw => hk (List.mem_map.2 ⟨(k, w), hw, rfl⟩)
      simp [hno, hk, eq_comm]
    · simp [hkey, Ne.symm hkey]

theorem get?_ofList_eq_some_iff {l : List (String × α)} (h : (l.map (·.1)).Nodup) {key : String}
    {value : α} : (ofList l).get? key = some value ↔ (key, value) ∈ l := by
  rw [ofList, get?_foldl_insert h]
  simp

end Dictionary

end RowQuery
