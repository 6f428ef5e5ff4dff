import RowQuery.Proofs.Dictionary
import RowQuery.Proofs.Rows.Selector
import RowQuery.Proofs.Summary.Metrics

/-!
# Rows that are read through a nested object

To look up missing fields in a nested object is to read flat rows: the texts at the top level, and
under the names that have none there those of the nested object.  A selection and a summary see of a
row only what its fields are read as, so they are the same for both.

* `scalarText?_eq_some_iff`, `scalarText?_eq_none_iff`: the texts of values.
* `flatten`: the flat row of an object; `get?_flatten_eq_some_iff` says what is in it.
* `tableField_flatten`: a flat row has the fields that are read through the nested object.
* `Selector.reading`, `Selector.select_reading`: rows that are read in another way.
* `Selector.positions`: where the selected rows stand.
* `flatten_reads_alike`: selections and summaries of flat rows.
-/

namespace RowQuery

/-! ## Dictionaries from others -/

namespace Dictionary

variable {α β : Type}

/-- The values that `f` gives, under their keys. -/
def filterMap (f : α → Option β) (d : Dictionary α) : Dictionary β where
  entries := d.entries.filterMap fun e => (f e.2).map (e.1, ·)
  sorted := by
    refine d.sorted.filterMap _ ?_
    rintro a b hab x hx y hy
    obtain ⟨_, -, rfl⟩ := Option.map_eq_some_iff.1 hx
    obtain ⟨_, -, rfl⟩ := Option.map_eq_some_iff.1 hy
    exact hab

theorem get?_filterMap (f : α → Option β) (d : Dictionary α) (key : String) :
    (d.filterMap f).get? key = (d.get? key).bind f := by
  ext value
  rw [get?_eq_some_iff, filterMap, List.mem_filterMap, Option.bind_eq_some_iff]
  constructor
  · rintro ⟨⟨k, v⟩, hmem, he⟩
    obtain ⟨x, hx, heq⟩ := Option.map_eq_some_iff.1 he
    obtain ⟨rfl, rfl⟩ := Prod.mk.inj heq
    exact ⟨v, get?_eq_some_iff.2 hmem, hx⟩
  · rintro ⟨v, hv, hx⟩
    exact ⟨(key, v), get?_eq_some_iff.1 hv, by rw [hx]; rfl⟩

/-- The entries of `e`, and under other keys those of `d`. -/
def update (d e : Dictionary α) : Dictionary α :=
  e.entries.foldl (fun d x => d.insert x.1 x.2) d

theorem get?_update (d e : Dictionary α) (key : String) :
    (d.update e).get? key = (e.get? key).or (d.get? key) := by
  have he : e.get? key = (e.entries.reverse.find? (·.1 = key)).map (·.2) := by
    rw [← get?_ofList, ofList_entries]
  rw [update, get?_foldl_insert_eq, he]

end Dictionary

namespace Rows

open Json (Value)
open Query (Token)

/-! ## Texts of values -/

/-- Strings are their own texts, numbers are read as they are written in JSON, and booleans by their
names; nothing else has a text. -/
theorem scalarText?_eq_some_iff {v : Value} {text : String} : scalarText? v = some text ↔
    v = .string text ∨ (∃ n : Json.Number, v = n.toValue ∧ text = String.ofList n.text) ∨
      v = .bool true ∧ text = "true" ∨ v = .bool false ∧ text = "false" := by
  constructor
  · intro h
    cases v with
    | string s =>
      cases h
      exact Or.inl rfl
    | int n =>
      cases h
      exact Or.inr (Or.inl ⟨.int n, rfl, rfl⟩)
    | double x =>
      cases h
      exact Or.inr (Or.inl ⟨.double x, rfl, rfl⟩)
    | bool b => cases b <;> cases h <;> simp
    | null | array | object => cases h
  · rintro (rfl | ⟨n, rfl, rfl⟩ | ⟨rfl, rfl⟩ | ⟨rfl, rfl⟩)
    · rfl
    · cases n <;> rfl
    · rfl
    · rfl

/-- Null, arrays and objects have no text. -/
theorem scalarText?_eq_none_iff {v : Value} : scalarText? v = none ↔
    v = .null ∨ (∃ items, v = .array items) ∨ ∃ members, v = .object members := by
  cases v with
  | bool b => cases b <;> simp [scalarText?]
  | null | int | double | string | array | object => simp [scalarText?]

/-- A field that is one of these counts as missing. -/
theorem topField?_eq_none_iff {row : Value} {name : String} : topField? row name = none ↔
    ∀ v, row.member? name = some v →
      v = .null ∨ (∃ items, v = .array items) ∨ ∃ members, v = .object members := by
  simp only [topField?, Option.bind_eq_none_iff, scalarText?_eq_none_iff]

/-! ## Flat rows -/

/-- The members of an object under their keys; of several with one key the first counts. -/
def memberTable : Value → Dictionary Value
  | .object members => .ofList members.reverse
  | _ => .empty

/-- The texts of the members of an object that are strings, numbers or booleans. -/
def scalars (v : Value) : Dictionary String :=
  (memberTable v).filterMap scalarText?

/-- The texts of a row and, under names that it has no text for, of the object in its field
`fallback`. -/
def flatten (fallback : Option String) (row : Value) : Dictionary String :=
  (((fallback.bind row.member?).map scalars).getD .empty).update (scalars row)

theorem get?_memberTable (v : Value) (name : String) :
    (memberTable v).get? name = v.member? name := by
  cases v with
  | object members => rw [memberTable, Dictionary.get?_ofList, List.reverse_reverse, Value.member?]
  | null | bool | int | double | string | array => rfl

theorem get?_scalars (v : Value) (name : String) : (scalars v).get? name = topField? v name := by
  rw [scalars, Dictionary.get?_filterMap, get?_memberTable, topField?]

theorem get?_flatten (fallback : Option String) (row : Value) (name : String) :
    (flatten fallback row).get? name =
      (topField? row name).or ((fallback.bind row.member?).bind (topField? · name)) := by
  rw [flatten, Dictionary.get?_update, get?_scalars]
  cases fallback.bind row.member? with
  | none => rfl
  | some inner => rw [Option.map_some, Option.getD_some, get?_scalars, Option.bind_some]

theorem get?_flatten_eq_some_iff {fallback : Option String} {row : Value} {name text : String} :
    (flatten fallback row).get? name = some text ↔
      topField? row name = some text ∨ topField? row name = none ∧
        ∃ f ∈ fallback, ∃ inner, row.member? f = some inner ∧ topField? inner name = some text := by
  rw [get?_flatten, Option.or_eq_some_iff, Option.bind_eq_some_iff]
  simp only [Option.bind_eq_some_iff, Option.mem_def]
  constructor
  · rintro (h | ⟨hnone, inner, ⟨f, hf, hinner⟩, h⟩)
    · exact Or.inl h
    · exact Or.inr ⟨hnone, f, hf, inner, hinner, h⟩
  · rintro (h | ⟨hnone, f, hf, inner, hinner, h⟩)
    · exact Or.inl h
    · exact Or.inr ⟨hnone, inner, ⟨f, hf, hinner⟩, h⟩

/-- A flat row has the fields that are read through the nested object. -/
theorem tableField_flatten (fallback : Option String) (row : Value) (name : String) :
    tableField (flatten fallback row) name = jsonField fallback row name := by
  rw [tableField, get?_flatten, jsonField]
  cases topField? row name with
  | none => rfl
  | some text => rfl

/-! ## Rows that are read in another way -/

namespace Selector

variable {ρ σ : Type} (s : Selector ρ)

/-- The selector that asks the same of rows that are read in another way. -/
def reading (accessor : Accessor σ) : Selector σ :=
  ⟨s.registry, accessor, s.fieldMap, s.unknownKeys⟩

/-- The positions of the rows that satisfy all tokens. -/
def positions (rows : List ρ) (tokens : List Token) : List Nat :=
  ((s.reading fun row : ρ × Nat => s.accessor row.1).select rows.zipIdx tokens).map (·.2)

/-- A filter is planned without a look at the rows. -/
theorem plan?_reading (accessor : Accessor σ) (tokens : List Token) :
    (s.reading accessor).plan? tokens = s.plan? tokens := by
  induction tokens with
  | nil => rfl
  | cons t r ih =>
    simp only [plan?, ih]
    rfl

variable {s} {f : ρ → σ} {b : Accessor σ}

theorem accepts_reading (h : ∀ row name, b (f row) name = s.accessor row name) (row : ρ)
    (tokens : List Token) : (s.reading b).accepts (f row) tokens = s.accepts row tokens := by
  have hsatisfies : (s.reading b).satisfies (f row) = s.satisfies row := by
    funext c
    rw [satisfies, satisfies, ← h]
    rfl
  rw [accepts, accepts, plan?_reading, hsatisfies]

theorem select_reading (h : ∀ row name, b (f row) name = s.accessor row name)
    (rows : List ρ) (tokens : List Token) :
    (s.reading b).select (rows.map f) tokens = (s.select rows tokens).map f := by
  rw [select_eq_filter, select_eq_filter, List.filter_map]
  congr 2
  funext row
  exact accepts_reading h row tokens

/-- The rows at these positions are the selected ones. -/
theorem getElem?_positions (rows : List ρ) (tokens : List Token) :
    (s.positions rows tokens).map (rows[·]?) = (s.select rows tokens).map some := by
  let tagged := s.reading fun row : ρ × Nat => s.accessor row.1
  have hselect : s.select rows tokens = (tagged.select rows.zipIdx tokens).map (·.1) := by
    have hread := select_reading (s := tagged) (f := Prod.fst) (b := s.accessor)
      (fun _ _ => rfl) rows.zipIdx tokens
    rwa [List.zipIdx_map_fst] at hread
  rw [hselect, positions, List.map_map, List.map_map]
  refine List.map_congr_left fun p hp => ?_
  have hmem : p ∈ rows.zipIdx := (select_sublist tagged rows.zipIdx tokens).subset hp
  exact List.mem_zipIdx_iff_getElem?.1 hmem

theorem positions_reading (h : ∀ row name, b (f row) name = s.accessor row name)
    (rows : List ρ) (tokens : List Token) :
    (s.reading b).positions (rows.map f) tokens = s.positions rows tokens := by
  have hread := select_reading (s := s.reading fun row : ρ × Nat => s.accessor row.1)
    (f := Prod.map f id) (b := fun row : σ × Nat => b row.1)
    (fun row name => h row.1 name) rows.zipIdx tokens
  have hsame := congrArg (List.map (·.2)) hread
  rw [List.map_map] at hsame
  rw [positions, List.zipIdx_map]
  exact hsame

end Selector

/-! ## Summaries and selections -/

section Summaries

variable {ρ σ : Type} {f : ρ → σ} {a : Accessor ρ} {b : Accessor σ}

/-- A summary sees of a row only what its fields are read as. -/
theorem summarize_map (h : ∀ row name, b (f row) name = a row name) (config : Summary.Config)
    (rows : List ρ) :
    Summary.summarize config b (rows.map f) = Summary.summarize config a rows := by
  have hnumbers (field : String) :
      Summary.numbers b field (rows.map f) = Summary.numbers a field rows := by
    simp only [Summary.numbers, List.filterMap_map, Function.comp_def, h]
  have htexts (field : String) :
      Summary.trimmedTexts b field (rows.map f) = Summary.trimmedTexts a field rows := by
    simp only [Summary.trimmedTexts, List.filterMap_map, Function.comp_def, h]
  simp only [Summary.summarize, hnumbers, htexts, List.isEmpty_map, List.length_map]

end Summaries

/-- **Reading through a nested object is reading flat rows.**  A flat row holds the texts of a row
and, under names that the row has no text for, those of the object in its field `fallback`.
Whatever is declared, mapped and done with unknown keys, each filter keeps of the flat rows those at
the same positions, and a summary of them has the same metrics. -/
theorem flatten_reads_alike (fallback : Option String) :
    (∀ row name text, (flatten fallback row).get? name = some text ↔
      topField? row name = some text ∨ topField? row name = none ∧
        ∃ f ∈ fallback, ∃ inner, row.member? f = some inner ∧ topField? inner name = some text) ∧
    (∀ (r : Registry) (m : FieldMap) (policy : UnknownKeys) (rows : List Value)
      (tokens : List Token),
      let nested : Selector Value := ⟨r, jsonField fallback, m, policy⟩
      let flat : Selector (Dictionary String) := ⟨r, tableField, m, policy⟩
      flat.positions (rows.map (flatten fallback)) tokens = nested.positions rows tokens ∧
        (nested.positions rows tokens).map (rows[·]?) = (nested.select rows tokens).map some ∧
        flat.select (rows.map (flatten fallback)) tokens =
          (nested.select rows tokens).map (flatten fallback)) ∧
    ∀ config rows, Summary.summarize config tableField (rows.map (flatten fallback)) =
      Summary.summarize config (jsonField fallback) rows := by
  have hfields := tableField_flatten fallback
  refine ⟨fun _ _ _ => get?_flatten_eq_some_iff, ?_, summarize_map hfields⟩
  intro r m policy rows tokens nested flat
  exact ⟨Selector.positions_reading (s := nested) hfields rows tokens,
    Selector.getElem?_positions rows tokens,
    Selector.select_reading (s := nested) hfields rows tokens⟩

/-- A null gives way to the nested object and a text does not; so does the object itself. -/
example :
    let row : Value := .object [("owner", .null), ("score", .int 7), ("more", .object [
      ("owner", .string "ana"), ("score", .int 9), ("more", .bool true), ("tags", .array [])])]
    (flatten (some "more") row).entries = [("more", "true"), ("owner", "ana"), ("score", "7")] ∧
      (flatten none row).entries = [("score", "7")] ∧
      (flatten (some "score") row).entries = [("score", "7")] := by
  decide +kernel

end Rows

end RowQuery
