import RowQuery.Proofs.Session.Encoding

/-!
# What field maps remember

A field map keeps one field for each lowercase form, so of all entries that were ever inserted the
last one of a form counts.  A key is looked up as it is typed before it is folded; as only lowercase
forms are kept, and such a form is its own, the entry that is found is the same.

* `FieldMap.History`: the entries that were inserted into a map, in their order.
* `FieldMap.History.fields_eq`: what is kept of them.
* `FieldMap.resolve_eq`: the lookup of a key as it is typed makes no difference.
* `FieldMap.recalls_last`: what a map answers after any history.
-/

namespace RowQuery.Rows.FieldMap

open Json.Decode

/-- The entries that were inserted into a map, the last one at the end.  Those of a document are
inserted in the order of its table. -/
inductive History : FieldMap → List (String × String) → Prop
  | empty : History empty []
  | read {d : Json.Document} {table : Dictionary String} {m : FieldMap} :
      table? string? d = some table → ofJson? d = some m → History m table.entries
  | insert {m : FieldMap} {l : List (String × String)} (key field : String) : History m l →
      History (m.insert key field) (l ++ [(key, field)])

variable {m : FieldMap} {l : List (String × String)}

/-! ## What is kept -/

/-- The entries under the lowercase forms of their keys. -/
def foldKeys (l : List (String × String)) : List (String × String) :=
  l.map fun e => (Text.fold e.1, e.2)

theorem fields_insertAll (l : List (String × String)) (m : FieldMap) :
    (l.foldl (fun m e => m.insert e.1 e.2) m).fields =
      (foldKeys l).foldl (fun d e => d.insert e.1 e.2) m.fields := by
  induction l generalizing m with
  | nil => rfl
  | cons e l ih => exact ih (m.insert e.1 e.2)

namespace History

theorem isFolded (h : History m l) : m.IsFolded := by
  induction h with
  | empty => exact isFolded_empty
  | read _ hm => exact isFolded_of_ofJson? hm
  | insert key field _ ih => exact ih.insert key field

theorem fields_eq (h : History m l) : m.fields = .ofList (foldKeys l) := by
  induction h with
  | empty => rfl
  | @read d table m htable hm =>
    rw [ofJson?, htable] at hm
    obtain rfl : ofTable table = m := Option.some.inj hm
    exact fields_insertAll table.entries FieldMap.empty
  | @insert m l key field _ ih =>
    have hlast : foldKeys (l ++ [(key, field)]) = foldKeys l ++ [(Text.fold key, field)] :=
      List.map_append
    rw [FieldMap.insert, ih, hlast, Dictionary.ofList_append_singleton]

end History

/-! ## What is answered -/

/-- A key that is found as it is typed is a lowercase form, and so its own. -/
theorem resolve_eq (h : m.IsFolded) (key : String) :
    m.resolve key = (m.fields.get? (Text.fold key)).getD key := by
  rw [resolve]
  cases hkey : m.fields.get? key with
  | none => rfl
  | some field =>
    have hfold : Text.fold key = key := h _ (Dictionary.get?_eq_some_iff.1 hkey)
    rw [hfold, hkey]
    rfl

/-- The field of the last entry with the lowercase form of a key. -/
theorem History.resolve_eq_last (h : History m l) (key : String) : m.resolve key =
    ((l.reverse.find? fun e => Text.fold e.1 = Text.fold key).map (·.2)).getD key := by
  rw [resolve_eq h.isFolded, h.fields_eq, Dictionary.get?_ofList, foldKeys, ← List.map_reverse,
    List.find?_map, Option.map_map]
  rfl

theorem resolve_insert_of_ne (h : m.IsFolded) {key other : String}
    (hne : Text.fold other ≠ Text.fold key) (field : String) :
    (m.insert key field).resolve other = m.resolve other := by
  rw [resolve_eq (h.insert key field), resolve_eq h, insert, Dictionary.get?_insert,
    if_neg (Ne.symm hne)]

/-- **After any history a field map answers with what was inserted last.**  A key in any case
resolves to the field of the last entry whose key has the same lowercase form, and to itself, in the
case in which it is typed, if there is none.  One more entry changes no answer for another lowercase
form, only a map into which nothing was inserted is empty, and what is written of a map is read as
this map, by each codec that reads back what it writes of values without numbers. -/
theorem recalls_last (h : History m l) :
    (∀ key before e after, l = before ++ e :: after → Text.fold e.1 = Text.fold key →
      (∀ d ∈ after, Text.fold d.1 ≠ Text.fold key) → m.resolve key = e.2) ∧
    (∀ key, (∀ e ∈ l, Text.fold e.1 ≠ Text.fold key) → m.resolve key = key) ∧
    (∀ key field other, Text.fold other ≠ Text.fold key →
      (m.insert key field).resolve other = m.resolve other) ∧
    (m.isEmpty = true ↔ l = []) ∧
    (∀ s, IsWrittenAs m.toJson s → Json.decodeText? ofJson? s = some m) ∧
    ∀ J : Json.Codec, J.ReadsBack (fun _ => False) →
      J.decode? ofJson? (J.write m.toJson) = some m := by
  refine ⟨?_, ?_, ?_, ?_, ?_, ?_⟩
  · intro key before e after hl he hafter
    have hnone : (after.reverse.find? fun d => Text.fold d.1 = Text.fold key) = none :=
      List.find?_eq_none.2 fun d hd => by simpa using hafter d (List.mem_reverse.1 hd)
    rw [h.resolve_eq_last, hl, List.reverse_append, List.reverse_cons, List.append_assoc,
      List.find?_append, hnone]
    simp [he]
  · intro key hno
    have hnone : (l.reverse.find? fun e => Text.fold e.1 = Text.fold key) = none :=
      List.find?_eq_none.2 fun e he => by simpa using hno e (List.mem_reverse.1 he)
    rw [h.resolve_eq_last, hnone]
    rfl
  · intro key field other hne
    exact resolve_insert_of_ne h.isFolded hne field
  · rw [isEmpty, h.fields_eq, Dictionary.isEmpty_ofList_iff, foldKeys, List.map_eq_nil_iff]
  · intro s hs
    exact decodeText?_of_reads m.numbers_toJson (reads_toJson h.isFolded) hs
  · intro J hJ
    have hdepth : m.toJson.depth ≤ 127 := Nat.le_trans m.depth_toJson (by decide)
    exact decode?_write hJ hdepth (by simp [m.numbers_toJson]) (reads_toJson h.isFolded)

/-- Two keys of a document that are one in lowercase, of which the second in the order of the table
counts, though it comes first in the document; and a key that is inserted twice, in two cases. -/
theorem recalls_last_both_cases :
    let d : Json.Document :=
      .object [(some "owner", .string (some "b")), (some "OWNER", .string (some "a"))]
    let table : Dictionary String := ⟨[("OWNER", "a"), ("owner", "b")], by decide +kernel⟩
    let m := ((ofTable table).insert "Straße" "street").insert "STRAßE" "road"
    let l := [("OWNER", "a"), ("owner", "b"), ("Straße", "street"), ("STRAßE", "road")]
    table? string? d = some table ∧ History m l ∧ m.resolve "Owner" = "b" ∧
      m.resolve "straße" = "road" ∧ m.resolve "Team" = "Team" ∧
      (m.insert "team" "group").resolve "OWNER" = m.resolve "OWNER" ∧
      Json.decodeText? ofJson? m.toJson.compactText = some m := by
  intro d table m l
  have htable : table? string? d = some table := by
    have hentries : (table? string? d).map (·.entries) = some table.entries := by decide +kernel
    obtain ⟨found, hfound, heq⟩ := Option.map_eq_some_iff.1 hentries
    rw [hfound, Dictionary.ext heq]
  have hread : ofJson? d = some (ofTable table) := by rw [ofJson?, htable, Option.map_some]
  have h : History m l := ((History.read htable hread).insert "Straße" "street").insert _ _
  obtain ⟨hlast, hself, hother, -, hwritten, -⟩ := recalls_last h
  refine ⟨htable, h, ?_, ?_, ?_, ?_, hwritten _ (Or.inl rfl)⟩
  · exact hlast "Owner" [("OWNER", "a")] ("owner", "b") _ rfl (by decide +kernel)
      (by decide +kernel)
  · exact hlast "straße" (l.take 3) ("STRAßE", "road") [] rfl (by decide +kernel) (by simp)
  · exact hself "Team" (by decide +kernel)
  · exact hother "team" "group" "OWNER" (by decide +kernel)

end RowQuery.Rows.FieldMap
