import RowQuery.Proofs.Rows.FieldMap
import RowQuery.Proofs.Schema.Construction
import RowQuery.Proofs.Schema.Encoding
import RowQuery.Proofs.Summary.Encoding
import RowQuery.Session.Encoding

/-!
# Configurations survive saving and loading

Some parts of a configuration are left out where there is nothing to say, and a field map is brought
into its normal form when it is read.  What has been read is in this form, so it comes back as it
is.  It is relied on that the codec reads back what it writes, of numbers only those that stand in
the configuration: the codec at hand does not read back all of them.

* `Config.IsReadable`, `Config.isReadable_of_load`: the form of what has been read.
* `Config.readsBack_numbers`: a codec that reads back finite doubles will do.
* `Config.load_save`: a configuration in this form is read back.
* `Config.survives_saving`: so is each configuration that has been read, and saying nothing of keys
  is still told from declaring none.
-/

namespace RowQuery

open Json (Value)
open Json.Decode

/-! ## Field maps -/

namespace Rows.FieldMap

theorem reads_toJson {m : FieldMap} (h : m.IsFolded) : Reads ofJson? m.toJson m := by
  have htable : Reads (table? string?) m.toJson m.fields := reads_table fun e _ => reads_string e.2
  rw [Reads, ofJson?, htable, Option.map_some, ofTable_fields h]

/-- No number is written. -/
theorem numbers_toJson (m : FieldMap) : m.toJson.numbers = [] :=
  Value.memberNumbers_map_eq_nil (f := .string) (fun _ => rfl) m.fields.entries

theorem depth_toJson (m : FieldMap) : m.toJson.depth ≤ 1 :=
  Nat.succ_le_succ (Value.memberDepth_map_le (f := .string) (fun _ => Nat.le_refl 0) _)

theorem isFolded_of_ofJson? {d : Json.Document} {m : FieldMap} (h : ofJson? d = some m) :
    m.IsFolded := by
  obtain ⟨table, -, rfl⟩ := Option.map_eq_some_iff.1 h
  exact isFolded_ofTable table

end Rows.FieldMap

theorem Rows.UnknownKeys.ofName?_name (p : Rows.UnknownKeys) : ofName? p.name = some p := by
  cases p <;> decide

namespace Session

namespace Config

/-! ## Configurations -/

/-- The form of a configuration that has been read. -/
structure IsReadable (c : Config) : Prop where
  fieldMap : c.fieldMap.IsFolded
  risk : c.summary.risk.IsFinite

theorem fields_toJson (c : Config) :
    record? ["commands", "field_map", "unknown_keys", "fallback_object", "summary"]
        c.toJson.toDocument =
      some [c.commands.map fun table => (Command.tableToJson table).toDocument,
        some c.fieldMap.toJson.toDocument, some (Value.string c.unknownKeys.name).toDocument,
        c.fallbackObject.map fun name => (Value.string name).toDocument,
        some c.summary.toJson.toDocument] := by
  obtain ⟨commands, fieldMap, unknownKeys, fallback, summary⟩ := c
  rw [toJson, record?_object]
  · cases commands <;> cases fallback <;> simp [member]
  · cases commands <;> cases fallback <;> simp

theorem reads_toJson {c : Config} (h : c.IsReadable) : Reads ofJson? c.toJson c := by
  have hcommands := withDefault?_optional c.commands fun table =>
    reads_optional (Command.reads_tableToJson table)
      (by simp [Command.tableToJson, Value.toDocument])
  have hfallback := withDefault?_optional c.fallbackObject fun name =>
    reads_optional (reads_string name) (by simp [Value.toDocument])
  rw [Reads, ofJson?, c.fields_toJson]
  simp [hcommands, withDefault?_of_reads (Rows.FieldMap.reads_toJson h.fieldMap),
    withDefault?_of_reads (reads_choice (Rows.UnknownKeys.ofName?_name c.unknownKeys)), hfallback,
    withDefault?_of_reads (Summary.Config.reads_toJson h.risk)]

theorem isReadable_of_ofJson? {d : Json.Document} {c : Config} (h : ofJson? d = some c) :
    c.IsReadable := by
  simp only [ofJson?, Option.bind_eq_bind, Option.bind_eq_some_iff] at h
  obtain ⟨fields, -, h⟩ := h
  split at h
  · simp only [Option.bind_eq_some_iff] at h
    obtain ⟨_, -, _, hfieldMap, _, -, _, -, _, hsummary, h⟩ := h
    cases h
    refine ⟨?_, ?_⟩
    · exact withDefault?_induction Rows.FieldMap.isFolded_empty
        (fun _ _ => Rows.FieldMap.isFolded_of_ofJson?) hfieldMap
    · exact withDefault?_induction (P := fun s => s.risk.IsFinite)
        Summary.RiskConfig.isFinite_default
        (fun _ _ => Summary.Config.isFinite_of_ofJson?) hsummary
  · cases h

/-- The numbers of a configuration are those of its risk score. -/
theorem numbers_toJson (c : Config) : c.toJson.numbers = c.summary.risk.toJson.numbers := by
  obtain ⟨commands, fieldMap, unknownKeys, fallback, summary⟩ := c
  cases commands <;> cases fallback <;>
    simp [toJson, Summary.Config.toJson, Value.numbers, Value.memberNumbers,
      Command.numbers_tableToJson, Rows.FieldMap.numbers_toJson]

theorem depth_toJson (c : Config) : c.toJson.depth ≤ 4 := by
  obtain ⟨commands, fieldMap, unknownKeys, fallback, summary⟩ := c
  have hfieldMap := fieldMap.depth_toJson
  have hsummary : summary.toJson.depth = 2 := rfl
  have hcommands (table : Dictionary Command) := Command.depth_tableToJson table
  cases commands <;> cases fallback <;>
    simp only [toJson, Value.depth, Value.memberDepth, List.cons_append, List.nil_append] <;> grind

/-! ## Texts -/

variable {J : Json.Codec}

theorem isReadable_of_load {s : String} {c : Config} (h : load J s = .ok c) : c.IsReadable := by
  unfold load at h
  split at h
  · next r hread =>
    cases h
    obtain ⟨d, -, hd⟩ := Option.bind_eq_some_iff.1 hread
    exact isReadable_of_ofJson? hd
  · cases h

/-- A text is read alike in all layouts. -/
theorem load_inLayout (l : Json.Layout) (s : String) : load (.inLayout l) s = ofText s := rfl

/-- A codec that reads back all finite doubles reads back the numbers of each configuration. -/
theorem readsBack_numbers (hJ : J.ReadsBack Json.Number.IsFiniteDouble) (c : Config) :
    J.ReadsBack (· ∈ c.toJson.numbers) :=
  hJ.mono fun x hx => by
    rw [numbers_toJson] at hx
    exact Summary.RiskConfig.isFiniteDouble_of_mem_numbers hx

/-- A configuration in the form of what has been read is read back. -/
theorem load_save {c : Config} (h : c.IsReadable) (hJ : J.ReadsBack (· ∈ c.toJson.numbers)) :
    load J (save J c) = .ok c := by
  have hdepth : c.toJson.depth ≤ 127 := Nat.le_trans c.depth_toJson (by decide)
  rw [load, save, decode?_write hJ hdepth (fun _ hx => hx) (reads_toJson h)]

theorem start_eq_ok {c : Config} {r : Registry} (h : c.registry = .ok r) (rows : List Value) :
    start c rows = .ok ⟨c, r, h, rows⟩ := by
  unfold start
  split
  · next r' h' =>
    cases h.symm.trans h'
    rfl
  · next e h' => cases h.symm.trans h'

/-- Without declared keys a session has those of the dashboard. -/
theorem registry_of_none {c : Config} (h : c.commands = none) : c.registry = .ok .dashboard := by
  rw [registry, h]

/-- With an empty table of declared keys it has no keys. -/
theorem exists_registry_of_empty {c : Config} (h : c.commands = some .empty) :
    ∃ r, c.registry = .ok r ∧ r.keys = [] := by
  have hempty : Registry.ofEntries [] = .ok ⟨[], .nil, by simp⟩ :=
    Registry.ofEntries_eq_ok_iff.2 ⟨by simp, .nil, by simp [Registry.sort]⟩
  rw [registry, h]
  exact ⟨_, hempty, rfl⟩

/-- A session of a configuration that was saved. -/
def reopen (J : Json.Codec) (saved : String) (rows : List Value) : Except HostError Session :=
  (load J saved).bind fun c => start c rows

theorem reopen_save {c : Config} (h : c.IsReadable) (hJ : J.ReadsBack (· ∈ c.toJson.numbers))
    (rows : List Value) : reopen J (save J c) rows = start c rows := by
  rw [reopen, load_save h hJ]
  rfl

/-- **A configuration that has been read survives saving and loading**, and so does every session
with it.  Saying nothing of keys and declaring none are still two things afterwards: the first gives
the keys of the dashboard, and the second no keys.  All that is assumed of the codec is that it
reads back the values it writes with no other numbers than those of the configuration. -/
theorem survives_saving {text : String} {c : Config} (h : load J text = .ok c)
    (hJ : J.ReadsBack (· ∈ c.toJson.numbers)) :
    (load J (save J c) = .ok c ∧ ∀ rows, reopen J (save J c) rows = start c rows) ∧
    (∀ rows, ∃ s, reopen J (save J { c with commands := none }) rows = .ok s ∧
      s.config = { c with commands := none } ∧ s.registry = .dashboard) ∧
    ∀ rows, ∃ s, reopen J (save J { c with commands := some .empty }) rows = .ok s ∧
      s.config = { c with commands := some .empty } ∧ s.registry.keys = [] := by
  have hreadable := isReadable_of_load h
  -- What is declared takes no part in the numbers, nor in the form of what has been read.
  have hreopen (commands : Option (Dictionary Command)) (rows : List Value) :
      reopen J (save J { c with commands := commands }) rows =
        start { c with commands := commands } rows := by
    refine reopen_save (c := { c with commands := commands })
      ⟨hreadable.fieldMap, hreadable.risk⟩ ?_ rows
    rw [numbers_toJson] at hJ ⊢
    exact hJ
  refine ⟨⟨load_save hreadable hJ, reopen_save hreadable hJ⟩, fun rows => ?_, fun rows => ?_⟩
  · have hstart := start_eq_ok (registry_of_none (c := { c with commands := none }) rfl) rows
    exact ⟨_, (hreopen none rows).trans hstart, rfl, rfl⟩
  · obtain ⟨r, hr, hkeys⟩ :=
      exists_registry_of_empty (c := { c with commands := some .empty }) rfl
    exact ⟨_, (hreopen (some .empty) rows).trans (start_eq_ok hr rows), rfl, hkeys⟩

/-- Keys that differ in case, a number that is said not to be compared, null for no object, and one
limit of the risk score, in both layouts; and the same without keys. -/
theorem survives_saving_colliding_keys :
    let text := "\x7b\"commands\": \x7b\"Size\": \x7b\"type\": \"numeric\", " ++
      "\"supports_operators\": false\x7d\x7d, \"fallback_object\": null, " ++
      "\"field_map\": \x7b\"OWNER\": \"a\", \"owner\": \"b\"\x7d, " ++
      "\"summary\": \x7b\"risk\": \x7b\"high_at\": 0.1\x7d\x7d\x7d"
    ∃ c, ofText text = .ok c ∧
      c.commands.map (·.entries) = some [("Size", ⟨.number, "", [], some false⟩)] ∧
      c.fieldMap.fields.entries = [("owner", "b")] ∧ c.fallbackObject = none ∧
      c.summary.risk.highAt = Summary.hundredths 10 ∧
      ofText c.toJson.compactText = .ok c ∧ ofText c.toJson.prettyText = .ok c ∧
      ∃ s, reopen (.inLayout .indented) { c with commands := none }.toJson.prettyText [] = .ok s ∧
        s.registry = .dashboard := by
  intro text
  have hfacts : (ofText text).toOption.any (fun c =>
      c.commands.map (·.entries) = some [("Size", ⟨.number, "", [], some false⟩)] ∧
      c.fieldMap.fields.entries = [("owner", "b")] ∧ c.fallbackObject = none ∧
      c.summary.risk.highAt = Summary.hundredths 10 ∧
      c.toJson.numbers.all (fun x => x.IsReadBack) = true) = true := by
    decide +kernel
  cases htext : ofText text with
  | error e =>
    rw [htext] at hfacts
    cases hfacts
  | ok c =>
    rw [htext] at hfacts
    obtain ⟨hcommands, hfieldMap, hfallback, hhigh, hnumbers⟩ := of_decide_eq_true hfacts
    have hJ (l : Json.Layout) : (Json.Codec.inLayout l).ReadsBack (· ∈ c.toJson.numbers) :=
      (Json.Codec.readsBack_inLayout l).mono fun x hx =>
        of_decide_eq_true (List.all_eq_true.1 hnumbers x hx)
    have hload (l : Json.Layout) : load (.inLayout l) text = .ok c :=
      (load_inLayout l text).trans htext
    obtain ⟨⟨hdense, -⟩, -, -⟩ := survives_saving (hload .dense) (hJ .dense)
    obtain ⟨⟨hindented, -⟩, hnone, -⟩ := survives_saving (hload .indented) (hJ .indented)
    obtain ⟨s, hs, -, hregistry⟩ := hnone []
    exact ⟨c, rfl, hcommands, hfieldMap, hfallback, hhigh, hdense, hindented, s, hs, hregistry⟩

end Config

end Session

end RowQuery
