import RowQuery.Proofs.Schema.Construction
import RowQuery.Proofs.Schema.Encoding

/-!
# Registries that are exported and read back

A registry is exported as a table by the keys as they are declared, which has another order: capital
letters come before all small ones.  But no two declarations share a key, so the table has them all,
and a registry is built from its declarations in any order.

* `entries_table_perm`: the table has just the declarations.
* `reads_toJson`: the table is read back from what is written of it.
* `survives_export`: the exported registry is the registry, through any codec that reads back what
  it writes.
-/

namespace RowQuery.Registry

open Json (Value)
open Json.Decode

theorem entries_table_perm (r : Registry) : r.table.entries.Perm r.entries :=
  Dictionary.entries_ofList_perm r.nodup_keys

theorem ofTable_table (r : Registry) : ofTable r.table = .ok r :=
  ofEntries_of_perm r.entries_table_perm

theorem reads_toJson (r : Registry) : Reads tableOfJson? r.toJson r.table := by
  have hcommands := withDefault?_of_reads (Command.reads_tableToJson r.table) .empty
  rw [Reads, tableOfJson?, toJson, record?_object _ (by simp)]
  simpa [member] using hcommands

/-- No number is written. -/
theorem numbers_toJson (r : Registry) : r.toJson.numbers = [] := by
  simp [toJson, Value.numbers, Value.memberNumbers, Command.numbers_tableToJson]

theorem depth_toJson (r : Registry) : r.toJson.depth ≤ 4 := by
  have htable := Command.depth_tableToJson r.table
  simp only [toJson, Value.depth, Value.memberDepth]
  omega

/-- **Exporting a registry loses nothing.**  From its table, and from each text that the table is
written as, the same registry is built again: with the same declarations, each in the case and with
the values in the order in which it was given, in the same places; so each lookup has the same
answer.  Of a codec it is relied on that it reads back what it writes of values without numbers. -/
theorem survives_export (r : Registry) :
    ofTable r.table = .ok r ∧ (∀ s, IsWrittenAs r.toJson s → ofText s = .ok r) ∧
      ∀ J : Json.Codec, J.ReadsBack (fun _ => False) → load J (J.write r.toJson) = .ok r := by
  refine ⟨r.ofTable_table, fun s hs => ?_, fun J hJ => ?_⟩
  · have hread := decodeText?_of_reads r.numbers_toJson r.reads_toJson hs
    rw [ofText, load, show Json.Codec.decode? _ _ s = _ from hread]
    exact r.ofTable_table
  · have hdepth : r.toJson.depth ≤ 127 := Nat.le_trans r.depth_toJson (by decide)
    rw [load, decode?_write hJ hdepth (by simp [r.numbers_toJson]) r.reads_toJson]
    exact r.ofTable_table

/-- In the table a capital letter comes first; what is not said of a key is left out. -/
example :
    let area : Entry := ("area", .ofValues "" ["b", "a"])
    let zone : Entry := ("Zone", ⟨.number, "", [], some false⟩)
    let r : Registry := ⟨[area, zone], by decide +kernel, by decide +kernel⟩
    r.toJson.compactText = "\x7b\"commands\":\x7b" ++
      "\"Zone\":\x7b\"type\":\"numeric\",\"description\":\"\",\"supports_operators\":false\x7d," ++
      "\"area\":\x7b\"type\":\"enum\",\"description\":\"\",\"allowed_values\":[\"b\",\"a\"]\x7d" ++
      "\x7d\x7d" := by
  decide +kernel

end RowQuery.Registry
