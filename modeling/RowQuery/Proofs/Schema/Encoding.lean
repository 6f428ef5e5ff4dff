import RowQuery.Proofs.Json.Decode
import RowQuery.Schema.Encoding

/-!
# Declarations that are written and read

What is not said of a command is left out, and what is left out is read as not said.

* `Command.reads_toJson`, `Command.reads_tableToJson`: a command, and a table of commands.
-/

namespace RowQuery

open Json (Value)
open Json.Decode

theorem Kind.ofName?_name (k : Kind) : ofName? k.name = some k := by
  cases k <;> decide

namespace Command

/-- The document of the allowed values, if there are any. -/
def valuesField (c : Command) : Option Json.Document :=
  if c.allowedValues.isEmpty then none
  else some (Value.array (c.allowedValues.map .string)).toDocument

theorem fields_toJson (c : Command) :
    record? ["type", "description", "allowed_values", "supports_operators"] c.toJson.toDocument =
      some [some (Value.string c.kind.name).toDocument,
        some (Value.string c.description).toDocument, c.valuesField,
        c.operatorSupport.map fun b => (Value.bool b).toDocument] := by
  obtain ⟨kind, description, values, support⟩ := c
  rw [toJson, record?_object]
  · cases values <;> cases support <;> simp [member, valuesField]
  · cases values <;> cases support <;> simp

theorem reads_toJson (c : Command) : Reads ofJson? c.toJson c := by
  have hvalues : withDefault? [] (list? string?) c.valuesField = some c.allowedValues := by
    rw [valuesField]
    split
    · next hnil => rw [List.isEmpty_iff.1 hnil, withDefault?]
    · exact reads_list fun s _ => reads_string s
  have hsupport := withDefault?_optional c.operatorSupport fun b =>
    reads_optional (reads_bool b) (by simp [Value.toDocument])
  rw [Reads, ofJson?, c.fields_toJson]
  simp [required?_of_reads (reads_choice (Kind.ofName?_name c.kind)),
    withDefault?_of_reads (reads_string c.description), hvalues, hsupport]

/-- No number is written. -/
theorem numbers_toJson (c : Command) : c.toJson.numbers = [] := by
  obtain ⟨kind, description, values, support⟩ := c
  cases values with
  | nil => cases support <;> rfl
  | cons value values =>
    have hvalues := Value.itemNumbers_map_eq_nil (f := .string) (fun _ => rfl) (value :: values)
    cases support <;> simpa [toJson, Value.numbers, Value.memberNumbers] using hvalues

/-- Only the allowed values are enclosed once more. -/
theorem depth_toJson (c : Command) : c.toJson.depth ≤ 2 := by
  obtain ⟨kind, description, values, support⟩ := c
  cases values with
  | nil => cases support <;> simp [toJson, Value.depth, Value.memberDepth]
  | cons value values =>
    have hvalues := Value.itemDepth_map_le (f := .string) (fun _ => Nat.le_refl 0) (value :: values)
    cases support <;> simpa [toJson, Value.depth, Value.memberDepth] using hvalues

theorem depth_tableToJson (table : Dictionary Command) : (tableToJson table).depth ≤ 3 :=
  Nat.succ_le_succ (Value.memberDepth_map_le depth_toJson table.entries)

theorem numbers_tableToJson (table : Dictionary Command) : (tableToJson table).numbers = [] :=
  Value.memberNumbers_map_eq_nil numbers_toJson table.entries

theorem reads_tableToJson (table : Dictionary Command) :
    Reads (table? ofJson?) (tableToJson table) table :=
  reads_table fun e _ => reads_toJson e.2

end Command

end RowQuery
