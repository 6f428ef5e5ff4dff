import RowQuery.Proofs.Dictionary
import RowQuery.Proofs.Text.LetterCase
import RowQuery.Rows.Fields

/-!
# The keys of field maps are lowercase forms

* `FieldMap.IsFolded`: each key is its own lowercase form.
* `FieldMap.isFolded_ofTable`: such are the keys of any field map that is made from a table.
* `FieldMap.ofTable_fields`: the entries of such a map make the same map again.
-/

namespace RowQuery.Rows.FieldMap

/-- Each key is its own lowercase form. -/
def IsFolded (m : FieldMap) : Prop :=
  ∀ e ∈ m.fields.entries, Text.fold e.1 = e.1

theorem isFolded_empty : empty.IsFolded := by
  intro e he
  cases he

theorem IsFolded.insert {m : FieldMap} (h : m.IsFolded) (key field : String) :
    (m.insert key field).IsFolded := by
  intro e he
  rcases mem_insertEntry he with rfl | he
  · exact Text.fold_fold key
  · exact h e he

/-- A map that is made from a table has lowercase forms only. -/
theorem isFolded_ofTable (table : Dictionary String) : (ofTable table).IsFolded := by
  have hrun (l : List (String × String)) {m : FieldMap} (hm : m.IsFolded) :
      (l.foldl (fun m e => m.insert e.1 e.2) m).IsFolded := by
    induction l generalizing m with
    | nil => exact hm
    | cons e l ih => exact ih (hm.insert e.1 e.2)
  exact hrun table.entries isFolded_empty

theorem foldl_insert {l : List (String × String)} (h : ∀ e ∈ l, Text.fold e.1 = e.1)
    (m : FieldMap) : (l.foldl (fun m e => m.insert e.1 e.2) m).fields =
      l.foldl (fun d e => d.insert e.1 e.2) m.fields := by
  induction l generalizing m with
  | nil => rfl
  | cons e l ih =>
    obtain ⟨he, hl⟩ := List.forall_mem_cons.1 h
    rw [List.foldl_cons, ih hl, List.foldl_cons, insert, he]

/-- The entries of a map with lowercase forms make the same map again. -/
theorem ofTable_fields {m : FieldMap} (h : m.IsFolded) : ofTable m.fields = m := by
  have hfields : (ofTable m.fields).fields = m.fields :=
    (foldl_insert h empty).trans m.fields.ofList_entries
  cases m
  exact congrArg FieldMap.mk hfields

end RowQuery.Rows.FieldMap
