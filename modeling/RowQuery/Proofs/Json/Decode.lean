import RowQuery.Proofs.Dictionary
import RowQuery.Proofs.Json.RoundTrip

/-!
# Decoding what is written

A decoder reads back a value that is written, if it reads back its parts.

* `Reads`: a decoder reads a value as something.
* `decode?_write`, `decodeText?_of_reads`: so it does from a text that is read back.
* `reads_list`, `reads_table`: arrays and objects of values that are read back.
* `record?_object`: the fields of a record are the members of the object that is written.
* `withDefault?_induction`: what a field with a default gives.
-/

namespace RowQuery.Json.Decode

variable {α : Type} {decode : Decoder α}

/-- A decoder reads what is written of `v` as `x`. -/
def Reads (decode : Decoder α) (v : Value) (x : α) : Prop :=
  decode v.toDocument = some x

theorem decode?_write {J : Codec} {P : Number → Prop} (hJ : J.ReadsBack P) {v : Value}
    (hdepth : v.depth ≤ 127) (hv : ∀ n ∈ v.numbers, P n) {x : α} (h : Reads decode v x) :
    J.decode? decode (J.write v) = some x := by
  rw [Codec.decode?, hJ v hdepth hv]
  exact h

/-- A text that a value is written as, on one line or indented. -/
def IsWrittenAs (v : Value) (s : String) : Prop :=
  s = v.compactText ∨ s = v.prettyText

/-- A value without numbers is read back from each of its texts. -/
theorem decodeText?_of_reads {v : Value} {x : α} {s : String} (hv : v.numbers = [])
    (h : Reads decode v x) (hs : IsWrittenAs v s) : decodeText? decode s = some x := by
  have hlayout (l : Layout) : decodeText? decode ((Codec.inLayout l).write v) = some x := by
    have hread : (Codec.inLayout l).read ((Codec.inLayout l).write v) = some v.toDocument := by
      rw [Codec.read_write_inLayout]
      exact Value.ofText?_written l 0 (by simp [hv])
    rw [decodeText?, Codec.decode?, show (Codec.inLayout .dense).read _ = _ from hread]
    exact h
  rcases hs with rfl | rfl
  · exact hlayout .dense
  · exact hlayout .indented

/-! ## Single values -/

theorem reads_string (s : String) : Reads string? (.string s) s := rfl

theorem reads_bool (b : Bool) : Reads bool? (.bool b) b := rfl

theorem reads_double {x : Double} (h : x.isFinite = true) : Reads double? (.double x) x := by
  cases x with
  | finite negative units => rfl
  | infinite negative => cases h
  | nan => cases h

theorem isFinite_of_double? {d : Document} {x : Double} (h : double? d = some x) :
    x.isFinite = true := by
  unfold double? at h
  split at h
  · exact (Option.filter_eq_some_iff.1 h).2
  · cases h

theorem reads_choice {ofName? : String → Option α} {name : String} {x : α}
    (h : ofName? name = some x) : Reads (choice? ofName?) (.string name) x := h

theorem reads_optional {v : Value} {x : α} (h : Reads decode v x) (hnull : v.toDocument ≠ .null) :
    Reads (optional? decode) v (some x) := by
  rw [Reads, optional?]
  · rw [h]
    rfl
  · exact hnull

/-! ## Arrays and objects -/

theorem mapM_map_of_forall {β γ : Type} {f : γ → β} {g : β → Option γ} {l : List γ}
    (h : ∀ x ∈ l, g (f x) = some x) : (l.map f).mapM g = some l := by
  induction l with
  | nil => rfl
  | cons x l ih =>
    obtain ⟨hx, hl⟩ := List.forall_mem_cons.1 h
    rw [List.map_cons, List.mapM_cons, hx, ih hl]
    rfl

theorem reads_list {f : α → Value} {l : List α} (h : ∀ x ∈ l, Reads decode (f x) x) :
    Reads (list? decode) (.array (l.map f)) l := by
  rw [Reads, Value.toDocument, Value.itemDocuments_eq_map, List.map_map, list?]
  exact mapM_map_of_forall h

theorem reads_table {f : α → Value} {table : Dictionary α}
    (h : ∀ e ∈ table.entries, Reads decode (f e.2) e.2) :
    Reads (table? decode) (.object (table.entries.map fun e => (e.1, f e.2))) table := by
  have hentries : (table.entries.map fun e => (some e.1, (f e.2).toDocument)).mapM
      (member? decode) = some table.entries := by
    refine mapM_map_of_forall fun e he => ?_
    rw [member?, h e he]
  rw [Reads, Value.toDocument, Value.memberDocuments_eq_map, List.map_map, table?]
  exact (congrArg (Option.map Dictionary.ofList) hentries).trans
    (congrArg some table.ofList_entries)

/-! ## Records -/

/-- The document of the member with a key, if there is one. -/
def member (ms : List (String × Value)) (name : String) : Option Document :=
  (ms.find? (·.1 = name)).map (·.2.toDocument)

/-- The fields of a record are the members of the object that is written. -/
theorem record?_object (names : List String) {ms : List (String × Value)}
    (h : (ms.map (·.1)).Nodup) :
    record? names (Value.object ms).toDocument = some (names.map (member ms)) := by
  have hkeys : (ms.map fun m => (some m.1, m.2.toDocument)).all (·.1.isSome) = true := by
    simp
  have honce (name : String) :
      (ms.map fun m => (some m.1, m.2.toDocument)).countP (·.1 = some name) ≤ 1 := by
    have hcount := List.nodup_iff_count_le_one.1 h name
    rw [List.count, List.countP_map] at hcount
    rw [List.countP_map]
    refine le_trans (List.countP_mono_left fun m _ hm => ?_) hcount
    simpa using hm
  have hfind (name : String) :
      ((ms.map fun m => (some m.1, m.2.toDocument)).find? (·.1 = some name)).map (·.2) =
        member ms name := by
    rw [List.find?_map, member, Option.map_map]
    simp [Function.comp_def]
  have hnames : names.all (fun name =>
      (ms.map fun m => (some m.1, m.2.toDocument)).countP (·.1 = some name) ≤ 1) = true :=
    List.all_eq_true.2 fun name _ => decide_eq_true (honce name)
  rw [Value.toDocument, Value.memberDocuments_eq_map, record?, if_pos ⟨hkeys, hnames⟩]
  simp only [hfind]

theorem required?_of_reads {v : Value} {x : α} (h : Reads decode v x) :
    required? decode (some v.toDocument) = some x := h

theorem withDefault?_of_reads {v : Value} {x : α} (h : Reads decode v x) (default : α) :
    withDefault? default decode (some v.toDocument) = some x := h

/-- A field that is written only if something is said is read as what is said. -/
theorem withDefault?_optional {f : α → Value} (said : Option α)
    (h : ∀ x, Reads (optional? decode) (f x) (some x)) :
    withDefault? none (optional? decode) (said.map fun x => (f x).toDocument) = some said := by
  cases said with
  | none => rfl
  | some x => exact h x

/-- What holds of the default of a field and of all that is decoded holds of what it gives. -/
theorem withDefault?_induction {P : α → Prop} {default x : α} {field : Option Document}
    (hdefault : P default) (hdecode : ∀ d x, decode d = some x → P x)
    (h : withDefault? default decode field = some x) : P x := by
  cases field with
  | none =>
    cases h
    exact hdefault
  | some d => exact hdecode d x h

end RowQuery.Json.Decode
