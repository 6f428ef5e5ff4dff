import RowQuery.Dictionary
import RowQuery.Query.Token
import RowQuery.Schema.Command
import RowQuery.Text.LetterCase

/-!
# Registries

A registry holds the declared keys in ascending order of their lowercase forms, each of which
belongs to one key only.  So a key is found in whatever case it is typed.

* `Registry.ofEntries`: checks declarations and builds the registry.
* `Registry.position?`, `Registry.entry?`: where a key stands, and its declaration.
* `Registry.dashboard`: the keys of the project dashboard.
-/

namespace RowQuery

/-- Why declarations make no registry. -/
inductive SchemaError where
  | emptyKey
  | invalidKey (key : String)
  | duplicateKey (key : String)
  | missingValues (key : String)
  /-- The text is no table of declarations. -/
  | undecodable
  deriving DecidableEq

/-- An error in words. -/
def SchemaError.message : SchemaError → String
  | .emptyKey => "command key must not be empty"
  | .invalidKey key => "invalid command key '" ++ key ++
    "': keys cannot contain whitespace, quotes, ':' or operator characters"
  | .duplicateKey key => "duplicate command key: " ++ key
  | .missingValues key => "enum command '" ++ key ++ "' declares no allowed values"
  | .undecodable => "invalid schema configuration: not a table of commands"

namespace Registry

/-- A key and its declaration. -/
abbrev Entry := String × Command

/-- What is wrong with a declaration by itself. -/
def fault? (e : Entry) : Option SchemaError :=
  if e.1.toList.isEmpty then some .emptyKey
  else if !e.1.toList.all Query.isKeyChar then some (.invalidKey e.1)
  else if e.2.kind = .enumeration ∧ e.2.allowedValues = [] then some (.missingValues e.1)
  else none

/-- The first key whose lowercase form is that of the key before it. -/
def repeated? : List Entry → Option String
  | a :: b :: r => if Text.fold a.1 = Text.fold b.1 then some b.1 else repeated? (b :: r)
  | _ => none

/-- Declarations in ascending order of the lowercase forms of their keys; equal ones stay in the
given order. -/
def sort (entries : List Entry) : List Entry :=
  entries.mergeSort fun a b => Text.fold a.1 ≤ Text.fold b.1

theorem pairwise_sort (entries : List Entry) :
    (sort entries).Pairwise fun a b => Text.fold a.1 ≤ Text.fold b.1 := by
  have h : (sort entries).Pairwise fun a b => decide (Text.fold a.1 ≤ Text.fold b.1) = true :=
    List.pairwise_mergeSort
      (fun a b c hab hbc => by
        simp only [decide_eq_true_eq] at *
        exact String.le_trans hab hbc)
      (fun a b => by
        simp only [Bool.or_eq_true, decide_eq_true_eq]
        exact String.le_total ..)
      entries
  exact h.imp fun hab => of_decide_eq_true hab

theorem pairwise_lt_of_repeated?_eq_none {entries : List Entry}
    (h : entries.Pairwise fun a b => Text.fold a.1 ≤ Text.fold b.1)
    (hn : repeated? entries = none) :
    entries.Pairwise fun a b => Text.fold a.1 < Text.fold b.1 := by
  induction entries with
  | nil => exact .nil
  | cons a r ih =>
    obtain ⟨ha, hr⟩ := List.pairwise_cons.1 h
    cases r with
    | nil => simp
    | cons b t =>
      rw [repeated?] at hn
      split at hn
      · cases hn
      · next hne =>
        have hab : Text.fold a.1 < Text.fold b.1 := by
          refine Classical.byContradiction fun hlt => hne ?_
          exact String.le_antisymm (ha b (by simp)) (String.not_lt.1 hlt)
        have ht := ih hr hn
        refine List.pairwise_cons.2 ⟨fun e he => ?_, ht⟩
        rcases List.mem_cons.1 he with rfl | he
        · exact hab
        · exact String.lt_trans hab ((List.pairwise_cons.1 ht).1 e he)

end Registry

/-- Declarations without faults, in strictly ascending order of the lowercase forms of the keys. -/
structure Registry where
  entries : List Registry.Entry
  ascending : entries.Pairwise fun a b => Text.fold a.1 < Text.fold b.1
  faultless : ∀ e ∈ entries, Registry.fault? e = none

namespace Registry

/-- The registry of some declarations.  The first one with a fault is reported; only then are keys
compared with each other. -/
def ofEntries (entries : List Entry) : Except SchemaError Registry :=
  match hf : entries.findSome? fault? with
  | some e => .error e
  | none =>
    match hr : repeated? (sort entries) with
    | some key => .error (.duplicateKey key)
    | none => .ok {
        entries := sort entries
        ascending := pairwise_lt_of_repeated?_eq_none (pairwise_sort entries) hr
        faultless := fun e he =>
          List.findSome?_eq_none_iff.1 hf e (List.mem_mergeSort.1 he) }

/-- The position of each entry under the lowercase form of its key. -/
def index (r : Registry) : Dictionary Nat :=
  .ofList (r.entries.zipIdx.map fun e => (Text.fold e.1.1, e.2))

/-- The position of a key.  What is typed may be a lowercase form already. -/
def position? (r : Registry) (key : String) : Option Nat :=
  match r.index.get? key with
  | some i => some i
  | none => r.index.get? (Text.fold key)

/-- The declaration of a key in any case. -/
def entry? (r : Registry) (key : String) : Option Entry :=
  (r.position? key).bind fun i => r.entries[i]?

/-- The command that a key in any case names. -/
def command? (r : Registry) (key : String) : Option Command :=
  (r.entry? key).map (·.2)

/-- A key as it was declared. -/
def declared? (r : Registry) (key : String) : Option String :=
  (r.entry? key).map (·.1)

/-- Whether a key is declared in some case. -/
def isDeclared (r : Registry) (key : String) : Bool :=
  (r.position? key).isSome

/-- The values of an enumeration; no other key has any. -/
def allowedValues (r : Registry) (key : String) : List String :=
  match r.command? key with
  | some c => if c.kind = .enumeration then c.allowedValues else []
  | none => []

/-- Whether comparisons are offered for a key. -/
def supportsOperators (r : Registry) (key : String) : Bool :=
  match r.command? key with
  | some c => c.supportsOperators
  | none => false

/-- The declared keys in order. -/
def keys (r : Registry) : List String :=
  r.entries.map (·.1)

/-- The table of declarations by key. -/
def table (r : Registry) : Dictionary Command :=
  .ofList r.entries

/-- The registry of a table of declarations. -/
def ofTable (table : Dictionary Command) : Except SchemaError Registry :=
  ofEntries table.entries

/-- The keys of the project dashboard. -/
def dashboard : Registry where
  entries := [
    ("created", .ofKind .date "Creation date (YYYY-MM-DD)"),
    ("created-by", .ofKind .text "Author of the record (fuzzy match)"),
    ("health", .ofKind .number "Health index, 0-100"),
    ("owner", .ofKind .text "Project owner (fuzzy match)"),
    ("pinned", .ofKind .boolean "Pinned to the top"),
    ("region", .ofValues "Sales region" ["na", "emea", "apac", "latam"]),
    ("revenue", .ofKind .number "Annual revenue"),
    ("score", .ofKind .number "Quality score, 0-100"),
    ("status", .ofValues "Lifecycle state of the project"
      ["active", "paused", "watch", "archived"]),
    ("tag", .ofKind .text "Free-form label"),
    ("updated", .ofKind .date "Last update (YYYY-MM-DD)")]
  ascending := by decide +kernel
  faultless := by decide +kernel

end Registry

end RowQuery
