import RowQuery.Proofs.Schema.Registry
import RowQuery.Schema.Diagnostic

/-!
# Findings about unknown keys

A key that is not declared is always found, and of a declared key only the value and the operator
are judged.

* `Diagnostic.isUnknownKey`: a finding about a key that is not declared.
* `find?_diagnose`: the first such finding is about the first such token.
-/

namespace RowQuery

open Query (Token)

variable {r : Registry} {t : Token}

/-- Whether a finding is about a key that is not declared. -/
def Diagnostic.isUnknownKey (d : Diagnostic) : Bool :=
  match d.problem with
  | .unknownKey _ => true
  | _ => false

theorem problem?_ne_unknownKey (c : Command) (t : Token) (hint : Option String) :
    problem? c t ≠ some (.unknownKey hint) := by
  unfold problem?
  split
  · simp
  · cases c.kind <;> simp

theorem diagnoseToken?_of_not_declares (h : ¬ r.Declares t.key) :
    diagnoseToken? r t = some ⟨t.key, t.span, .unknownKey (closestKey? r t.key)⟩ := by
  rw [diagnoseToken?, Registry.command?, Registry.entry?_eq_none_iff.2 h]
  rfl

theorem isUnknownKey_of_declares {d : Diagnostic} (h : r.Declares t.key)
    (hd : diagnoseToken? r t = some d) : d.isUnknownKey = false := by
  obtain ⟨e, he, hfold⟩ := h
  rw [diagnoseToken?, Registry.command?, Registry.entry?_eq_some_iff.2 ⟨he, hfold⟩] at hd
  obtain ⟨p, hp, rfl⟩ := Option.map_eq_some_iff.1 hd
  cases p with
  | unknownKey hint => exact absurd hp (problem?_ne_unknownKey e.2 t hint)
  | _ => rfl

/-- The findings are in the order of the tokens, so the first one about an unknown key is about the
first token with one. -/
theorem find?_diagnose (r : Registry) (tokens : List Token) :
    (diagnose r tokens).find? (·.isUnknownKey) =
      (tokens.find? fun t => !r.isDeclared t.key).map fun t =>
        ⟨t.key, t.span, .unknownKey (closestKey? r t.key)⟩ := by
  induction tokens with
  | nil => rfl
  | cons t tokens ih =>
    rw [diagnose] at ih ⊢
    rw [List.filterMap_cons, List.find?_cons]
    cases hkey : r.isDeclared t.key with
    | false =>
      rw [diagnoseToken?_of_not_declares (Registry.isDeclared_eq_false_iff.1 hkey)]
      rfl
    | true =>
      cases hfound : diagnoseToken? r t with
      | none => exact ih
      | some d =>
        have hd := isUnknownKey_of_declares (Registry.isDeclared_iff.1 hkey) hfound
        rw [List.find?_cons, hd]
        exact ih

end RowQuery
