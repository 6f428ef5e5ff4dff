import RowQuery.Proofs.Editor.Cursor
import RowQuery.Proofs.Editor.Suggestion
import RowQuery.Proofs.Query.Reader
import RowQuery.Proofs.Text.Bytes
import RowQuery.Proofs.Text.FinalSigma

/-!
# A key that is typed letter by letter

What is typed and the keys are compared in lowercase, each text mapped by itself.  So a `Σ` that is
typed last ends a word and counts as `ς`, while the key goes on and has `σ` there.  At such a place
the key that is being typed is not on offer, and it may come up again.  At any other place it is on
offer, and no key comes up with the next character that was not on offer before.

* `suggestAtEnd_key`, `mem_suggestKeys`: what is offered at the end of the beginning of a key.
* `not_cutAtSigma_of_mem`: where a word is cut behind a `Σ`, no key is on offer on both sides.
* `offers_typed_key_iff`: when the key that is typed is on offer, and when the keys become fewer.
-/

namespace RowQuery.Editor

open Text
open Query (isKeyChar)

variable {r : Registry} {e : Registry.Entry} {today : Date} {typed more rest : List Char}
  {s : Suggestion}

/-- The suggestions at the end of a text. -/
def suggestAtEnd (r : Registry) (today : Date) (text : List Char) : List Suggestion :=
  suggest r today (String.ofList text) (byteLength text)

theorem suggestAtEnd_key (today : Date) (h : ∀ c ∈ typed, isKeyChar c = true) :
    suggestAtEnd r today typed = suggestKeys r (String.ofList typed) := by
  have hword : Unbroken [] typed :=
    unbroken_of_not_blank fun c hc => Query.isBlank_of_isKeyChar (h c hc)
  have hcontext := Context.ofBefore_key (Or.inl rfl) hword (Query.colon_not_mem h)
  rw [List.nil_append] at hcontext
  rw [suggestAtEnd, suggest, Context.ofCursor, String.toList_ofList, takeBytes_byteLength, hcontext]

/-! ## The keys on offer -/

theorem mem_suggestKeys : s ∈ suggestKeys r (String.ofList typed) ↔
    ∃ e ∈ r.entries, lowercase typed <+: lowercase e.1.toList ∧ .ofEntry e = s := by
  simp only [suggestKeys, continues, List.mem_map, List.mem_filter, List.isPrefixOf_iff_prefix,
    String.toList_ofList, and_assoc]

/-- Where a word is cut behind a `Σ`, a key that was on offer goes as soon as more is typed. -/
theorem not_cutAtSigma_of_mem (h : s ∈ suggestKeys r (String.ofList typed))
    (hmore : s ∈ suggestKeys r (String.ofList (typed ++ more))) : ¬ CutAtSigma typed more := by
  obtain ⟨e, -, htyped, rfl⟩ := mem_suggestKeys.1 h
  obtain ⟨d, -, hlonger, heq⟩ := mem_suggestKeys.1 hmore
  have hkey : d.1 = e.1 := congrArg Suggestion.label heq
  rw [hkey] at hlonger
  -- Both are beginnings of one text, so the shorter one is a beginning of the other.
  have hlength := length_lowercaseAfter_le [] typed more
  exact lowercase_prefix_iff.1 (List.prefix_of_prefix_length_le htyped hlonger hlength)

theorem suggestKeys_append_subset (h : ¬ CutAtSigma typed more) :
    suggestKeys r (String.ofList (typed ++ more)) ⊆ suggestKeys r (String.ofList typed) := by
  intro s hs
  obtain ⟨e, he, hlonger, rfl⟩ := mem_suggestKeys.1 hs
  exact mem_suggestKeys.2 ⟨e, he, (lowercase_prefix_iff.2 h).trans hlonger, rfl⟩

/-- Keys come up that were not on offer just if a word is cut and there are keys at all. -/
theorem suggestKeys_append_subset_iff :
    suggestKeys r (String.ofList (typed ++ more)) ⊆ suggestKeys r (String.ofList typed) ↔
      ¬ CutAtSigma typed more ∨ suggestKeys r (String.ofList (typed ++ more)) = [] := by
  constructor
  · intro hsubset
    rw [or_iff_not_imp_right]
    intro hsome
    obtain ⟨s, hs⟩ := List.exists_mem_of_ne_nil _ hsome
    exact not_cutAtSigma_of_mem (hsubset hs) hs
  · rintro (hcut | hnone)
    · exact suggestKeys_append_subset hcut
    · rw [hnone]
      exact List.nil_subset _

/-! ## The key that is typed -/

theorem exists_mem_suggestKeys_iff (he : e ∈ r.entries) (hkey : e.1.toList = typed ++ rest) :
    (∃ s ∈ suggestKeys r (String.ofList typed),
      s.kind = .key ∧ s.label = e.1 ∧ s.inserted = e.1 ++ ":") ↔ ¬ CutAtSigma typed rest := by
  rw [← lowercase_prefix_iff, ← hkey]
  constructor
  · rintro ⟨s, hs, -, hlabel, -⟩
    obtain ⟨d, -, hprefix, rfl⟩ := mem_suggestKeys.1 hs
    have hsame : d.1 = e.1 := hlabel
    rwa [hsame] at hprefix
  · intro hprefix
    exact ⟨.ofEntry e, mem_suggestKeys.2 ⟨e, he, hprefix, rfl⟩, rfl, rfl, rfl⟩

/-- **The key that is being typed is on offer unless it is cut within a word behind a `Σ`.**  When
more of it is typed, one character or several, no keys come up that were not on offer before, unless
a word was cut there behind a `Σ` and some key is on offer now. -/
theorem offers_typed_key_iff (he : e ∈ r.entries) (hkey : e.1.toList = typed ++ rest)
    (today : Date) :
    ((∃ s ∈ suggestAtEnd r today typed,
        s.kind = .key ∧ s.label = e.1 ∧ s.inserted = e.1 ++ ":") ↔ ¬ CutAtSigma typed rest) ∧
      ∀ more others, rest = more ++ others →
        (suggestAtEnd r today (typed ++ more) ⊆ suggestAtEnd r today typed ↔
          ¬ CutAtSigma typed more ∨ suggestAtEnd r today (typed ++ more) = []) := by
  have hchars := Registry.isKeyChar_of_mem_key he
  rw [hkey] at hchars
  have htyped : ∀ c ∈ typed, isKeyChar c = true :=
    fun c hc => hchars c (List.mem_append_left _ hc)
  rw [suggestAtEnd_key today htyped]
  constructor
  · exact exists_mem_suggestKeys_iff he hkey
  · rintro more others rfl
    have hlonger : ∀ c ∈ typed ++ more, isKeyChar c = true := by
      intro c hc
      refine hchars c ?_
      rw [← List.append_assoc]
      exact List.mem_append_left _ hc
    rw [suggestAtEnd_key today hlonger]
    exact suggestKeys_append_subset_iff

/-- A key with a `Σ` within it: it is on offer before this letter, it is not behind it, and it comes
back with the next one. -/
theorem offers_typed_key_iff_amount :
    let amount : Registry.Entry := ("ΠΟΣΟ", .ofKind .number "")
    let r : Registry := ⟨[("owner", .ofKind .text ""), amount], by decide +kernel, by decide +kernel⟩
    let today : Date := ⟨2024, 3, 9, by decide⟩
    amount ∈ r.entries ∧ amount.1.toList = ['Π', 'Ο'] ++ ['Σ', 'Ο'] ∧
      amount.1.toList = ['Π', 'Ο', 'Σ'] ++ ['Ο'] ∧
      (∃ s ∈ suggestAtEnd r today ['Π', 'Ο'],
        s.kind = .key ∧ s.label = amount.1 ∧ s.inserted = amount.1 ++ ":") ∧
      suggestAtEnd r today ['Π', 'Ο', 'Σ'] ⊆ suggestAtEnd r today ['Π', 'Ο'] ∧
      (¬ ∃ s ∈ suggestAtEnd r today ['Π', 'Ο', 'Σ'],
        s.kind = .key ∧ s.label = amount.1 ∧ s.inserted = amount.1 ++ ":") ∧
      ¬ suggestAtEnd r today ['Π', 'Ο', 'Σ', 'Ο'] ⊆ suggestAtEnd r today ['Π', 'Ο', 'Σ'] := by
  intro amount r today
  have he : amount ∈ r.entries := by decide +kernel
  have hwhole : ¬ CutAtSigma ['Π', 'Ο'] ['Σ', 'Ο'] := by decide +kernel
  have hletter : ¬ CutAtSigma ['Π', 'Ο'] ['Σ'] := by decide +kernel
  have hcut : CutAtSigma ['Π', 'Ο', 'Σ'] ['Ο'] := by decide +kernel
  have hsome : suggestAtEnd r today ['Π', 'Ο', 'Σ', 'Ο'] ≠ [] := by decide +kernel
  have hkey : amount.1.toList = ['Π', 'Ο'] ++ ['Σ', 'Ο'] := by decide +kernel
  have hkey' : amount.1.toList = ['Π', 'Ο', 'Σ'] ++ ['Ο'] := by decide +kernel
  obtain ⟨hoffered, hfewer⟩ := offers_typed_key_iff he hkey today
  obtain ⟨hoffered', hfewer'⟩ := offers_typed_key_iff he hkey' today
  refine ⟨he, hkey, hkey', hoffered.2 hwhole, ?_, fun h => hoffered'.1 h hcut, fun h => ?_⟩
  · exact (hfewer ['Σ'] ['Ο'] rfl).2 (Or.inl hletter)
  · rcases (hfewer' ['Ο'] [] rfl).1 h with hno | hnone
    · exact hno hcut
    · exact hsome hnone

/-- The first half of a key is typed as it was declared, and nothing is offered.  With the next
letter the key is on offer. -/
theorem not_offers_typed_key :
    let state : Registry.Entry := ("ΚΑΤΑΣΤΑΣΗ", .ofKind .text "")
    let r : Registry := ⟨[state], by decide +kernel, by decide +kernel⟩
    let today : Date := ⟨2024, 3, 9, by decide⟩
    state.1 = "ΚΑΤΑΣ" ++ "ΤΑΣΗ" ∧ byteLength "ΚΑΤΑΣ".toList = 10 ∧
      suggest r today "ΚΑΤΑΣ" 10 = [] ∧ suggest r today "ΚΑΤΑΣΤ" 12 = [.ofEntry state] := by
  decide +kernel

end RowQuery.Editor
