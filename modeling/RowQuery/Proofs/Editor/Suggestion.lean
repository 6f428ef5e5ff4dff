import RowQuery.Editor.Suggestion
import RowQuery.Proofs.Calendar.Instant
import RowQuery.Proofs.Query.Operator
import RowQuery.Proofs.Schema.Registry

/-!
# What is offered

* `Offer`: the suggestions for a value, by what they stand for; `offer_of_mem` says that there are
  no others, and `mem_suggest_cases` that all others are keys.
* `suggestKeys_empty`: where nothing is typed, all keys are offered.
* `suggestValues_empty_iff`: behind a colon, only the values of texts are left to be typed.
-/

namespace RowQuery.Editor

open Query (Operator isQuote beginsComparison)
open Text (lowercase isBlank)

/-! ## Suggestions for a value -/

/-- A suggestion for the value `typed` of a key. -/
inductive Offer (today : Date) (c : Command) (typed : String) : Suggestion → Prop
  | choice {v : String} : v ∈ c.choices → continues typed v = true →
      Offer today c typed (.ofValue [] v)
  | comparison {op : Operator} : op ∈ c.operators → typed.toList <+: op.symbol →
      Offer today c typed (.ofOperator op)
  | bare {v : String} : c.operators = [] → v ∈ examples today c.kind → typed.toList <+: v.toList →
      Offer today c typed (.ofValue [] v)
  | compared {op : Operator} {rest : List Char} {v : String} : c.operators ≠ [] →
      Operator.strip? typed.toList = some (op, rest) → v ∈ examples today c.kind →
      rest <+: v.toList → Offer today c typed (.ofValue op.symbol v)

theorem mem_suggestExamples {today : Date} {kind : Kind} {symbol typed : List Char}
    {s : Suggestion} : s ∈ suggestExamples today kind symbol typed ↔
      ∃ v ∈ examples today kind, typed <+: v.toList ∧ .ofValue symbol v = s := by
  simp only [suggestExamples, List.mem_map, List.mem_filter, List.isPrefixOf_iff_prefix, and_assoc]

theorem mem_suggestComparison {today : Date} {c : Command} {typed : String} {s : Suggestion}
    (h : s ∈ suggestComparison today c typed.toList) : Offer today c typed s := by
  unfold suggestComparison at h
  dsimp only at h
  split at h
  · rw [List.mem_map] at h
    obtain ⟨op, hop, rfl⟩ := h
    rw [List.mem_filter, List.isPrefixOf_iff_prefix] at hop
    exact .comparison hop.1 hop.2
  · split at h
    · next hno =>
      obtain ⟨v, hv, hpre, rfl⟩ := mem_suggestExamples.1 h
      exact .bare (List.isEmpty_iff.1 hno) hv hpre
    · next hops =>
      split at h
      · next op rest hstrip =>
        obtain ⟨v, hv, hpre, rfl⟩ := mem_suggestExamples.1 h
        refine .compared ?_ hstrip hv hpre
        intro hnil
        exact hops (List.isEmpty_iff.2 hnil)
      · exact absurd h List.not_mem_nil

theorem offer_of_mem {today : Date} {c : Command} {typed : String} {s : Suggestion}
    (h : s ∈ suggestValues today c typed) : Offer today c typed s := by
  have hchoice : s ∈ (c.choices.filter (continues typed)).map (.ofValue []) →
      Offer today c typed s := by
    intro h
    rw [List.mem_map] at h
    obtain ⟨v, hv, rfl⟩ := h
    rw [List.mem_filter] at hv
    exact .choice hv.1 hv.2
  unfold suggestValues at h
  split at h
  · exact mem_suggestComparison h
  · exact mem_suggestComparison h
  · exact hchoice h

/-- A suggestion is a key at the cursor, or it is for the value of a key. -/
theorem mem_suggest_cases {r : Registry} {today : Date} {text : String} {cursor : Nat}
    {s : Suggestion} (h : s ∈ suggest r today text cursor) :
    ((Context.ofCursor text cursor).place = .key ∧ ∃ e ∈ r.entries, s = .ofEntry e) ∨
      ∃ key colon c, (Context.ofCursor text cursor).place = .value key colon ∧
        r.command? key = some c ∧ Offer today c (Context.ofCursor text cursor).word s := by
  unfold suggest at h
  dsimp only at h
  split at h
  · next hplace =>
    left
    rw [suggestKeys, List.mem_map] at h
    obtain ⟨e, he, rfl⟩ := h
    exact ⟨hplace, e, (List.mem_filter.1 he).1, rfl⟩
  · next key colon hplace =>
    right
    split at h
    · next c hc => exact ⟨key, colon, c, hplace, hc, offer_of_mem h⟩
    · exact absurd h List.not_mem_nil

/-! ## Comparisons and literals -/

theorem ordered_of_mem_operators {c : Command} {op : Operator} (h : op ∈ c.operators) :
    (c.kind = .number ∨ c.kind = .date) ∧ op ≠ .contains := by
  unfold Command.operators at h
  split at h
  · cases hkind : c.kind with
    | number =>
      rw [hkind] at h
      exact ⟨Or.inl rfl, fun hop => absurd (hop ▸ h) (by decide)⟩
    | date =>
      rw [hkind] at h
      exact ⟨Or.inr rfl, fun hop => absurd (hop ▸ h) (by decide)⟩
    | enumeration | text | boolean =>
      rw [hkind] at h
      exact absurd h List.not_mem_nil
  · exact absurd h List.not_mem_nil

/-- A comparison that is typed in full is still on offer. -/
theorem mem_suggestValues_symbol (today : Date) {c : Command} {op : Operator}
    (h : op ∈ c.operators) :
    .ofOperator op ∈ suggestValues today c (String.ofList op.symbol) := by
  have hmem : op ∈ c.operators.filter fun o => op.symbol.isPrefixOf o.symbol := by
    rw [List.mem_filter, List.isPrefixOf_iff_prefix]
    exact ⟨h, List.prefix_refl _⟩
  have hbegun : .ofOperator op ∈ suggestComparison today c op.symbol := by
    unfold suggestComparison
    dsimp only
    rw [if_pos]
    · exact List.mem_map_of_mem hmem
    · cases hf : c.operators.filter fun o => op.symbol.isPrefixOf o.symbol with
      | nil => exact absurd (hf ▸ hmem) List.not_mem_nil
      | cons o os => rfl
  unfold suggestValues
  rw [String.toList_ofList]
  rcases (ordered_of_mem_operators h).1 with hkind | hkind
  · rw [hkind]
    exact hbegun
  · rw [hkind]
    exact hbegun

/-- The characters of the literals that are offered: digits and signs. -/
def isLiteralChar (c : Char) : Bool :=
  c.isDigit || c == '-' || c == '+'

theorem plain_of_isLiteralChar {c : Char} (h : isLiteralChar c = true) :
    isBlank c = false ∧ c ≠ '\\' ∧ isQuote c = false ∧ beginsComparison c = false := by
  simp only [isLiteralChar, Bool.or_eq_true, beq_iff_eq] at h
  rcases h with (h | rfl) | rfl
  · have hrange : 48 ≤ c.toNat ∧ c.toNat ≤ 57 := by
      simpa [Char.isDigit, UInt32.le_iff_toNat_le] using h
    have hne : ∀ d : Char, (d.toNat < 48 ∨ 57 < d.toNat) → c ≠ d := by
      rintro d hd rfl
      omega
    refine ⟨isBlank_of_isDigit h, hne _ (by decide), ?_, ?_⟩
    · simp [isQuote, hne '"' (by decide), hne '\'' (by decide)]
    · simp [beginsComparison, hne '<' (by decide), hne '>' (by decide), hne '=' (by decide),
        hne '!' (by decide)]
  · decide
  · decide

theorem mem_examples {today : Date} {kind : Kind} {v : String} (h : v ∈ examples today kind) :
    v.toList ≠ [] ∧ ∀ c ∈ v.toList, isLiteralChar c = true := by
  cases kind with
  | number =>
    have hall : ∀ v ∈ ["0", "10", "100"], v.toList ≠ [] ∧ v.toList.all isLiteralChar = true := by
      decide
    exact ⟨(hall v h).1, List.all_eq_true.1 (hall v h).2⟩
  | date =>
    obtain rfl := List.mem_singleton.1 h
    rw [String.toList_ofList]
    refine ⟨dateNotation.ne_nil today, fun c hc => ?_⟩
    rcases dateNotation.plain today c hc with hc | rfl | rfl
    · simp [isLiteralChar, hc]
    · decide
    · decide
  | enumeration | text | boolean => exact absurd h List.not_mem_nil

/-- But for the values of enumerations, what is offered as a value is one word. -/
theorem Offer.plain {today : Date} {c : Command} {typed : String} {s : Suggestion}
    (h : Offer today c typed s) (hc : c.kind ≠ .enumeration) (hs : s.kind = .value) :
    ∃ before v, s = .ofValue before v ∧
      ∀ x ∈ before ++ v.toList, isBlank x = false ∧ x ≠ '\\' := by
  have hliteral : ∀ v ∈ examples today c.kind, ∀ x ∈ v.toList, isBlank x = false ∧ x ≠ '\\' := by
    intro v hv x hx
    have hplain := plain_of_isLiteralChar ((mem_examples hv).2 x hx)
    exact ⟨hplain.1, hplain.2.1⟩
  cases h with
  | @choice v hv _ =>
    refine ⟨[], v, rfl, ?_⟩
    have hall : ∀ w ∈ ["true", "false"], w.toList.all (fun x => !isBlank x && x != '\\') = true := by
      decide
    cases hkind : c.kind with
    | enumeration => exact absurd hkind hc
    | boolean =>
      simp only [Command.choices, hkind] at hv
      simpa using hall v hv
    | text | number | date =>
      simp only [Command.choices, hkind] at hv
      exact absurd hv List.not_mem_nil
  | comparison _ _ => exact absurd hs (by simp [Suggestion.ofOperator])
  | @bare v _ hv _ => exact ⟨[], v, rfl, hliteral v hv⟩
  | @compared op rest v _ hstrip hv _ =>
    refine ⟨op.symbol, v, rfl, fun x hx => ?_⟩
    rcases List.mem_append.1 hx with hx | hx
    · exact Operator.plain_of_beginsComparison (Operator.beginsComparison_of_strip? hstrip x hx)
    · exact hliteral v hv x hx

theorem choices_eq_nil {c : Command} (hc : c.kind = .number ∨ c.kind = .date) :
    c.choices = [] := by
  unfold Command.choices
  rcases hc with hc | hc
  · rw [hc]
  · rw [hc]

/-- For numbers and dates what is inserted begins with what is typed. -/
theorem Offer.prefix_inserted {today : Date} {c : Command} {typed : String} {s : Suggestion}
    (h : Offer today c typed s) (hc : c.kind = .number ∨ c.kind = .date) :
    typed.toList <+: s.inserted.toList := by
  cases h with
  | choice hv _ =>
    rw [choices_eq_nil hc] at hv
    exact absurd hv List.not_mem_nil
  | @comparison op _ hpre => simpa [Suggestion.ofOperator] using hpre
  | @bare v _ _ hpre =>
    obtain ⟨more, hmore⟩ := hpre
    exact ⟨more ++ [' '], by simp [Suggestion.ofValue, ← hmore]⟩
  | @compared op rest v _ hstrip _ hpre =>
    obtain ⟨more, hmore⟩ := hpre
    obtain ⟨htyped, -, -⟩ := Operator.strip?_eq_some_iff.1 hstrip
    exact ⟨more ++ [' '], by simp [Suggestion.ofValue, htyped, ← hmore]⟩

/-! ## Where nothing is typed -/

theorem continues_empty (text : String) : continues "" text = true := rfl

theorem suggestKeys_empty (r : Registry) : suggestKeys r "" = r.entries.map .ofEntry := by
  have hall : r.entries.filter (fun e => continues "" e.1) = r.entries :=
    List.filter_eq_self.2 fun e _ => continues_empty e.1
  rw [suggestKeys, hall]

theorem suggestExamples_nil (today : Date) (kind : Kind) (symbol : List Char) :
    suggestExamples today kind symbol [] = (examples today kind).map (.ofValue symbol) := by
  have hall : (examples today kind).filter (fun e => [].isPrefixOf e.toList) =
      examples today kind := List.filter_eq_self.2 fun _ _ => rfl
  rw [suggestExamples, hall]

theorem suggestComparison_nil_ne_nil (today : Date) {c : Command}
    (hc : c.kind = .number ∨ c.kind = .date) : suggestComparison today c [] ≠ [] := by
  have hexamples : examples today c.kind ≠ [] := by
    rcases hc with hc | hc
    · simp [hc, examples]
    · simp [hc, examples]
  unfold suggestComparison
  cases hops : c.operators with
  | nil =>
    rw [suggestExamples_nil]
    simpa using hexamples
  | cons op ops => simp

/-- Behind a colon something is offered unless any text may follow. -/
theorem suggestValues_empty_iff (today : Date) {r : Registry} {e : Registry.Entry}
    (he : e ∈ r.entries) : suggestValues today e.2 "" = [] ↔ e.2.kind = .text := by
  have hchoices : e.2.choices.filter (continues "") = e.2.choices :=
    List.filter_eq_self.2 fun v _ => continues_empty v
  unfold suggestValues
  rw [hchoices]
  cases hkind : e.2.kind with
  | number =>
    have hne := suggestComparison_nil_ne_nil today (Or.inl hkind)
    simpa using hne
  | date =>
    have hne := suggestComparison_nil_ne_nil today (Or.inr hkind)
    simpa using hne
  | enumeration =>
    have hne := Registry.allowedValues_ne_nil he hkind
    simpa [Command.choices, hkind] using hne
  | boolean => simp [Command.choices, hkind]
  | text => simp [Command.choices, hkind]

end RowQuery.Editor
