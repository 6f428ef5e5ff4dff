import RowQuery.Text.Basic

/-!
# Texts without white space at their ends

* `Trimmed`: a text that neither begins nor ends with white space.
* `trim_eq_self_iff`: such texts are kept, and `trimmed_trim`: all others are made such.
* `isBlank_or_mem_trim`: nothing but white space is cut off.
-/

namespace RowQuery.Text

variable {s : List Char} {c : Char}

/-- A text neither begins nor ends with white space. -/
def Trimmed (s : List Char) : Prop :=
  (∀ c ∈ s.head?, isBlank c = false) ∧ ∀ c ∈ s.getLast?, isBlank c = false

instance (s : List Char) : Decidable (Trimmed s) :=
  inferInstanceAs (Decidable ((∀ c ∈ s.head?, _) ∧ ∀ c ∈ s.getLast?, _))

/-! ## At the start -/

theorem trimLeft_cons (h : isBlank c = false) (r : List Char) : trimLeft (c :: r) = c :: r := by
  rw [trimLeft, List.dropWhile_cons, h, if_neg (by decide)]

theorem trimLeft_of_head (h : ∀ c ∈ s.head?, isBlank c = false) : trimLeft s = s := by
  cases s with
  | nil => rfl
  | cons c r => exact trimLeft_cons (h c rfl) r

theorem not_isBlank_of_head_trimLeft (s : List Char) :
    ∀ c ∈ (trimLeft s).head?, isBlank c = false := by
  intro c hc
  have hhead := List.head?_dropWhile_not isBlank s
  rw [← trimLeft, Option.mem_def.1 hc] at hhead
  exact hhead

theorem trimLeft_suffix (s : List Char) : trimLeft s <:+ s :=
  List.dropWhile_suffix isBlank

theorem isBlank_or_mem_trimLeft (h : c ∈ s) : isBlank c = true ∨ c ∈ trimLeft s := by
  have happ : s.takeWhile isBlank ++ trimLeft s = s := List.takeWhile_append_dropWhile
  rw [← happ] at h
  exact (List.mem_append.1 h).imp (List.all_eq_true.1 List.all_takeWhile c) id

/-! ## At both ends -/

/-- What is left begins as what was left after the start had been cut. -/
theorem trim_prefix_trimLeft (s : List Char) : trim s <+: trimLeft s := by
  have hsuffix : (trimLeft (trimLeft s).reverse).reverse <+: (trimLeft s).reverse.reverse :=
    List.reverse_prefix.2 (trimLeft_suffix _)
  rwa [List.reverse_reverse] at hsuffix

theorem trimmed_trim (s : List Char) : Trimmed (trim s) := by
  constructor
  · intro c hc
    obtain ⟨t, ht⟩ := trim_prefix_trimLeft s
    refine not_isBlank_of_head_trimLeft s c ?_
    rw [← ht, List.head?_append, Option.mem_def.1 hc]
    rfl
  · intro c hc
    rw [trim, List.getLast?_reverse] at hc
    exact not_isBlank_of_head_trimLeft _ c hc

theorem trim_eq_self_iff : trim s = s ↔ Trimmed s := by
  constructor
  · intro h
    rw [← h]
    exact trimmed_trim s
  · rintro ⟨hhead, hlast⟩
    have hright : trimLeft s.reverse = s.reverse :=
      trimLeft_of_head (by rwa [List.head?_reverse])
    rw [trim, trimLeft_of_head hhead, hright, List.reverse_reverse]

theorem trim_of_not_blank (h : ∀ c ∈ s, isBlank c = false) : trim s = s :=
  trim_eq_self_iff.2 ⟨fun c hc => h c (List.mem_of_mem_head? hc),
    fun c hc => h c (List.mem_of_getLast? hc)⟩

theorem isBlank_or_mem_trim (h : c ∈ s) : isBlank c = true ∨ c ∈ trim s := by
  refine (isBlank_or_mem_trimLeft h).elim Or.inl fun hleft => ?_
  rw [trim, List.mem_reverse]
  exact isBlank_or_mem_trimLeft (List.mem_reverse.2 hleft)

end RowQuery.Text
