import RowQuery.Text.Basic
import RowQuery.Proofs.Text.Escape

/-!
# Words

White space that no backslash escapes separates words.  Whether it is escaped is decided by what
comes before it, read from the left.

* `EndsWord t`, `BeginsWord s`: a word may end before `t`, or begin behind `s`.
* `Unbroken s w`: behind `s`, no white space in `w` is free.
* `endsWord_dropUntil`, `unbroken_append`: a run up to white space reaches to the end of a word and
  not beyond.
* `Unbroken.append`, `Unbroken.of_append`: a word in two parts, and `Unbroken.append_singleton`: one
  character more.
* `exists_last_of_not_unbroken`: the word behind the last white space that is free.
-/

namespace RowQuery.Text

/-- A word may end where this text begins: at white space or at the end of all. -/
def EndsWord (t : List Char) : Prop := ∀ c ∈ t.head?, isBlank c = true

/-- A word may begin where this text ends: at the start of all or behind free white space. -/
def BeginsWord (s : List Char) : Prop :=
  s = [] ∨ ∃ r c, s = r ++ [c] ∧ isBlank c = true ∧ escapesNext r = false

/-- Behind `s`, all white space in `w` is escaped. -/
def Unbroken (s w : List Char) : Prop :=
  ∀ x c y, w = x ++ c :: y → isBlank c = true → escapesNext (s ++ x) = true

theorem ne_of_isBlank {c d : Char} (hc : isBlank c = true) (hd : isBlank d = false) : c ≠ d := by
  intro h
  rw [h, hd] at hc
  exact absurd hc (by decide)

theorem isBlank_backslash : isBlank '\\' = false := by decide

theorem endsWord_nil : EndsWord [] := by
  intro c hc
  exact absurd hc (by simp)

theorem not_endsWord_cons {c : Char} (hc : isBlank c = false) (r : List Char) :
    ¬ EndsWord (c :: r) := by
  intro h
  have hb : isBlank c = true := h c rfl
  rw [hc] at hb
  exact absurd hb (by decide)

/-! ## Runs of one kind of character -/

theorem takeWhile_append_cons {p : Char → Bool} {c : Char} (hc : p c = false) (s t : List Char) :
    (s ++ c :: t).takeWhile p = s.takeWhile p ∧
      (s ++ c :: t).dropWhile p = s.dropWhile p ++ c :: t := by
  induction s with
  | nil => simp [hc]
  | cons x r ih => cases hx : p x <;> simp [hx, ih]

theorem takeWhile_append_stop {p : Char → Bool} {k r : List Char} (hk : ∀ c ∈ k, p c = true)
    (hr : ∀ c ∈ r.head?, p c = false) : (k ++ r).takeWhile p = k ∧ (k ++ r).dropWhile p = r := by
  rw [List.takeWhile_append_of_pos hk, List.dropWhile_append_of_pos hk]
  cases r with
  | nil => simp
  | cons c t => simp [hr c rfl]

theorem head?_append_false {p : Char → Bool} {s t : List Char} (hs : ∀ c ∈ s.head?, p c = false)
    (ht : ∀ c ∈ t.head?, p c = false) : ∀ c ∈ (s ++ t).head?, p c = false := by
  cases s with
  | nil => exact ht
  | cons x r => exact hs

/-! ## Where words end -/

theorem run_of_endsWord {t : List Char} (ht : EndsWord t) :
    takeUntil isBlank t = [] ∧ dropUntil isBlank t = t := by
  cases t with
  | nil => exact ⟨rfl, rfl⟩
  | cons c r =>
    have hc : isBlank c = true := ht c rfl
    have hne := ne_of_isBlank hc isBlank_backslash
    rw [takeUntil_cons hne, dropUntil_cons hne, if_pos hc, if_pos hc]
    exact ⟨rfl, rfl⟩

theorem endsWord_dropWhile (s : List Char) : EndsWord (s.dropWhile fun c => !isBlank c) := by
  intro c hc
  have h := List.head?_dropWhile_not (fun c => !isBlank c) s
  rw [Option.mem_def.1 hc] at h
  simpa using h

theorem endsWord_dropUntil (s : List Char) : EndsWord (dropUntil isBlank s) :=
  head?_dropUntil s

/-! ## Where words are unbroken -/

theorem exists_append_of_not_mem {u v x y : List Char} {c : Char} (h : u ++ v = x ++ c :: y)
    (hc : c ∉ u) : ∃ z, x = u ++ z ∧ v = z ++ c :: y := by
  rcases List.append_eq_append_iff.1 h with ⟨z, hx, hv⟩ | ⟨m, hu, hm⟩
  · exact ⟨z, hx, hv⟩
  · cases m with
    | nil => exact ⟨[], by simpa using hu.symm, by simpa using hm.symm⟩
    | cons d m =>
      obtain ⟨rfl, -⟩ := List.cons.inj hm
      exact absurd (by rw [hu]; simp) hc

theorem unbroken_append {s u v : List Char} (hs : escapesNext s = false)
    (hu : ∀ c ∈ u, isBlank c = false ∧ c ≠ '\\') (hv : dropUntil isBlank v = []) :
    Unbroken s (u ++ v) := by
  intro x c y hxy hc
  have hmem : c ∉ u := by
    intro h
    rw [(hu c h).1] at hc
    exact absurd hc (by decide)
  obtain ⟨z, rfl, rfl⟩ := exists_append_of_not_mem hxy hmem
  have hsu : escapesNext (s ++ u) = false := by
    rw [escapesNext_append hs]
    exact escapesNext_of_not_mem fun h => (hu _ h).2 rfl
  rw [← List.append_assoc, escapesNext_append hsu]
  exact escapesNext_of_dropUntil_eq_nil isBlank_backslash hv hc

theorem unbroken_of_not_blank {s w : List Char} (h : ∀ c ∈ w, isBlank c = false) :
    Unbroken s w := by
  intro x c y hw hc
  have hblank := h c (by rw [hw]; simp)
  rw [hblank] at hc
  exact absurd hc (by decide)

theorem unbroken_of_all {s w : List Char} (h : (w.all fun c => !isBlank c) = true) :
    Unbroken s w := by
  refine unbroken_of_not_blank fun c hc => ?_
  simpa using List.all_eq_true.1 h c hc

theorem Unbroken.append {s u v : List Char} (hu : Unbroken s u) (hv : Unbroken (s ++ u) v) :
    Unbroken s (u ++ v) := by
  intro x c y hxy hc
  rcases List.append_eq_append_iff.1 hxy with ⟨z, rfl, rfl⟩ | ⟨m, rfl, hm⟩
  · rw [← List.append_assoc]
    exact hv z c y rfl hc
  · cases m with
    | nil =>
      have hbegin := hv [] c y hm.symm hc
      rwa [List.append_nil, List.append_nil] at hbegin
    | cons d m =>
      obtain ⟨rfl, -⟩ := List.cons.inj hm
      exact hu x c m rfl hc

theorem Unbroken.append_singleton {s w : List Char} {c : Char} (h : Unbroken s w)
    (hc : isBlank c = true → escapesNext (s ++ w) = true) : Unbroken s (w ++ [c]) := by
  refine h.append ?_
  intro x d y hd hblank
  obtain ⟨rfl, rfl, rfl⟩ : x = [] ∧ c = d ∧ y = [] := by
    cases x with
    | nil => simpa [eq_comm] using hd
    | cons a x => simp at hd
  rw [List.append_nil]
  exact hc hblank

/-- Behind free white space it does not matter what comes before. -/
theorem unbroken_iff_of_beginsWord {s w : List Char} (h : BeginsWord s) :
    Unbroken s w ↔ Unbroken [] w := by
  have hs : escapesNext s = false := by
    rcases h with rfl | ⟨r, c, rfl, hc, hr⟩
    · rfl
    · rw [escapesNext_append hr, escapesNext_of_not_mem]
      simpa using (ne_of_isBlank hc isBlank_backslash).symm
  unfold Unbroken
  simp only [escapesNext_append hs, List.nil_append]

/-- Where white space is free, one is the last. -/
theorem exists_last_of_not_unbroken {s w : List Char} (h : ¬ Unbroken s w) :
    ∃ x c y, w = x ++ c :: y ∧ isBlank c = true ∧ escapesNext (s ++ x) = false ∧
      Unbroken [] y := by
  induction w generalizing s with
  | nil => exact absurd (unbroken_of_not_blank (by simp)) h
  | cons d w ih =>
    by_cases hw : Unbroken (s ++ [d]) w
    · -- only the first character can be free
      have hd : isBlank d = true ∧ escapesNext s = false := by
        refine Classical.byContradiction fun hkept => h (Unbroken.append (u := [d]) ?_ hw)
        exact (unbroken_of_not_blank (w := []) (by simp)).append_singleton (by simpa using hkept)
      have hbegins : BeginsWord (s ++ [d]) := Or.inr ⟨s, d, rfl, hd⟩
      refine ⟨[], d, w, rfl, hd.1, ?_, (unbroken_iff_of_beginsWord hbegins).1 hw⟩
      rw [List.append_nil, hd.2]
    · obtain ⟨x, c, y, rfl, hc, hx, hy⟩ := ih hw
      refine ⟨d :: x, c, y, rfl, hc, ?_, hy⟩
      rwa [List.append_assoc, List.singleton_append] at hx

theorem Unbroken.of_append {s w t : List Char} (h : Unbroken s (w ++ t)) : Unbroken s w := by
  intro x c y hw hc
  exact h x c (y ++ t) (by rw [hw, List.append_assoc, List.cons_append]) hc

end RowQuery.Text
