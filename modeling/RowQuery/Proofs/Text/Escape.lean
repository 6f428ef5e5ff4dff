import RowQuery.Text.Basic

/-!
# Runs with escapes, read in two parts

`escapesNext s` says that `s`, read from the left, ends on a backslash that escapes what comes
next.  This is all that a run has to remember of what it has read:

* `takeUntil_append_of_stopped`: a run that has ended does not see what follows.
* `takeUntil_append_of_running`: a run that has not ended goes on with what follows, and
  `takeUntil_append_of_escaping`: behind its first character if that one is escaped.
* `escapesNext_of_dropUntil_eq_nil`: in a run all stopping characters are escaped, and
  `head?_dropUntil`: the first one that is not ends it.
* `escapesNext_append_singleton`: the last character and what is before it decide.
* `length_unescape_le`, `not_mem_of_unescape_eq`: only a text without backslashes stands for itself.
-/

namespace RowQuery.Text

/-- Whether a text, read from the left, ends on a backslash that escapes what comes next. -/
def escapesNext : List Char → Bool
  | [] => false
  | ['\\'] => true
  | '\\' :: _ :: r => escapesNext r
  | _ :: r => escapesNext r

/-- A text is read from the left in steps: an escaped character together with its backslash, or a
character that is no backslash.  A backslash at the end is left over. -/
@[elab_as_elim] theorem escapeInduction {motive : List Char → Prop} (nil : motive [])
    (dangling : motive ['\\']) (escaped : ∀ c r, motive r → motive ('\\' :: c :: r))
    (plain : ∀ c r, c ≠ '\\' → motive r → motive (c :: r)) : ∀ s, motive s
  | [] => nil
  | [c] => by
    by_cases hc : c = '\\'
    · exact hc ▸ dangling
    · exact plain c [] hc nil
  | c :: d :: r => by
    by_cases hc : c = '\\'
    · exact hc ▸ escaped d r (escapeInduction nil dangling escaped plain r)
    · exact plain c (d :: r) hc (escapeInduction nil dangling escaped plain (d :: r))

/-! ## One step -/

theorem takeUntil_cons {stop : Char → Bool} {c : Char} (hc : c ≠ '\\') (r : List Char) :
    takeUntil stop (c :: r) = if stop c then [] else c :: takeUntil stop r := by
  rw [takeUntil.eq_3]
  intro d t h
  exact absurd h hc

theorem dropUntil_cons {stop : Char → Bool} {c : Char} (hc : c ≠ '\\') (r : List Char) :
    dropUntil stop (c :: r) = if stop c then c :: r else dropUntil stop r := by
  rw [dropUntil.eq_3]
  intro d t h
  exact absurd h hc

theorem dropUntil_backslash {stop : Char → Bool} (hstop : stop '\\' = false) :
    dropUntil stop ['\\'] = [] := by
  rw [dropUntil.eq_3 _ _ _ (by simp), hstop]
  rfl

theorem unescape_cons {c : Char} (hc : c ≠ '\\') (r : List Char) :
    unescape (c :: r) = c :: unescape r := by
  rw [unescape.eq_3]
  intro d t h
  exact absurd h hc

theorem escapesNext_cons {c : Char} (hc : c ≠ '\\') (r : List Char) :
    escapesNext (c :: r) = escapesNext r := by
  rw [escapesNext.eq_4]
  · intro h
    exact absurd h hc
  · intro d t h
    exact absurd h hc

/-! ## What follows -/

theorem escapesNext_append {a : List Char} (h : escapesNext a = false) (s : List Char) :
    escapesNext (a ++ s) = escapesNext s := by
  induction a using escapeInduction with
  | nil => rfl
  | dangling => exact absurd h (by decide)
  | escaped c r ih => exact ih h
  | plain c r hc ih =>
    rw [escapesNext_cons hc] at h
    rw [List.cons_append, escapesNext_cons hc]
    exact ih h

/-- Two backslashes in a row take each other out of their role. -/
theorem escapesNext_append_singleton (s : List Char) (c : Char) :
    escapesNext (s ++ [c]) = (c == '\\' && !escapesNext s) := by
  induction s using escapeInduction with
  | nil =>
    by_cases hc : c = '\\'
    · subst hc
      rfl
    · rw [List.nil_append, escapesNext_cons hc]
      simp [hc, escapesNext]
  | dangling => simp [escapesNext]
  | escaped d r ih => exact ih
  | plain d r hd ih => rw [List.cons_append, escapesNext_cons hd, escapesNext_cons hd, ih]

theorem exists_eq_append_backslash {s : List Char} (h : escapesNext s = true) :
    ∃ x, s = x ++ ['\\'] ∧ escapesNext x = false := by
  have hne : s ≠ [] := by
    intro hs
    rw [hs] at h
    exact absurd h (by decide)
  have hs := List.dropLast_concat_getLast hne
  rw [← hs, escapesNext_append_singleton, Bool.and_eq_true, beq_iff_eq, Bool.not_eq_true'] at h
  exact ⟨s.dropLast, h.1 ▸ hs.symm, h.2⟩

theorem escapesNext_of_not_mem {s : List Char} (h : '\\' ∉ s) : escapesNext s = false := by
  induction s with
  | nil => rfl
  | cons c r ih =>
    rw [List.mem_cons, not_or] at h
    rw [escapesNext_cons (Ne.symm h.1)]
    exact ih h.2

theorem unescape_eq_nil_iff {s : List Char} : unescape s = [] ↔ s = [] := by
  cases s using escapeInduction with
  | nil => simp [unescape]
  | dangling => simp [unescape]
  | escaped c r ih => simp [unescape]
  | plain c r hc ih => simp [unescape_cons hc]

theorem unescape_append {a : List Char} (h : escapesNext a = false) (s : List Char) :
    unescape (a ++ s) = unescape a ++ unescape s := by
  induction a using escapeInduction with
  | nil => rfl
  | dangling => exact absurd h (by decide)
  | escaped c r ih => exact congrArg (c :: ·) (ih h)
  | plain c r hc ih =>
    rw [escapesNext_cons hc] at h
    rw [List.cons_append, unescape_cons hc, unescape_cons hc, ih h, List.cons_append]

theorem length_unescape_le (s : List Char) : (unescape s).length ≤ s.length := by
  induction s using escapeInduction with
  | nil => exact Nat.le_refl _
  | dangling => exact Nat.le_refl _
  | escaped c r ih =>
    simp only [unescape, List.length_cons]
    omega
  | plain c r hc ih =>
    rw [unescape_cons hc]
    simp only [List.length_cons]
    omega

/-- Each escape makes a text shorter. -/
theorem unescape_eq_self {s : List Char} (h : s.length ≤ (unescape s).length) : unescape s = s := by
  induction s using escapeInduction with
  | nil => rfl
  | dangling => rfl
  | escaped c r ih =>
    have hle := length_unescape_le r
    simp only [unescape, List.length_cons] at h
    omega
  | plain c r hc ih =>
    rw [unescape_cons hc] at h ⊢
    simp only [List.length_cons] at h
    rw [ih (by omega)]

theorem not_mem_of_unescape_eq {s : List Char} (h : unescape s = s)
    (he : escapesNext s = false) : '\\' ∉ s := by
  induction s using escapeInduction with
  | nil => exact List.not_mem_nil
  | dangling => exact absurd he (by decide)
  | escaped c r ih =>
    have hle := length_unescape_le r
    have hlen := congrArg List.length h
    simp only [unescape, List.length_cons] at hlen
    omega
  | plain c r hc ih =>
    rw [unescape_cons hc] at h
    rw [escapesNext_cons hc] at he
    rw [List.mem_cons, not_or]
    exact ⟨Ne.symm hc, ih (List.cons.inj h).2 he⟩

/-! ## Runs -/

section Runs

variable {stop : Char → Bool}

theorem length_takeUntil_le (s : List Char) : (takeUntil stop s).length ≤ s.length := by
  have h := congrArg List.length (takeUntil_append_dropUntil stop s)
  rw [List.length_append] at h
  omega

theorem dropUntil_takeUntil (s : List Char) : dropUntil stop (takeUntil stop s) = [] := by
  fun_induction takeUntil stop s with
  | case1 => rfl
  | case2 c r ih => exact ih
  | case3 c r hn h => rfl
  | case4 c r hn h ih =>
    by_cases hc : c = '\\'
    · -- the backslash is the last character, or it would escape the next one
      subst hc
      cases r with
      | nil => exact dropUntil_backslash (by simpa using h)
      | cons d t => exact (hn d t rfl rfl).elim
    · rw [dropUntil_cons hc, if_neg h]
      exact ih

theorem takeUntil_eq_self {s : List Char} (h : dropUntil stop s = []) : takeUntil stop s = s := by
  have ha := takeUntil_append_dropUntil stop s
  rwa [h, List.append_nil] at ha

/-- A run that has ended does not see what follows. -/
theorem takeUntil_append_of_stopped (hstop : stop '\\' = false) {s : List Char}
    (h : dropUntil stop s ≠ []) (t : List Char) :
    takeUntil stop (s ++ t) = takeUntil stop s ∧
      dropUntil stop (s ++ t) = dropUntil stop s ++ t := by
  induction s using escapeInduction with
  | nil => exact absurd rfl h
  | dangling => exact absurd (dropUntil_backslash hstop) h
  | escaped c r ih =>
    obtain ⟨ht, hd⟩ := ih h
    exact ⟨congrArg (fun u => '\\' :: c :: u) ht, hd⟩
  | plain c r hc ih =>
    rw [List.cons_append]
    simp only [takeUntil_cons hc, dropUntil_cons hc] at h ⊢
    by_cases hs : stop c
    · simp only [if_pos hs, List.cons_append, and_self]
    · simp only [if_neg hs] at h ⊢
      obtain ⟨ht, hd⟩ := ih h
      exact ⟨congrArg (c :: ·) ht, hd⟩

/-- A run that has not ended goes on with what follows. -/
theorem takeUntil_append_of_running {s : List Char} (h : dropUntil stop s = [])
    (he : escapesNext s = false) (t : List Char) :
    takeUntil stop (s ++ t) = s ++ takeUntil stop t ∧
      dropUntil stop (s ++ t) = dropUntil stop t := by
  induction s using escapeInduction with
  | nil => exact ⟨rfl, rfl⟩
  | dangling => exact absurd he (by decide)
  | escaped c r ih =>
    obtain ⟨ht, hd⟩ := ih h he
    exact ⟨congrArg (fun u => '\\' :: c :: u) ht, hd⟩
  | plain c r hc ih =>
    rw [escapesNext_cons hc] at he
    rw [dropUntil_cons hc] at h
    rw [List.cons_append, takeUntil_cons hc, dropUntil_cons hc]
    by_cases hs : stop c
    · simp [hs] at h
    · rw [if_neg hs] at h ⊢
      rw [if_neg hs]
      obtain ⟨ht, hd⟩ := ih h he
      exact ⟨congrArg (c :: ·) ht, hd⟩

theorem dropUntil_eq_nil_of_append (hstop : stop '\\' = false) {x y : List Char}
    (h : dropUntil stop (x ++ y) = []) : dropUntil stop x = [] := by
  by_cases hx : dropUntil stop x = []
  · exact hx
  · rw [(takeUntil_append_of_stopped hstop hx y).2] at h
    exact (List.append_eq_nil_iff.1 h).1

/-- A run that ends on an escaping backslash takes the next character, whatever it is. -/
theorem takeUntil_append_of_escaping (hstop : stop '\\' = false) {s : List Char}
    (h : dropUntil stop s = []) (he : escapesNext s = true) (c : Char) (t : List Char) :
    takeUntil stop (s ++ c :: t) = s ++ c :: takeUntil stop t ∧
      dropUntil stop (s ++ c :: t) = dropUntil stop t := by
  obtain ⟨x, rfl, hx⟩ := exists_eq_append_backslash he
  have hrun := takeUntil_append_of_running (dropUntil_eq_nil_of_append hstop h) hx ('\\' :: c :: t)
  rw [List.append_assoc, List.singleton_append, hrun.1, hrun.2, List.append_assoc]
  exact ⟨rfl, rfl⟩

/-- A run ends at a stopping character or at the end of the text. -/
theorem head?_dropUntil (s : List Char) : ∀ c ∈ (dropUntil stop s).head?, stop c = true := by
  induction s using escapeInduction with
  | nil =>
    intro c hc
    exact absurd hc (by simp [dropUntil])
  | dangling =>
    intro c hc
    rw [dropUntil.eq_3 _ _ _ (by simp)] at hc
    by_cases hs : stop '\\' = true
    · rw [if_pos hs] at hc
      obtain rfl : '\\' = c := by simpa using hc
      exact hs
    · rw [if_neg hs] at hc
      exact absurd hc (by simp [dropUntil])
  | escaped c r ih => exact ih
  | plain c r hc ih =>
    rw [dropUntil_cons hc]
    by_cases hs : stop c = true
    · rw [if_pos hs]
      intro d hd
      obtain rfl : c = d := by simpa using hd
      exact hs
    · rw [if_neg hs]
      exact ih

/-- Only at the end of the text can a run leave a backslash without its character. -/
theorem dropUntil_eq_nil_of_escapesNext (hstop : stop '\\' = false) {s : List Char}
    (h : escapesNext (takeUntil stop s) = true) : dropUntil stop s = [] := by
  have happ := takeUntil_append_dropUntil stop s
  cases hd : dropUntil stop s with
  | nil => rfl
  | cons c r =>
    have htaken := (takeUntil_append_of_escaping hstop (dropUntil_takeUntil s) h c r).1
    rw [← hd, happ] at htaken
    have hlen := congrArg List.length htaken
    simp only [List.length_append, List.length_cons] at hlen
    omega

/-- In a run, every stopping character is escaped. -/
theorem escapesNext_of_dropUntil_eq_nil (hstop : stop '\\' = false) {x y : List Char} {c : Char}
    (h : dropUntil stop (x ++ c :: y) = []) (hc : stop c = true) : escapesNext x = true := by
  cases he : escapesNext x with
  | true => rfl
  | false =>
    have hne : c ≠ '\\' := by
      intro hb
      rw [hb, hstop] at hc
      exact absurd hc (by decide)
    have hx := dropUntil_eq_nil_of_append hstop h
    rw [(takeUntil_append_of_running hx he _).2, dropUntil_cons hne, if_pos hc] at h
    exact absurd h (by simp)

end Runs

end RowQuery.Text
