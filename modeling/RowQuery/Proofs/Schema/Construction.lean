import RowQuery.Proofs.Schema.Registry

/-!
# Building a registry

Declarations are checked one by one, sorted by the lowercase forms of their keys, and then only
neighbours are compared.  Sorting brings equal forms together and keeps those of one form in the
given order, so that is enough, and the key that is reported is the second of its form.

* `Valid`: what a declaration must be by itself.
* `filter_sort`: sorting keeps the order of the declarations of one form.
* `ofEntries_of_perm`: the given order does not matter.
* `exists_repeated`: which key is reported.
* `ofEntries_characterised`: which declarations make a registry, and which one.
-/

namespace RowQuery.Registry

variable {r : Registry} {e : Entry} {l : List Entry}

@[ext] theorem ext {r s : Registry} (h : r.entries = s.entries) : r = s := by
  cases r
  cases s
  cases h
  rfl

/-! ## Declarations by themselves -/

/-- A declaration without faults. -/
structure Valid (e : Entry) : Prop where
  key_ne_nil : e.1.toList ≠ []
  isKeyChar_of_mem : ∀ c ∈ e.1.toList, Query.isKeyChar c = true
  values_ne_nil : e.2.kind = .enumeration → e.2.allowedValues ≠ []

theorem fault?_eq_none_iff_valid : fault? e = none ↔ Valid e := by
  rw [fault?_eq_none_iff]
  constructor
  · rintro ⟨hne, hchars, hvalues⟩
    exact ⟨hne, hchars, fun hkind hnil => hvalues ⟨hkind, hnil⟩⟩
  · intro h
    exact ⟨h.key_ne_nil, h.isKeyChar_of_mem, fun hv => h.values_ne_nil hv.1 hv.2⟩

/-! ## Sorting -/

theorem perm_sort (l : List Entry) : (sort l).Perm l :=
  List.mergeSort_perm l _

theorem sublist_sort {c : List Entry} (hc : c.Sublist l)
    (h : c.Pairwise fun a b => Text.fold a.1 ≤ Text.fold b.1) : c.Sublist (sort l) := by
  refine List.sublist_mergeSort ?_ ?_ (h.imp fun hab => decide_eq_true hab) hc
  · intro a b c hab hbc
    simp only [decide_eq_true_eq] at *
    exact String.le_trans hab hbc
  · intro a b
    simp only [Bool.or_eq_true, decide_eq_true_eq]
    exact String.le_total ..

/-- The declarations of one form stay in the given order. -/
theorem filter_sort (l : List Entry) (x : String) :
    (sort l).filter (fun e => Text.fold e.1 = x) = l.filter fun e => Text.fold e.1 = x := by
  have hpairwise : (l.filter fun e => Text.fold e.1 = x).Pairwise fun a b =>
      Text.fold a.1 ≤ Text.fold b.1 := by
    refine List.pairwise_of_forall_mem_list ?_
    intro a ha b hb
    have hax : Text.fold a.1 = x := by simpa using (List.mem_filter.1 ha).2
    have hbx : Text.fold b.1 = x := by simpa using (List.mem_filter.1 hb).2
    have hab : Text.fold a.1 = Text.fold b.1 := hax.trans hbx.symm
    exact hab ▸ String.le_refl (Text.fold a.1)
  have hsub := (sublist_sort List.filter_sublist hpairwise).filter fun e => Text.fold e.1 = x
  rw [List.filter_filter] at hsub
  simp only [Bool.and_self] at hsub
  exact (hsub.eq_of_length ((perm_sort l).filter _).length_eq.symm).symm

theorem nodup_folds_sort : ((sort l).map fun e => Text.fold e.1).Nodup ↔
    (l.map fun e => Text.fold e.1).Nodup :=
  ((perm_sort l).map _).nodup_iff

/-! ## Repeated forms -/

/-- In a sorted list whose first two forms differ, no other has the first one. -/
theorem fold_ne_of_mem {a b : Entry}
    (h : (a :: b :: l).Pairwise fun a b => Text.fold a.1 ≤ Text.fold b.1)
    (hab : Text.fold a.1 ≠ Text.fold b.1) : ∀ e ∈ b :: l, Text.fold e.1 ≠ Text.fold a.1 := by
  intro e he heq
  obtain ⟨ha, hb⟩ := List.pairwise_cons.1 h
  have hbe : Text.fold b.1 ≤ Text.fold e.1 := by
    rcases List.mem_cons.1 he with rfl | he
    · exact String.le_refl _
    · exact (List.pairwise_cons.1 hb).1 e he
  exact hab (String.le_antisymm (ha b (List.mem_cons_self ..)) (heq ▸ hbe))

theorem repeated?_eq_none_iff (h : l.Pairwise fun a b => Text.fold a.1 ≤ Text.fold b.1) :
    repeated? l = none ↔ (l.map fun e => Text.fold e.1).Nodup := by
  constructor
  · intro hnone
    refine List.pairwise_map.2 ((pairwise_lt_of_repeated?_eq_none h hnone).imp ?_)
    intro a b hlt
    exact String.ne_of_lt hlt
  · intro hnodup
    induction l with
    | nil => rfl
    | cons a t ih =>
      cases t with
      | nil => rfl
      | cons b t =>
        obtain ⟨ha, ht⟩ := List.nodup_cons.1 hnodup
        have hab : Text.fold a.1 ≠ Text.fold b.1 := fun hab => ha (by simp [hab])
        rw [repeated?, if_neg hab]
        exact ih (List.pairwise_cons.1 h).2 ht

theorem pairwise_lt_sort (h : (l.map fun e => Text.fold e.1).Nodup) :
    (sort l).Pairwise fun a b => Text.fold a.1 < Text.fold b.1 :=
  pairwise_lt_of_repeated?_eq_none (pairwise_sort l)
    ((repeated?_eq_none_iff (pairwise_sort l)).2 (nodup_folds_sort.2 h))

/-- There is only one strictly ascending order. -/
theorem eq_of_perm_of_pairwise_lt {m : List Entry} (h : m.Perm l)
    (hm : m.Pairwise fun a b => Text.fold a.1 < Text.fold b.1)
    (hl : l.Pairwise fun a b => Text.fold a.1 < Text.fold b.1) : m = l := by
  refine h.eq_of_pairwise ?_ hm hl
  intro a b _ _ hab hba
  exact absurd (String.lt_trans hab hba) (String.lt_irrefl _)

/-- The key that is reported is the second one of the least form that several keys have. -/
theorem exists_repeated {key : String}
    (h : l.Pairwise fun a b => Text.fold a.1 ≤ Text.fold b.1) (hkey : repeated? l = some key) :
    ∃ x first second others,
      (l.filter fun e => Text.fold e.1 = x) = first :: second :: others ∧ second.1 = key ∧
        ∀ y, 1 < l.countP (fun e => Text.fold e.1 = y) → x ≤ y := by
  induction l with
  | nil => cases hkey
  | cons a t ih =>
    cases t with
    | nil => cases hkey
    | cons b t =>
      obtain ⟨ha, ht⟩ := List.pairwise_cons.1 h
      rw [repeated?] at hkey
      split at hkey
      · next hab =>
        refine ⟨Text.fold a.1, a, b, t.filter fun e => Text.fold e.1 = Text.fold a.1, ?_, ?_, ?_⟩
        · simp [hab]
        · exact Option.some.inj hkey
        · intro y hy
          obtain ⟨e, he, hey⟩ := List.countP_pos_iff.1 (Nat.lt_trans Nat.zero_lt_one hy)
          obtain rfl : Text.fold e.1 = y := by simpa using hey
          rcases List.mem_cons.1 he with rfl | he
          · exact String.le_refl _
          · exact ha e he
      · next hab =>
        have hne := fold_ne_of_mem h hab
        obtain ⟨x, first, second, others, hfilter, hsecond, hleast⟩ := ih ht hkey
        refine ⟨x, first, second, others, ?_, hsecond, ?_⟩
        · have hmem : first ∈ (b :: t).filter fun e => Text.fold e.1 = x :=
            hfilter ▸ List.mem_cons_self ..
          obtain ⟨hfirst, hx⟩ := List.mem_filter.1 hmem
          obtain rfl : Text.fold first.1 = x := by simpa using hx
          rw [List.filter_cons_of_neg (by simpa using (hne first hfirst).symm), hfilter]
        · intro y hy
          refine hleast y ?_
          by_cases hay : Text.fold a.1 = y
          · have hzero : (b :: t).countP (fun e => Text.fold e.1 = y) = 0 :=
              List.countP_eq_zero.2 fun e he => by simpa [← hay] using hne e he
            rw [List.countP_cons_of_pos (by simpa using hay), hzero] at hy
            exact absurd hy (by decide)
          · rwa [List.countP_cons_of_neg (by simpa using hay)] at hy

/-! ## The registry -/

theorem ofEntries_eq_ok_iff : ofEntries l = .ok r ↔
    (∀ e ∈ l, fault? e = none) ∧ (l.map fun e => Text.fold e.1).Nodup ∧ r.entries = sort l := by
  rw [← nodup_folds_sort, ← repeated?_eq_none_iff (pairwise_sort l), ← List.findSome?_eq_none_iff]
  unfold ofEntries
  split
  · next hfault => simp [hfault]
  · next hfault =>
    split
    · next hkey => simp [hkey]
    · next hnone =>
      rw [Except.ok.injEq, Registry.ext_iff]
      simp [hfault, hnone, eq_comm]

theorem ofEntries_eq_error_iff {error : SchemaError} : ofEntries l = .error error ↔
    l.findSome? fault? = some error ∨
      l.findSome? fault? = none ∧ ∃ key, repeated? (sort l) = some key ∧
        error = .duplicateKey key := by
  unfold ofEntries
  split
  · next hfault => simp [hfault]
  · next hfault =>
    split
    · next hkey => simp [hfault, hkey, eq_comm]
    · next hnone => simp [hfault, hnone]

/-- A registry is built from its entries in any order. -/
theorem ofEntries_of_perm (h : l.Perm r.entries) : ofEntries l = .ok r := by
  have hnodup : (l.map fun e => Text.fold e.1).Nodup := (h.map _).nodup_iff.2 (nodup_folds r)
  have hperm : r.entries.Perm (sort l) := h.symm.trans (perm_sort l).symm
  exact ofEntries_eq_ok_iff.2 ⟨fun e he => r.faultless e (h.subset he), hnodup,
    eq_of_perm_of_pairwise_lt hperm r.ascending (pairwise_lt_sort hnodup)⟩

/-- What is found under a key, for the three ways to ask. -/
theorem lookups_of_perm (h : r.entries.Perm l) (key : String) :
    (∀ e ∈ l, Text.fold e.1 = Text.fold key →
      r.command? key = some e.2 ∧ r.declared? key = some e.1 ∧ r.isDeclared key = true) ∧
      ((∀ e ∈ l, Text.fold e.1 ≠ Text.fold key) →
        r.command? key = none ∧ r.declared? key = none ∧ r.isDeclared key = false) := by
  constructor
  · intro e he hfold
    have hmem : e ∈ r.entries := h.symm.subset he
    have hentry := entry?_eq_some_iff.2 ⟨hmem, hfold⟩
    refine ⟨?_, ?_, isDeclared_iff.2 ⟨e, hmem, hfold⟩⟩
    · rw [command?, hentry]
      rfl
    · rw [declared?, hentry]
      rfl
  · intro hno
    have hnot : ¬ r.Declares key := by
      rintro ⟨e, he, hfold⟩
      exact hno e (h.subset he) hfold
    have hentry := entry?_eq_none_iff.2 hnot
    refine ⟨?_, ?_, isDeclared_eq_false_iff.2 hnot⟩
    · rw [command?, hentry]
      rfl
    · rw [declared?, hentry]
      rfl

/-- **Which declarations make a registry, and which one.**  They do if each is valid and no two keys
have the same lowercase form; then the registry has them all in ascending order, however they were
arranged, and each key finds the one declaration with its lowercase form.  Otherwise the first
invalid declaration is reported, or, if there is none, the second key of the least form that several
keys have. -/
theorem ofEntries_characterised (l : List Entry) :
    ((∃ r, ofEntries l = .ok r) ↔
      (∀ e ∈ l, Valid e) ∧ (l.map fun e => Text.fold e.1).Nodup) ∧
    (∀ r, ofEntries l = .ok r →
      r.entries.Perm l ∧ r.keys.Perm (l.map (·.1)) ∧
        (r.entries.Pairwise fun a b => Text.fold a.1 < Text.fold b.1) ∧
        (r.keys.Pairwise fun a b => Text.fold a < Text.fold b) ∧
        (∀ m, m.Perm l → ofEntries m = .ok r) ∧
        ∀ key,
          (∀ e ∈ l, Text.fold e.1 = Text.fold key →
            r.command? key = some e.2 ∧ r.declared? key = some e.1 ∧ r.isDeclared key = true) ∧
          ((∀ e ∈ l, Text.fold e.1 ≠ Text.fold key) →
            r.command? key = none ∧ r.declared? key = none ∧ r.isDeclared key = false)) ∧
    ∀ error, ofEntries l = .error error →
      (∃ before e after, l = before ++ e :: after ∧ (∀ d ∈ before, Valid d) ∧ ¬ Valid e ∧
        fault? e = some error) ∨
      (∀ e ∈ l, Valid e) ∧ ∃ x first second others,
        (l.filter fun e => Text.fold e.1 = x) = first :: second :: others ∧
          error = .duplicateKey second.1 ∧
          ∀ y, 1 < l.countP (fun e => Text.fold e.1 = y) → x ≤ y := by
  simp only [← fault?_eq_none_iff_valid]
  refine ⟨?_, ?_, ?_⟩
  · constructor
    · rintro ⟨r, hr⟩
      obtain ⟨hvalid, hnodup, -⟩ := ofEntries_eq_ok_iff.1 hr
      exact ⟨hvalid, hnodup⟩
    · rintro ⟨hvalid, hnodup⟩
      have hfaultless : ∀ e ∈ sort l, fault? e = none :=
        fun e he => hvalid e ((perm_sort l).subset he)
      exact ⟨⟨sort l, pairwise_lt_sort hnodup, hfaultless⟩,
        ofEntries_eq_ok_iff.2 ⟨hvalid, hnodup, rfl⟩⟩
  · intro r hr
    obtain ⟨-, -, hentries⟩ := ofEntries_eq_ok_iff.1 hr
    have hperm : r.entries.Perm l := hentries ▸ perm_sort l
    refine ⟨hperm, hperm.map _, r.ascending, List.pairwise_map.2 r.ascending, ?_,
      lookups_of_perm hperm⟩
    intro m hm
    exact ofEntries_of_perm (hm.trans hperm.symm)
  · intro error herror
    rcases ofEntries_eq_error_iff.1 herror with hfault | ⟨hnone, key, hkey, rfl⟩
    · obtain ⟨before, e, after, hl, he, hbefore⟩ := List.findSome?_eq_some_iff.1 hfault
      exact Or.inl ⟨before, e, after, hl, hbefore, by simp [he], he⟩
    · obtain ⟨x, first, second, others, hfilter, rfl, hleast⟩ :=
        exists_repeated (pairwise_sort l) hkey
      rw [filter_sort] at hfilter
      refine Or.inr ⟨List.findSome?_eq_none_iff.1 hnone, x, first, second, others, hfilter, rfl, ?_⟩
      intro y hy
      exact hleast y (by rwa [(perm_sort l).countP_eq])

/-- Capital letters of two scripts, of which one has two small forms, and a key that is declared
twice. -/
theorem ofEntries_characterised_two_scripts :
    let street : Entry := ("ΟΔΟΣ", .ofKind .text "Street")
    let area : Entry := ("Area", .ofKind .number "Area")
    let again : Entry := ("AREA", .ofKind .text "")
    let r : Registry := ⟨[area, street], by decide +kernel, by decide +kernel⟩
    ofEntries [street, area] = .ok r ∧ r.declared? "οδος" = some "ΟΔΟΣ" ∧
      r.declared? "οδοσ" = none ∧ ofEntries [area, street] = .ok r ∧
      ofEntries [area, street, again] = .error (.duplicateKey "AREA") := by
  intro street area again r
  have hbuilt : ofEntries [street, area] = .ok r :=
    ofEntries_of_perm (List.Perm.swap area street [])
  obtain ⟨-, hok, -⟩ := ofEntries_characterised [street, area]
  obtain ⟨-, -, -, -, hany, hlookup⟩ := hok r hbuilt
  obtain ⟨-, hfound, -⟩ := (hlookup "οδος").1 street (by simp) (by decide +kernel)
  obtain ⟨-, hmissed, -⟩ := (hlookup "οδοσ").2 (by decide +kernel)
  refine ⟨hbuilt, hfound, hmissed, hany _ (List.Perm.swap street area []), ?_⟩
  obtain ⟨hbuilds, -, hfails⟩ := ofEntries_characterised [area, street, again]
  cases htwice : ofEntries [area, street, again] with
  | ok r =>
    obtain ⟨-, hnodup⟩ := hbuilds.1 ⟨r, htwice⟩
    exact absurd hnodup (by decide +kernel)
  | error error =>
    rcases hfails error htwice with ⟨before, e, after, hl, -, -, hfault⟩ | ⟨-, hsecond⟩
    · have he : e ∈ [area, street, again] := hl ▸ List.mem_append_right _ (List.mem_cons_self ..)
      have hvalid : ∀ e ∈ [area, street, again], fault? e = none := by decide +kernel
      rw [hvalid e he] at hfault
      cases hfault
    · obtain ⟨x, first, second, others, hfilter, rfl, -⟩ := hsecond
      have hfirst : first ∈ [area, street, again].filter fun e => Text.fold e.1 = x :=
        hfilter ▸ List.mem_cons_self ..
      obtain ⟨hmem, hx⟩ := List.mem_filter.1 hfirst
      obtain rfl : Text.fold first.1 = x := by simpa using hx
      have hseconds : ∀ e ∈ [area, street, again], ∀ d ∈ ([area, street, again].filter
          fun d => Text.fold d.1 = Text.fold e.1)[1]?, d.1 = "AREA" := by decide +kernel
      rw [hseconds first hmem second (by rw [hfilter]; rfl)]

end RowQuery.Registry
