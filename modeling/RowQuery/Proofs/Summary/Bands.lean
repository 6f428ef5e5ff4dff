import RowQuery.Proofs.Number.Decimal
import RowQuery.Proofs.Rows.Comparison
import RowQuery.Proofs.Rows.UnknownKeys
import RowQuery.Proofs.Summary.Metrics
import RowQuery.Query.Reader

/-!
# Bands of health and filters by health

The bands of a summary are told apart by a chain of comparisons, and a filter compares the health of
a row with the numbers that are typed.  Both know the same bands: a row is counted in a band if it
is selected by the filter for it.

* `Band.Covers`: the numbers in a band, by their exact values; an edge belongs to the band above it.
* `Band.ofHealth_eq_iff`: the chain of comparisons finds the band that covers a number.
* `accepts_filter_iff`: what the filter for a band asks of a row.
* `bands_eq_selections`: the bands of a summary are the sizes of selections.
-/

namespace RowQuery.Summary

open Query (Token)
open Rows (Accessor Selector UnknownKeys)

/-! ## Edges -/

namespace Band

/-- The least whole number in a band. -/
def floor? : Band → Option Nat
  | .critical => none
  | .poor => some 40
  | .fair => some 60
  | .good => some 80
  | .excellent => some 95

/-- The least whole number above a band. -/
def limit? : Band → Option Nat
  | .critical => some 40
  | .poor => some 60
  | .fair => some 80
  | .good => some 95
  | .excellent => none

/-- Whether a number of units lies in a band. -/
def Covers (band : Band) (units : Int) : Prop :=
  (∀ n ∈ band.floor?, (n * unitsPerOne : Int) ≤ units) ∧
    ∀ n ∈ band.limit?, units < (n * unitsPerOne : Int)

/-- The filter for the rows in a band. -/
def filter : Band → String
  | .critical => "health:<40"
  | .poor => "health:>=40 health:<60"
  | .fair => "health:>=60 health:<80"
  | .good => "health:>=80 health:<95"
  | .excellent => "health:>=95"

/-- The edges of the bands. -/
theorem covers_iff (band : Band) (units : Int) : band.Covers units ↔
    match band with
    | .critical => units < (40 * unitsPerOne : Int)
    | .poor => (40 * unitsPerOne : Int) ≤ units ∧ units < (60 * unitsPerOne : Int)
    | .fair => (60 * unitsPerOne : Int) ≤ units ∧ units < (80 * unitsPerOne : Int)
    | .good => (80 * unitsPerOne : Int) ≤ units ∧ units < (95 * unitsPerOne : Int)
    | .excellent => (95 * unitsPerOne : Int) ≤ units := by
  unfold Covers
  generalize (unitsPerOne : Int) = one
  cases band <;> simp [floor?, limit?]

/-- No number lies in two bands. -/
theorem eq_of_covers {a b : Band} {units : Int} (ha : a.Covers units) (hb : b.Covers units) :
    a = b := by
  have hone := unitsPerOne_pos
  rw [covers_iff] at ha hb
  generalize unitsPerOne = one at *
  cases a <;> cases b <;> first | rfl | (dsimp only at ha hb; omega)

end Band

/-- The edges of the bands are doubles themselves. -/
theorem position_edge : ∀ n ∈ [40, 60, 80, 95],
    (Double.ofNat n).position = some (n * unitsPerOne : Int) := by
  decide +kernel

theorem lt_iff {x y : Double} {m n : Int} (hx : x.position = some m) (hy : y.position = some n) :
    x.lt y = true ↔ m < n := by
  rw [Double.lt, hx, hy, decide_eq_true_eq]

namespace Band

/-- Each number lies in the band that the chain of comparisons finds. -/
theorem covers_ofHealth {x : Double} {units : Int} (h : x.position = some units) :
    (ofHealth x).Covers units := by
  have hcovers (band : Band) := covers_iff band units
  simp only [ofHealth, lt_iff h (position_edge 40 (by decide)),
    lt_iff h (position_edge 60 (by decide)), lt_iff h (position_edge 80 (by decide)),
    lt_iff h (position_edge 95 (by decide))]
  generalize (unitsPerOne : Int) = one at *
  split
  · rw [hcovers]
    omega
  split
  · rw [hcovers]
    omega
  split
  · rw [hcovers]
    omega
  split <;> rw [hcovers] <;> omega

theorem ofHealth_eq_iff {x : Double} {units : Int} (h : x.position = some units) (band : Band) :
    ofHealth x = band ↔ band.Covers units := by
  constructor
  · rintro rfl
    exact covers_ofHealth h
  · exact eq_of_covers (covers_ofHealth h)

end Band

/-! ## Comparing numbers -/

/-- The exact value of the finite number that a text spells, in units. -/
def unitsOf? (text : String) : Option Int :=
  (number? text.toList).bind Double.position

theorem place?_eq_unitsOf? (text : String) : Rows.place? (some .number) text = unitsOf? text :=
  if_neg (by decide)

variable {actual expected : String} {limit : Int}

theorem order?_eq (actual : String) (h : unitsOf? expected = some limit) :
    (Rows.order? (some .number) actual expected = none ∧ unitsOf? actual = none) ∨
      ∃ order units, Rows.order? (some .number) actual expected = some order ∧
        unitsOf? actual = some units ∧ (order = .lt ↔ units < limit) := by
  have hexpected := (place?_eq_unitsOf? expected).trans h
  cases hunits : unitsOf? actual with
  | none =>
    have hno : ¬ (Rows.Spells (some .number) actual ∧ Rows.Spells (some .number) expected) := by
      rintro ⟨hspells, -⟩
      obtain ⟨units, hplace⟩ := Rows.spells_iff.1 hspells
      rw [place?_eq_unitsOf?, hunits] at hplace
      cases hplace
    exact Or.inl ⟨(Rows.order?_of_not_spells hno).trans (if_neg (by decide)), rfl⟩
  | some units =>
    have hactual := (place?_eq_unitsOf? actual).trans hunits
    exact Or.inr ⟨compare units limit, units, Rows.order?_of_place hactual hexpected, rfl,
      Int.compare_eq_lt⟩

/-- A text that spells no number is neither below a number nor at least as large. -/
theorem holds_less_iff (h : unitsOf? expected = some limit) :
    Rows.holds (some .number) .less actual expected = true ↔
      ∃ units ∈ unitsOf? actual, units < limit := by
  obtain ⟨hnone, hno⟩ | ⟨order, units, hsome, hunits, hlt⟩ := order?_eq actual h
  · simp [Rows.holds, hnone, hno]
  · simp [Rows.holds, hsome, hunits, hlt]

theorem holds_atLeast_iff (h : unitsOf? expected = some limit) :
    Rows.holds (some .number) .atLeast actual expected = true ↔
      ∃ units ∈ unitsOf? actual, limit ≤ units := by
  obtain ⟨hnone, hno⟩ | ⟨order, units, hsome, hunits, hlt⟩ := order?_eq actual h
  · simp [Rows.holds, hnone, hno]
  · simp [Rows.holds, hsome, hunits, hlt]

/-! ## Filters -/

/-- The exact value of the health of a row, if it is a finite number. -/
def healthUnits? {ρ : Type} (accessor : Accessor ρ) (row : ρ) : Option Int :=
  (accessor row "health").bind unitsOf?

/-- Selects rows by the keys of the dashboard, each of which names its own field. -/
def dashboardSelector {ρ : Type} (accessor : Accessor ρ) (policy : UnknownKeys) : Selector ρ :=
  ⟨.dashboard, accessor, .empty, policy⟩

theorem entry?_health : Registry.dashboard.entry? "health" =
    some ("health", .ofKind .number "Health index, 0-100") := by
  decide +kernel

theorem unitsOf?_edge : ∀ e ∈ [("40", 40), ("60", 60), ("80", 80), ("95", 95)],
    unitsOf? e.1 = some (e.2 * unitsPerOne : Int) := by
  decide +kernel

section Filters

variable {ρ : Type} {accessor : Accessor ρ} {policy : UnknownKeys} {row : ρ} {span : Query.Span}

theorem accepts_health {t : Token} (hkey : t.key = "health") :
    (dashboardSelector accessor policy).accepts row [t] =
      (accessor row "health").any fun actual =>
        Rows.holds (some .number) t.operator actual t.value := by
  have hentry : (dashboardSelector accessor policy).registry.entry? t.key =
      some ("health", .ofKind .number "Health index, 0-100") := hkey ▸ entry?_health
  rw [Selector.accepts_of_entry hentry]
  rfl

theorem accepts_less_iff (h : unitsOf? expected = some limit) :
    (dashboardSelector accessor policy).accepts row [⟨"health", .less, expected, span⟩] = true ↔
      ∃ units ∈ healthUnits? accessor row, units < limit := by
  rw [accepts_health rfl, Option.any_eq_true, healthUnits?]
  cases accessor row "health" with
  | none => simp
  | some text => simp [holds_less_iff h]

theorem accepts_atLeast_iff (h : unitsOf? expected = some limit) :
    (dashboardSelector accessor policy).accepts row [⟨"health", .atLeast, expected, span⟩] = true ↔
      ∃ units ∈ healthUnits? accessor row, limit ≤ units := by
  rw [accepts_health rfl, Option.any_eq_true, healthUnits?]
  cases accessor row "health" with
  | none => simp
  | some text => simp [holds_atLeast_iff h]

theorem accepts_between_iff {lower upper : String} {least : Int} {first second : Query.Span}
    (hlower : unitsOf? lower = some least) (hupper : unitsOf? upper = some limit) :
    (dashboardSelector accessor policy).accepts row
        [⟨"health", .atLeast, lower, first⟩, ⟨"health", .less, upper, second⟩] = true ↔
      ∃ units ∈ healthUnits? accessor row, least ≤ units ∧ units < limit := by
  rw [Selector.accepts_cons, Bool.and_eq_true, accepts_atLeast_iff hlower, accepts_less_iff hupper]
  cases healthUnits? accessor row <;> simp

/-- The tokens of the filter for a band compare health with the edges of the band. -/
theorem accepts_filter_iff (accessor : Accessor ρ) (policy : UnknownKeys) (row : ρ) (band : Band) :
    (dashboardSelector accessor policy).accepts row (Query.parse band.filter) = true ↔
      ∃ units ∈ healthUnits? accessor row, band.Covers units := by
  have h40 := unitsOf?_edge ("40", 40) (by decide)
  have h60 := unitsOf?_edge ("60", 60) (by decide)
  have h80 := unitsOf?_edge ("80", 80) (by decide)
  have h95 := unitsOf?_edge ("95", 95) (by decide)
  cases band with
  | critical =>
    have htokens : Query.parse "health:<40" = [⟨"health", .less, "40", ⟨0, 10⟩⟩] := by
      decide +kernel
    rw [Band.filter, htokens, accepts_less_iff h40]
    simp only [Band.covers_iff]
  | poor =>
    have htokens : Query.parse "health:>=40 health:<60" =
        [⟨"health", .atLeast, "40", ⟨0, 11⟩⟩, ⟨"health", .less, "60", ⟨12, 22⟩⟩] := by
      decide +kernel
    rw [Band.filter, htokens, accepts_between_iff h40 h60]
    simp only [Band.covers_iff]
  | fair =>
    have htokens : Query.parse "health:>=60 health:<80" =
        [⟨"health", .atLeast, "60", ⟨0, 11⟩⟩, ⟨"health", .less, "80", ⟨12, 22⟩⟩] := by
      decide +kernel
    rw [Band.filter, htokens, accepts_between_iff h60 h80]
    simp only [Band.covers_iff]
  | good =>
    have htokens : Query.parse "health:>=80 health:<95" =
        [⟨"health", .atLeast, "80", ⟨0, 11⟩⟩, ⟨"health", .less, "95", ⟨12, 22⟩⟩] := by
      decide +kernel
    rw [Band.filter, htokens, accepts_between_iff h80 h95]
    simp only [Band.covers_iff]
  | excellent =>
    have htokens : Query.parse "health:>=95" = [⟨"health", .atLeast, "95", ⟨0, 11⟩⟩] := by
      decide +kernel
    rw [Band.filter, htokens, accepts_atLeast_iff h95]
    simp only [Band.covers_iff]

/-! ## Bands and selections -/

/-- The health of a row is counted in a band if the row satisfies the filter for it. -/
theorem any_ofHealth_eq_accepts (accessor : Accessor ρ) (policy : UnknownKeys) (row : ρ)
    (band : Band) :
    ((numberOf? accessor "health" row).any fun health => Band.ofHealth health = band) =
      (dashboardSelector accessor policy).accepts row (Query.parse band.filter) := by
  rw [Bool.eq_iff_iff, accepts_filter_iff, healthUnits?, numberOf?]
  cases accessor row "health" with
  | none => simp
  | some text =>
    cases hx : number? text.toList with
    | none => simp [unitsOf?, hx]
    | some x =>
      obtain ⟨units, hunits⟩ := exists_position hx
      simp [unitsOf?, hx, hunits, Band.ofHealth_eq_iff hunits band]

theorem count_bands_eq_length_select (accessor : Accessor ρ) (policy : UnknownKeys) (rows : List ρ)
    (band : Band) :
    (summarize .default accessor rows).bands.count band =
      ((dashboardSelector accessor policy).select rows (Query.parse band.filter)).length := by
  rw [summarize_bands, Bands.count_ofValues, Selector.select_eq_filter,
    ← List.countP_eq_length_filter, countP_numbers]
  refine List.countP_congr fun row _ => ?_
  rw [← any_ofHealth_eq_accepts accessor policy row band]
  rfl

end Filters

/-- **The bands of a summary are selections.**  Each band counts the rows that the filter for it
selects, whichever object missing fields are looked up in.  These are the rows whose health spells a
finite number with its exact value in the band; so a row without such a number is in no band. -/
theorem bands_eq_selections (fallback : Option String) (policy : UnknownKeys)
    (rows : List Json.Value) :
    let accessor := Rows.jsonField fallback
    let kept (filter : String) :=
      (dashboardSelector accessor policy).select rows (Query.parse filter)
    (summarize .default accessor rows).bands =
      ⟨(kept "health:<40").length, (kept "health:>=40 health:<60").length,
        (kept "health:>=60 health:<80").length, (kept "health:>=80 health:<95").length,
        (kept "health:>=95").length⟩ ∧
    ∀ (band : Band) (row : Json.Value), row ∈ kept band.filter ↔
      row ∈ rows ∧ ∃ units ∈ healthUnits? accessor row, band.Covers units := by
  intro accessor kept
  have hcount (band : Band) : (summarize .default accessor rows).bands.count band =
      (kept band.filter).length := count_bands_eq_length_select accessor policy rows band
  refine ⟨Bands.ext_count fun band => ?_, fun band row => ?_⟩
  · rw [hcount]
    cases band <;> rfl
  · rw [← accepts_filter_iff accessor policy row band]
    simp only [kept, Selector.select_eq_filter, List.mem_filter]

/-- An edge belongs to the band above it, in any spelling of its number; a health that is no number
is in no band. -/
theorem bands_eq_selections_edges :
    let accessor := Rows.jsonField (some "project")
    let rows : List Json.Value := [
      .object [("health", .string "39.9")], .object [("health", .string "40.0")],
      .object [("project", .object [("health", .int 60)])], .object [("health", .string " 8e1 ")],
      .object [("health", .string "95")], .object [("health", .string "NaN")],
      .object [("health", .null)], .int 95]
    let kept (filter : String) :=
      (dashboardSelector accessor .evaluate).select rows (Query.parse filter)
    (summarize .default accessor rows).bands = ⟨1, 1, 1, 1, 1⟩ ∧
      (kept "health:>=80 health:<95").map (Rows.topField? · "health") = [some " 8e1 "] ∧
      healthUnits? accessor (.object [("health", .string " 8e1 ")]) = some (80 * unitsPerOne) := by
  intro accessor rows kept
  obtain ⟨hbands, -⟩ := bands_eq_selections (some "project") .evaluate rows
  refine ⟨hbands.trans ?_, ?_, ?_⟩ <;> decide +kernel

end RowQuery.Summary
