import LinearConstraints.Proofs.Form.Operations
import LinearConstraints.Proofs.PhaseOne.Absorption
import Mathlib.Algebra.Order.Field.Basic

/-! # What imposing a relation does

    With exact numbers the row of a relation says, in every solution of the
    tableau, that the relation and its marker balance: the marker takes up the
    distance between the two sides.  A relation is imposed if and only if its
    row vanishes in some admissible solution, and the solutions that are left
    are those in which it vanishes. -/

namespace LinearConstraints

/-- A row that is given to a subject changes the value of no restricted symbol,
    unless the subject is one and then not below zero. -/
theorem Tableau.WellFormed.valueOf_define_subject [Tolerance] {t : Tableau Rat}
    (ht : t.WellFormed) {editable : VariableId → Bool} {r : Relation Rat} {subject s : Symbol}
    (hsub : t.subject? editable r (t.rowOf r) = some subject) (hs : s.isRestricted = true) :
    (define { t with nextIndex := t.nextIndex + 1 } subject
        ((t.rowOf r).isolate subject)).valueOf s = t.valueOf s ∨
      0 ≤ (define { t with nextIndex := t.nextIndex + 1 } subject
        ((t.rowOf r).isolate subject)).valueOf s := by
  by_cases hsubject : s = subject
  · -- a restricted subject is a slack with a negative coefficient
    subst hsubject
    rcases subject?_spec hsub with ⟨hext, -, -⟩ | ⟨-, -, hneg⟩
    · rw [Symbol.not_isExternal_of_isRestricted hs] at hext
      exact nomatch hext
    · right
      rw [valueOf_of_row? (row?_define_self ..),
        Row.constant_isolate (LinearForm.get?_of_coefficient_ne_zero (ne_of_lt hneg))]
      exact div_nonneg_of_nonpos (neg_nonpos.mpr (Row.orient_constant_nonneg _)) (le_of_lt hneg)
  · left
    have hsame : (define { t with nextIndex := t.nextIndex + 1 } subject
        ((t.rowOf r).isolate subject)).row? s = t.row? s :=
      row?_define_fresh (ht.subject_fresh hsub).1 hsubject
    simp only [valueOf]
    rw [hsame]

open Exact

/-- Whether a relation and its marker balance: the marker takes up the distance
    between the sides. -/
def Relation.Balances (value : Symbol → Rat) (r : Relation Rat) (marker : Symbol) : Prop :=
  match r.comparison with
  | .equal => r.normal.evaluate (fun v => value (.external v)) + value marker = 0
  | .atMost => r.normal.evaluate (fun v => value (.external v)) + value marker = 0
  | .atLeast => r.normal.evaluate (fun v => value (.external v)) - value marker = 0

theorem Relation.balances_iff {value : Symbol → Rat} {r : Relation Rat} {marker : Symbol} :
    r.Balances value marker
      ↔ r.normal.evaluate (fun v => value (.external v))
        + Tableau.markerSign r.comparison * value marker = 0 := by
  simp only [Relation.Balances, Tableau.markerSign]
  cases r.comparison with
  | equal => rw [one_mul]
  | atMost => rw [one_mul]
  | atLeast => rw [neg_one_mul, sub_eq_add_neg]

/-- An expression without zero coefficients needs no lift. -/
theorem Expression.lift_eq_one {e : Expression Rat} (he : e.Pruned) : e.lift = 1 := by
  have hnoise : ((e.terms.entries.map fun a => Scalar.magnitude a.2).filter
      Scalar.negligible) = [] := by
    refine List.filter_eq_nil_iff.mpr fun x hx hneg => ?_
    obtain ⟨⟨v, c⟩, hmem, rfl⟩ := List.mem_map.mp hx
    rw [Row.negligible_iff_eq_zero, Tableau.magnitude_eq_abs, abs_eq_zero] at hneg
    exact he v c (OrderedMap.mem_entries_iff.mp hmem) hneg
  simp only [Expression.lift]
  rw [hnoise]
  rfl

namespace Tableau

variable {t t' : Tableau Rat} {value : Symbol → Rat} {r : Relation Rat}

/-! ## The row of a relation -/

/-- In a solution, an expression keeps its value as its basic variables are
    replaced. -/
theorem Satisfies.evaluate_express (h : t.Satisfies value) (e : Expression Rat) (factor : Rat) :
    (t.express e factor).evaluate value
      = e.evaluate (fun v => value (.external v)) * factor := by
  simp only [express]
  rw [LinearForm.evaluate_foldl (fun v => value (.external v)) factor,
    LinearForm.evaluate_ofConstant, LinearForm.evaluate_eq]
  · ring
  · intro row v c
    split
    · next definition hrow =>
        rw [Row.evaluate_addMultiple, ← h _ definition hrow]
        ring
    · rw [Row.evaluate_addTerm]

theorem markerSign_ne_zero (c : Comparison) : (markerSign c : Rat) ≠ 0 := by
  simp only [markerSign]
  split
  · exact neg_ne_zero.mpr one_ne_zero
  · exact one_ne_zero

/-- The marker occurs in the row of its relation. -/
theorem mentions_marker_rowOf (t : Tableau Rat) (r : Relation Rat) :
    (t.rowOf r).mentions (t.marker r.comparison) = true := by
  refine Row.mentions_orient.mpr ?_
  simp only [Row.setTerm]
  rw [if_neg fun h => markerSign_ne_zero r.comparison (Row.negligible_iff_eq_zero.mp h)]
  exact OrderedMap.mem_insert_iff.mpr (Or.inl rfl)

theorem coefficient_marker_rowOf (t : Tableau Rat) (r : Relation Rat) :
    (t.rowOf r).coefficient (t.marker r.comparison) ≠ 0 :=
  (t.pruned_rowOf r).coefficient_ne_zero (t.mentions_marker_rowOf r)

/-- A new marker occurs nowhere. -/
theorem WellFormed.not_mentions_marker (ht : t.WellFormed) (c : Comparison) :
    ¬ t.mentions (t.marker c) = true :=
  ht.toOrderly.not_mentions_new (marker_kind t c).1 (marker_index t c)

/-- In a solution, the row of a relation vanishes where the relation and its
    marker balance. -/
theorem WellFormed.evaluate_rowOf_eq_zero_iff (ht : t.WellFormed) (h : t.Satisfies value)
    (hr : r.normal.Pruned) :
    (t.rowOf r).evaluate value = 0 ↔ r.Balances value (t.marker r.comparison) := by
  have hfresh : (t.express r.normal r.normal.lift).coefficient (t.marker r.comparison) = 0 := by
    refine LinearForm.coefficient_of_get?_none (LinearForm.get?_eq_none_of_not_mentions ?_)
    intro hm
    rcases (mentions_of_express ht.separated hm).2 with hext | hm
    · rw [(marker_kind t _).1] at hext
      exact nomatch hext
    · exact ht.not_mentions_marker _ hm
  rw [Relation.balances_iff]
  simp only [rowOf]
  rw [Row.evaluate_orient_eq_zero_iff, Row.evaluate_setTerm, hfresh, h.evaluate_express,
    Expression.lift_eq_one hr, mul_one, sub_zero]

/-- The row of a relation does not vanish of itself, since its marker is free. -/
theorem WellFormed.exists_evaluate_rowOf_ne_zero (ht : t.WellFormed) (r : Relation Rat) :
    ∃ value, t.Satisfies value ∧ (t.rowOf r).evaluate value ≠ 0 :=
  ht.separated.exists_evaluate_ne_zero (ht.not_mentions_marker _) (t.coefficient_marker_rowOf r)

/-! ## The ways to impose a relation -/

/-- A row that is given to a subject joins the tableau. -/
theorem Ready.joined_subject (hr : t.Ready) (ht : t.WellFormed) (hsep : t'.Separated)
    {editable : VariableId → Bool} {subject : Symbol}
    (hsub : t.subject? editable r (t.rowOf r) = some subject)
    (h : t' = Tableau.define { t with nextIndex := t.nextIndex + 1 } subject
      ((t.rowOf r).isolate subject)) : t.Joined (t.rowOf r) t' := by
  subst h
  have hfresh := (ht.subject_fresh hsub).1
  have hbasic : ¬ Tableau.isBasic { t with nextIndex := t.nextIndex + 1 } subject = true :=
    fun hb => hfresh (mentions_of_isBasic hb)
  have hcoeff := coefficient_subject_ne_zero hsub
  refine ⟨⟨hsep, ?_, hr.epsilon_eq, ?_⟩, size_define hbasic, fun value => ?_⟩
  · intro s row hrow
    rcases row?_of_define hrow with ⟨-, rfl⟩ | ⟨-, old, hold, rfl⟩
    · exact Row.pruned_isolate (t.pruned_rowOf r) subject
    · exact Row.pruned_substitute (hr.pruned s old hold) _ _
  · intro s hs
    rcases ht.valueOf_define_subject hsub hs with h | h
    · rw [h]
      exact hr.nonnegative s hs
    · exact h
  · rw [satisfies_define hbasic, Row.eq_evaluate_isolate_iff hcoeff, and_comm]
    exact Iff.rfl

/-- A row of dummies without a constant joins the tableau under its marker. -/
theorem Ready.joined_parked (hr : t.Ready) (ht : t.WellFormed) (hsep : t'.Separated)
    (hdum : (t.rowOf r).onlyDummies = true) (hconst : ¬ t.epsilon < (t.rowOf r).constant)
    (h : t' = { t with
      rows := t.rows.insert (t.marker r.comparison)
        (Row.isolate { t.rowOf r with constant := 0 } (t.marker r.comparison))
      nextIndex := t.nextIndex + 1 }) : t.Joined (t.rowOf r) t' := by
  subst h
  have hzero : (t.rowOf r).constant = 0 := by
    rw [hr.epsilon_eq] at hconst
    exact le_antisymm (not_lt.mp hconst) (Row.orient_constant_nonneg _)
  have hsame : ({ t.rowOf r with constant := 0 } : Row Rat) = t.rowOf r := by
    rw [← hzero]
  have hmarker : ¬ t.isBasic (t.marker r.comparison) = true := fun hb =>
    ht.not_mentions_marker _ (mentions_of_isBasic hb)
  rw [hsame] at hsep ⊢
  refine ⟨⟨hsep, ?_, hr.epsilon_eq, ?_⟩, size_insertRow hmarker, fun value => ?_⟩
  · intro s row hrow
    rcases row?_of_insertRow hrow with ⟨-, rfl⟩ | ⟨-, hrow⟩
    · exact Row.pruned_isolate (t.pruned_rowOf r) _
    · exact hr.pruned s row hrow
  · intro s hs
    have hne : s ≠ t.marker r.comparison := by
      rintro rfl
      have := Row.onlyDummies_iff.mp hdum _ (t.mentions_marker_rowOf r)
      cases hm : t.marker r.comparison <;> rw [hm] at hs this <;> contradiction
    rw [valueOf_insertRow, if_neg hne]
    exact hr.nonnegative s hs
  · rw [satisfies_insertRow hmarker, Row.eq_evaluate_isolate_iff (t.coefficient_marker_rowOf r),
      and_comm]

/-- With one number more handed out, a tableau is as ready as before. -/
theorem Ready.next (hr : t.Ready) : Ready { t with nextIndex := t.nextIndex + 1 } :=
  ⟨hr.separated, hr.pruned, hr.epsilon_eq, hr.nonnegative⟩

/-- The row of a relation that is imposed joins the tableau. -/
theorem Ready.impose (hr : t.Ready) (ht : t.WellFormed) {editable : VariableId → Bool}
    {m : Symbol} (h : t.impose editable r = .ok (m, t')) : t.Joined (t.rowOf r) t' := by
  have hsep := (ht.impose h).1.separated
  obtain ⟨rfl, ⟨subject, hsub, heq⟩ | ⟨-, hdum, hconst, heq⟩ | ⟨-, -, habs⟩⟩ := impose_cases h
  · exact hr.joined_subject ht hsep hsub heq
  · exact hr.joined_parked ht hsep hdum hconst heq
  · have hjoined := hr.next.absorb ht.next (ht.fits_rowOf r) (t.pruned_rowOf r)
      (Row.orient_constant_nonneg _) (ht.exists_evaluate_rowOf_ne_zero r) habs
    exact ⟨hjoined.ready, hjoined.size_eq, hjoined.satisfies_iff⟩

/-! ## Refusals -/

/-- A relation that is not imposed is refused as unsatisfiable, and its row
    vanishes in no admissible solution. -/
theorem Ready.impose_error (hr : t.Ready) (ht : t.WellFormed) {editable : VariableId → Bool}
    {reason : Refusal Rat} (h : t.impose editable r = .error reason) :
    reason = .unsatisfiable r ∧
      ∀ value, Admissible value → t.Satisfies value → (t.rowOf r).evaluate value ≠ 0 := by
  rcases impose_error_cases h with ⟨hdum, hconst, rfl⟩ | habs
  · refine ⟨rfl, fun value hadm _ => ?_⟩
    rw [LinearForm.evaluate_eq_constant fun s hs =>
      hadm.dummy s (Row.onlyDummies_iff.mp hdum s hs)]
    rw [hr.epsilon_eq] at hconst
    exact ne_of_gt hconst
  · exact hr.next.searchable.absorb_error ht.next.tidy (ht.fits_rowOf r).suits
      (Row.orient_constant_nonneg _) habs

end Tableau

end LinearConstraints
