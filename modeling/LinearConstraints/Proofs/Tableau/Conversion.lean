import LinearConstraints.Proofs.Form.Formulas
import LinearConstraints.Proofs.Tableau.Residue

/-! # Converting a relation loses no term

    Cells below the tolerance are pruned where they are added to a row, so an
    expression is lifted before it is written down: its least coefficient
    becomes one if it was noise, and the others grow with it.  Where no
    variable is basic, the row then has one cell for every term, in the same
    order, and the marker behind them.  It is the normal form times a positive
    factor, plus or minus the marker, and with the sign that keeps the
    constant from being negative. -/

namespace LinearConstraints

/-! ## Cells in ascending order -/

/-- Above all unknowns of a form a term that is not dropped becomes its last
    entry. -/
theorem LinearForm.entries_addTerm_last {κ : Type} [Ord κ] [Std.TransOrd κ] [Std.LawfulEqOrd κ]
    [Tolerance] {drop : Rat → Bool} {f : LinearForm κ Rat} {k : κ} {c : Rat}
    (hlast : ∀ a ∈ f.terms.entries, compare a.1 k = .lt) (hkeep : drop c = false) :
    (f.addTerm drop k c).terms.entries = f.terms.entries ++ [(k, c)] := by
  have hnone : f.terms.get? k = none := OrderedMap.lookup_eq_none fun a ha he => by
    rw [Std.OrientedCmp.gt_iff_lt.mpr (hlast a ha)] at he
    exact nomatch he
  simp only [addTerm]
  rw [coefficient_of_get?_none hnone, zero_add, hkeep]
  exact OrderedMap.place_eq_append hlast

/-- The order of variables is that of their symbols. -/
theorem Symbol.compare_external (u v : VariableId) :
    compare (Symbol.external u) (Symbol.external v) = compare u v := rfl

/-- What a tableau makes up comes after the variables. -/
theorem Symbol.compare_external_marker {α : Type} (t : Tableau α) (c : Comparison)
    (v : VariableId) : compare (Symbol.external v) (t.marker c) = .lt := by
  cases c <;> rfl

/-- No variable is made up by a tableau. -/
theorem Symbol.external_ne_marker {α : Type} (t : Tableau α) (c : Comparison) (v : VariableId) :
    Symbol.external v ≠ t.marker c := by
  intro h
  have hkind := (Tableau.marker_kind t c).1
  rw [← h] at hkind
  exact nomatch hkind

namespace Tableau

variable [Tolerance] {t : Tableau Rat} {e : Expression Rat} {factor : Rat}

/-- Terms that are not dropped are appended one after the other. -/
theorem entries_foldl_external :
    ∀ {l : List (VariableId × Rat)}, l.Pairwise (fun a b => compare a.1 b.1 = .lt) →
      (∀ a ∈ l, Scalar.negligible (a.2 * factor) = false) →
      ∀ row : Row Rat, (∀ b ∈ row.terms.entries, ∀ a ∈ l, compare b.1 (.external a.1) = .lt) →
        (l.foldl (fun row a => row.addTerm (.external a.1) (a.2 * factor)) row).terms.entries
          = row.terms.entries ++ l.map fun a => (.external a.1, a.2 * factor) := by
  intro l
  induction l with
  | nil => exact fun _ _ row _ => (List.append_nil row.terms.entries).symm
  | cons a rest ih =>
      intro h hkeep row hrow
      obtain ⟨ha, hrest⟩ := List.pairwise_cons.mp h
      have hentries : (row.addTerm (.external a.1) (a.2 * factor)).terms.entries
          = row.terms.entries ++ [(.external a.1, a.2 * factor)] :=
        LinearForm.entries_addTerm_last (fun b hb => hrow b hb a (List.mem_cons_self ..))
          (hkeep a (List.mem_cons_self ..))
      rw [List.foldl_cons, ih hrest fun b hb => hkeep b (List.mem_cons_of_mem _ hb), hentries,
        List.append_assoc]
      · rfl
      · -- the new cell comes before those still to be added
        intro b hb c hc
        rw [hentries] at hb
        rcases List.mem_append.mp hb with hb | hb
        · exact hrow b hb c (List.mem_cons_of_mem _ hc)
        · obtain rfl := List.mem_singleton.mp hb
          exact (Symbol.compare_external ..).trans (ha c hc)

/-- Where no variable is basic, an expression is written down term by term. -/
theorem express_of_parametric (hfree : ∀ v ∈ Expression.vars e, ¬ t.isBasic (.external v) = true) :
    t.express e factor
      = e.terms.foldl (fun (row : Row Rat) v c => row.addTerm (.external v) (c * factor))
        (LinearForm.ofConstant (e.constant * factor)) := by
  refine OrderedMap.foldl_congr fun row v c hc => ?_
  have hv : v ∈ Expression.vars e := OrderedMap.mem_keys_iff.mpr (OrderedMap.mem_iff.mpr ⟨c, hc⟩)
  simp only [row?_eq_none_of_not_isBasic (hfree v hv)]

theorem constant_express (hfree : ∀ v ∈ Expression.vars e, ¬ t.isBasic (.external v) = true) :
    (t.express e factor).constant = e.constant * factor := by
  rw [express_of_parametric hfree]
  exact OrderedMap.foldl_induction (P := fun row : Row Rat => row.constant = e.constant * factor)
    rfl fun _ _ _ _ h => h

theorem entries_express (hfree : ∀ v ∈ Expression.vars e, ¬ t.isBasic (.external v) = true)
    (hkeep : ∀ v c, e.terms.get? v = some c → Scalar.negligible (c * factor) = false) :
    (t.express e factor).terms.entries
      = e.terms.entries.map fun a => (.external a.1, a.2 * factor) := by
  rw [express_of_parametric hfree]
  refine entries_foldl_external e.terms.ascending (fun a ha => ?_) _ ?_
  · exact hkeep a.1 a.2 (OrderedMap.mem_entries_iff.mp ha)
  · intro b hb
    exact absurd hb List.not_mem_nil

theorem evaluate_express_of_parametric
    (hfree : ∀ v ∈ Expression.vars e, ¬ t.isBasic (.external v) = true)
    (hkeep : ∀ v c, e.terms.get? v = some c → Scalar.negligible (c * factor) = false)
    (value : Symbol → Rat) :
    (t.express e factor).evaluate value = e.evaluate (fun v => value (.external v)) * factor := by
  rw [LinearForm.evaluate_eq, LinearForm.evaluate_eq, constant_express hfree,
    entries_express hfree hkeep, LinearForm.total_map_mul value Symbol.external]
  ring

end Tableau

/-! ## The row of a relation -/

/-- Whether a row says what a relation says, with a marker for the distance
    between the sides. -/
structure Relation.WrittenIn [Tolerance] (r : Relation Rat) (marker : Symbol) (row : Row Rat) :
    Prop where
  /-- Up to a positive factor and a sign, the row is the normal form plus the
      marker, or minus the marker where the left side is the greater one. -/
  cells : ∃ k g : Rat, 0 < k ∧ (g = 1 ∨ g = -1) ∧
    row.constant = g * (k * r.normal.constant) ∧
    row.terms.entries
      = (r.normal.terms.entries.map fun a => (Symbol.external a.1, g * (k * a.2)))
        ++ [(marker, match r.comparison with
          | .atLeast => -g
          | _ => g)]
  /-- The constant is not negative. -/
  constant_nonneg : 0 ≤ row.constant
  /-- The variables of the relation, and no others, have a cell. -/
  mentions_external : ∀ v, row.mentions (.external v) = true ↔ v ∈ r.vars
  /-- With its marker at zero the row of an equation is zero where the equation
      holds. -/
  equation : r.comparison = .equal → ∀ value : Symbol → Rat, value marker = 0 →
    (row.evaluate value = 0 ↔ r.Holds fun v => value (.external v))
  /-- The row of an inequality is zero for a marker that is not negative where
      the inequality holds. -/
  inequality : r.comparison ≠ .equal → ∀ value : Symbol → Rat,
    (∃ m, 0 ≤ m ∧ row.evaluate (Function.update value marker m) = 0)
      ↔ r.Holds fun v => value (.external v)

namespace Row

variable [Tolerance]

/-- A row is left alone or has all its signs reversed. -/
theorem orient_cases (r : Row Rat) :
    ∃ g : Rat, (g = 1 ∨ g = -1) ∧ r.orient.constant = r.constant * g ∧
      r.orient.terms.entries = r.terms.entries.map (fun a => (a.1, a.2 * g)) ∧
      ∀ value, r.orient.evaluate value = r.evaluate value * g := by
  simp only [orient]
  split
  · refine ⟨-1, Or.inr rfl, (mul_neg_one _).symm, ?_, fun value => ?_⟩
    · refine List.map_congr_left fun a _ => ?_
      rw [mul_neg_one]
    · rw [evaluate_negate, mul_neg_one]
  · refine ⟨1, Or.inl rfl, (mul_one _).symm, ?_, fun value => (mul_one _).symm⟩
    simp

/-- A cell that comes after all others is set at the end. -/
theorem entries_setTerm_last {r : Row Rat} {s : Symbol} {c : Rat}
    (hlast : ∀ a ∈ r.terms.entries, compare a.1 s = .lt) (hkeep : Scalar.negligible c = false) :
    (r.setTerm s c).terms.entries = r.terms.entries ++ [(s, c)] := by
  simp only [setTerm, hkeep]
  exact OrderedMap.place_eq_append hlast

end Row

namespace Tableau

variable [Tolerance] {t : Tableau Rat} {r : Relation Rat}

/-- A marker is as large as one. -/
theorem abs_markerSign (c : Comparison) : |(markerSign c : Rat)| = 1 := by
  cases c with
  | equal => exact abs_one
  | atMost => exact abs_one
  | atLeast => exact (abs_neg _).trans abs_one

/-- Where no variable is basic, the row of a relation is written down term by
    term and ends with the marker. -/
theorem rowOf_cases (htol : (Scalar.tolerance : Rat) ≤ 1) (hr : r.normal.Pruned)
    (hfree : ∀ v ∈ r.vars, ¬ t.isBasic (.external v) = true) :
    ∃ g : Rat, (g = 1 ∨ g = -1) ∧
      (t.rowOf r).constant = r.normal.constant * r.normal.lift * g ∧
      (t.rowOf r).terms.entries
        = (r.normal.terms.entries.map fun a => (.external a.1, a.2 * r.normal.lift * g))
          ++ [(t.marker r.comparison, markerSign r.comparison * g)] ∧
      ∀ value, (t.rowOf r).evaluate value
        = (r.normal.evaluate (fun v => value (.external v)) * r.normal.lift
          + markerSign r.comparison * value (t.marker r.comparison)) * g := by
  have hkeep : ∀ v c, r.normal.terms.get? v = some c →
      Scalar.negligible (c * r.normal.lift) = false := fun v c hc =>
    negligible_eq_false (mul_ne_zero (hr v c hc) (Expression.lift_pos hr).ne')
      (Expression.tolerance_le_lifted hr htol hc)
  have hmarker : Scalar.negligible (markerSign r.comparison : Rat) = false := by
    refine negligible_eq_false (abs_pos.mp ?_) ?_
    · rw [abs_markerSign]
      exact one_pos
    · rwa [abs_markerSign]
  have hentries := entries_express hfree hkeep
  have hraw : ((t.express r.normal r.normal.lift).setTerm (t.marker r.comparison)
      (markerSign r.comparison)).terms.entries
        = (r.normal.terms.entries.map fun a => (.external a.1, a.2 * r.normal.lift))
          ++ [(t.marker r.comparison, markerSign r.comparison)] := by
    rw [Row.entries_setTerm_last _ hmarker, hentries]
    intro a ha
    rw [hentries] at ha
    obtain ⟨b, -, rfl⟩ := List.mem_map.mp ha
    exact Symbol.compare_external_marker t _ _
  obtain ⟨g, hg, hconstant, horiented, hvalue⟩ := Row.orient_cases
    ((t.express r.normal r.normal.lift).setTerm (t.marker r.comparison)
      (markerSign r.comparison))
  refine ⟨g, hg, ?_, ?_, fun value => ?_⟩
  · exact hconstant.trans (congrArg (· * g) (constant_express hfree))
  · refine horiented.trans ?_
    rw [hraw, List.map_append, List.map_map]
    rfl
  · refine (hvalue value).trans (congrArg (· * g) ?_)
    rw [← evaluate_express_of_parametric hfree hkeep value, LinearForm.evaluate_eq,
      LinearForm.evaluate_eq, hraw, ← hentries, LinearForm.total_append, LinearForm.total_cons,
      LinearForm.total_nil, add_zero, add_assoc]
    rfl

/-- The variables that have a cell are those of the relation. -/
theorem mentions_external_rowOf (htol : (Scalar.tolerance : Rat) ≤ 1) (hr : r.normal.Pruned)
    (hfree : ∀ v ∈ r.vars, ¬ t.isBasic (.external v) = true) (v : VariableId) :
    (t.rowOf r).mentions (.external v) = true ↔ v ∈ r.vars := by
  obtain ⟨g, -, -, hentries, -⟩ := rowOf_cases htol hr hfree
  have hcell : (t.rowOf r).mentions (.external v) = true
      ↔ ∃ c, (Symbol.external v, c) ∈ (t.rowOf r).terms.entries := by
    simp only [LinearForm.mentions_iff, OrderedMap.mem_entries_iff]
  rw [hcell, hentries]
  constructor
  · rintro ⟨c, hc⟩
    rcases List.mem_append.mp hc with hc | hc
    · obtain ⟨a, ha, heq⟩ := List.mem_map.mp hc
      obtain ⟨hv, -⟩ := Prod.mk.inj heq
      exact List.mem_map.mpr ⟨a, ha, Symbol.external.inj hv⟩
    · exact absurd (Prod.mk.inj (List.mem_singleton.mp hc)).1 (Symbol.external_ne_marker t _ v)
  · intro hv
    obtain ⟨a, ha, rfl⟩ := List.mem_map.mp hv
    exact ⟨_, List.mem_append.mpr (Or.inl (List.mem_map.mpr ⟨a, ha, rfl⟩))⟩

/-- The row is zero where the marker takes up the lifted normal form. -/
theorem evaluate_rowOf_eq_zero_iff (htol : (Scalar.tolerance : Rat) ≤ 1) (hr : r.normal.Pruned)
    (hfree : ∀ v ∈ r.vars, ¬ t.isBasic (.external v) = true) {value : Symbol → Rat} :
    (t.rowOf r).evaluate value = 0 ↔
      r.normal.evaluate (fun v => value (.external v)) * r.normal.lift
        + markerSign r.comparison * value (t.marker r.comparison) = 0 := by
  obtain ⟨g, hg, -, -, hvalue⟩ := rowOf_cases htol hr hfree
  have hne : g ≠ 0 := by
    rcases hg with rfl | rfl
    · exact one_ne_zero
    · exact neg_ne_zero.mpr one_ne_zero
  rw [hvalue, mul_eq_zero, or_iff_left hne]

/-- With its marker at zero the row of an equation says what the equation
    says. -/
theorem evaluate_rowOf_equation (htol : (Scalar.tolerance : Rat) ≤ 1) (hr : r.normal.Pruned)
    (hfree : ∀ v ∈ r.vars, ¬ t.isBasic (.external v) = true) (heq : r.comparison = .equal)
    {value : Symbol → Rat} (hzero : value (t.marker r.comparison) = 0) :
    (t.rowOf r).evaluate value = 0 ↔ r.Holds fun v => value (.external v) := by
  rw [evaluate_rowOf_eq_zero_iff htol hr hfree, hzero, mul_zero, add_zero, mul_eq_zero,
    or_iff_left (Expression.lift_pos hr).ne', Relation.holds_iff, heq]

/-- With its marker anywhere above zero the row of an inequality says what the
    inequality says. -/
theorem evaluate_rowOf_inequality (htol : (Scalar.tolerance : Rat) ≤ 1) (hr : r.normal.Pruned)
    (hfree : ∀ v ∈ r.vars, ¬ t.isBasic (.external v) = true) (hne : r.comparison ≠ .equal)
    (value : Symbol → Rat) :
    (∃ m, 0 ≤ m ∧ (t.rowOf r).evaluate (Function.update value (t.marker r.comparison) m) = 0)
      ↔ r.Holds fun v => value (.external v) := by
  have hlift := Expression.lift_pos hr
  have hrow : ∀ m, (t.rowOf r).evaluate (Function.update value (t.marker r.comparison) m) = 0 ↔
      r.normal.evaluate (fun v => value (.external v)) * r.normal.lift
        + markerSign r.comparison * m = 0 := by
    intro m
    have hexternal : ∀ v, Function.update value (t.marker r.comparison) m (.external v)
        = value (.external v) := fun v =>
      Function.update_of_ne (Symbol.external_ne_marker t _ v) ..
    rw [evaluate_rowOf_eq_zero_iff htol hr hfree, Function.update_self]
    simp only [hexternal]
  simp only [hrow, Relation.holds_iff]
  generalize r.normal.evaluate (fun v => value (.external v)) = x
  cases hc : r.comparison with
  | equal => exact absurd hc hne
  | atMost =>
      show (∃ m, 0 ≤ m ∧ x * r.normal.lift + 1 * m = 0) ↔ x ≤ 0
      rw [← neg_nonneg, ← mul_nonneg_iff_of_pos_right hlift]
      constructor
      · rintro ⟨m, hm, h⟩
        linarith
      · intro h
        exact ⟨-x * r.normal.lift, h, by ring⟩
  | atLeast =>
      show (∃ m, 0 ≤ m ∧ x * r.normal.lift + -1 * m = 0) ↔ 0 ≤ x
      rw [← mul_nonneg_iff_of_pos_right hlift]
      constructor
      · rintro ⟨m, hm, h⟩
        linarith
      · intro h
        exact ⟨x * r.normal.lift, h, by ring⟩

end Tableau

open Thresholded

/-- The row of a relation keeps every term, at whatever distance from the
    tolerance its coefficient lies, if none of the variables is basic. -/
theorem Tableau.rowOf_lossless {t : Tableau Rat} {r : Relation Rat} (hr : r.Formulated)
    (hfree : ∀ v ∈ r.vars, ¬ t.isBasic (.external v) = true) :
    r.WrittenIn (t.marker r.comparison) (t.rowOf r) := by
  have htol : (Scalar.tolerance : Rat) ≤ 1 := by decide +kernel
  have hpruned := hr.pruned_normal
  obtain ⟨g, hg, hconstant, hentries, -⟩ := rowOf_cases htol hpruned hfree
  refine ⟨⟨r.normal.lift, g, Expression.lift_pos hpruned, hg, ?_, ?_⟩,
    Row.orient_constant_nonneg _, mentions_external_rowOf htol hpruned hfree,
    fun heq _ => evaluate_rowOf_equation htol hpruned hfree heq,
    evaluate_rowOf_inequality htol hpruned hfree⟩
  · rw [hconstant]
    ring
  · rw [hentries]
    congr 1
    · refine List.map_congr_left fun a _ => congrArg (Prod.mk _) ?_
      ring
    · cases r.comparison with
      | equal | atMost => rw [show (markerSign _ : Rat) = 1 from rfl, one_mul]
      | atLeast => rw [show (markerSign _ : Rat) = -1 from rfl, neg_one_mul]

/-- One coefficient is far below the tolerance, one is just at it and one far
    above, and the left side has to be the greater one. -/
def Relation.uneven : Relation Rat where
  lhs := Expression.ofTerms [(0, 1 / 1000000000), (1, -1 / 100000000), (3, 2000)] 0
  comparison := .atLeast
  rhs := Expression.ofNumber (1 / 500000000)

/-- Beside a basic variable that the relation does not mention, the row is the
    billionfold of the normal form less the slack, with all signs reversed. -/
theorem Tableau.rowOf_lossless_uneven : ∃ t : Tableau Rat, t.isBasic (.external 2) = true ∧
    Relation.vars .uneven = [0, 1, 3] ∧
    (t.rowOf .uneven).constant = 2 ∧
    (t.rowOf .uneven).terms.entries = [(.external 0, -1), (.external 1, 10),
      (.external 3, -2000000000000), (.slack 5, 1)] ∧
    Relation.WrittenIn .uneven (.slack 5) (t.rowOf .uneven) := by
  let t : Tableau Rat :=
    ⟨(∅ : OrderedMap Symbol (Row Rat)).insert (.external 2)
      ⟨7, (∅ : OrderedMap Symbol Rat).insert (.external 0) 1⟩, 5, 1 / 100000000⟩
  have hform : Relation.Formulated .uneven :=
    ⟨⟨.terms [(0, 1 / 1000000000), (1, -1 / 100000000), (3, 2000)] 0, rfl⟩,
      ⟨.number (1 / 500000000), rfl⟩⟩
  have hfree : ∀ v ∈ Relation.vars .uneven, ¬ t.isBasic (.external v) = true := by
    decide +kernel
  exact ⟨t, by decide +kernel, by decide +kernel, by decide +kernel, by decide +kernel,
    rowOf_lossless hform hfree⟩

end LinearConstraints
