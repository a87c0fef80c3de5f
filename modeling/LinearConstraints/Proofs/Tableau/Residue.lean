import LinearConstraints.Proofs.Tableau.Representation

/-! # What pruning has cut off a relation

    The residue of a relation is its equation written over the parametric
    symbols, with its basic variables and its marker replaced by their rows and
    nothing but zeros dropped.  With exact numbers nothing is left: the rows
    say what the relation says.  With a tolerance the cells that were dropped
    as noise come to light in the residue.  Once the parametric symbols have
    their values, a relation is satisfied exactly if its residue is within what
    its marker takes up and the tolerance leaves. -/

namespace LinearConstraints

section AnyTolerance

variable [Tolerance]

/-- An expression is lifted by nothing if all its coefficients are above the
    noise, and else by the inverse of its least one. -/
theorem Expression.lift_cases {e : Expression Rat} (he : e.Pruned) :
    (e.lift = 1 ∧ ∀ v c, e.terms.get? v = some c → Scalar.tolerance ≤ |c|) ∨
    ∃ c : Rat, 0 < c ∧ c < Scalar.tolerance ∧ e.lift = 1 / c ∧
      ∀ v d, e.terms.get? v = some d → c ≤ |d| := by
  have hsmall : ∀ {v c}, e.terms.get? v = some c →
      (Scalar.negligible (Scalar.magnitude c) = true ↔ |c| < Scalar.tolerance) := by
    intro v c hc
    rw [Scalar.negligible_iff, Tableau.magnitude_eq_abs, Tableau.magnitude_eq_abs, abs_abs]
    refine ⟨fun h => h.resolve_left fun hzero => ?_, Or.inr⟩
    exact he v c hc (abs_eq_zero.mp (eq_of_beq hzero))
  have hnoise : ∀ {v c}, e.terms.get? v = some c → |c| < Scalar.tolerance →
      |c| ∈ (e.terms.entries.map fun a => Scalar.magnitude a.2).filter Scalar.negligible := by
    intro v c hc hlt
    have hneg := (hsmall hc).mpr hlt
    rw [Tableau.magnitude_eq_abs] at hneg
    refine List.mem_filter.mpr ⟨List.mem_map.mpr ⟨(v, c), ?_, ?_⟩, hneg⟩
    · exact OrderedMap.mem_entries_iff.mpr hc
    · exact Tableau.magnitude_eq_abs c
  unfold Expression.lift
  dsimp only
  split
  · next least hleast =>
      right
      obtain ⟨x, hx, hmin⟩ := leastBy?_least hleast
      obtain ⟨d, hd, heq⟩ := List.mem_map.mp hx
      obtain ⟨rfl, rfl⟩ := Prod.mk.inj heq
      obtain ⟨hd, hneg⟩ := List.mem_filter.mp hd
      obtain ⟨⟨v, coefficient⟩, hmem, rfl⟩ := List.mem_map.mp hd
      have hget := OrderedMap.mem_entries_iff.mp hmem
      have hlt := (hsmall hget).mp hneg
      simp only [Tableau.magnitude_eq_abs] at hmin hnoise ⊢
      refine ⟨|coefficient|, abs_pos.mpr (he v coefficient hget), hlt, rfl, fun u c hc => ?_⟩
      rcases lt_or_ge |c| Scalar.tolerance with hnear | hfar
      · exact hmin |c| |c| (List.mem_map.mpr ⟨|c|, hnoise hc hnear, rfl⟩)
      · exact hlt.le.trans hfar
  · next hnone =>
      left
      have hempty := List.map_eq_nil_iff.mp (leastBy?_eq_none_iff.mp hnone)
      refine ⟨rfl, fun v c hc => not_lt.mp fun hlt => ?_⟩
      have hmem := hnoise hc hlt
      rw [hempty] at hmem
      exact List.not_mem_nil hmem

theorem Expression.lift_pos {e : Expression Rat} (he : e.Pruned) : 0 < e.lift := by
  rcases lift_cases he with ⟨h, -⟩ | ⟨c, hc, -, h, -⟩
  · rw [h]
    exact one_pos
  · rw [h]
    exact one_div_pos.mpr hc

/-- Below one, the tolerance is only ever magnified. -/
theorem Expression.one_le_lift {e : Expression Rat} (he : e.Pruned)
    (htol : (Scalar.tolerance : Rat) ≤ 1) : 1 ≤ e.lift := by
  rcases lift_cases he with ⟨h, -⟩ | ⟨c, hc, hsmall, h, -⟩
  · rw [h]
  · rw [h]
    exact (one_le_div hc).mpr (hsmall.le.trans htol)

/-- A lifted coefficient is never noise. -/
theorem Expression.tolerance_le_lifted {e : Expression Rat} (he : e.Pruned)
    (htol : (Scalar.tolerance : Rat) ≤ 1) {v : VariableId} {c : Rat}
    (hc : e.terms.get? v = some c) : Scalar.tolerance ≤ |c * e.lift| := by
  rw [abs_mul, abs_of_pos (lift_pos he)]
  rcases lift_cases he with ⟨h, hleast⟩ | ⟨least, hpos, -, h, hleast⟩
  · rw [h, mul_one]
    exact hleast v c hc
  · rw [h, mul_one_div]
    exact htol.trans ((one_le_div hpos).mpr (hleast v c hc))

namespace Tableau

/-- What a symbol stands for: its row if it is basic, and itself otherwise. -/
def resolve (t : Tableau Rat) (s : Symbol) : Row Rat :=
  match t.row? s with
  | some row => row
  | none => ⟨0, (∅ : OrderedMap Symbol Rat).insert s 1⟩

/-- The equation of a relation over the parametric symbols. -/
def residue (t : Tableau Rat) (r : Relation Rat) (marker : Symbol) : Row Rat :=
  LinearForm.addMultiple Expression.vanishes
    (r.normal.terms.foldl
      (fun sum v c =>
        LinearForm.addMultiple Expression.vanishes sum (t.resolve (.external v))
          (c * r.normal.lift))
      (LinearForm.ofConstant (r.normal.constant * r.normal.lift)))
    (t.resolve marker) (markerSign r.comparison)

/-- Whether the tableau has lost nothing of a relation. -/
def Intact (t : Tableau Rat) (r : Relation Rat) (marker : Symbol) : Prop :=
  t.residue r marker = LinearForm.ofConstant 0

/-- Whether the residue of a relation is within what its marker takes up and the
    tolerance leaves, with the parametric symbols at the given values. -/
def Allows (t : Tableau Rat) (value : Symbol → Rat) (r : Relation Rat) (marker : Symbol) :
    Prop :=
  match r.comparison with
  | .equal =>
      Scalar.magnitude ((t.residue r marker).evaluate value)
        ≤ r.normal.lift * Scalar.tolerance
  | .atMost =>
      (t.residue r marker).evaluate value
        ≤ t.extend value marker + r.normal.lift * Scalar.tolerance
  | .atLeast =>
      -(t.extend value marker + r.normal.lift * Scalar.tolerance)
        ≤ (t.residue r marker).evaluate value

variable {t : Tableau Rat} {value : Symbol → Rat} {r : Relation Rat} {marker : Symbol}

theorem evaluate_resolve (t : Tableau Rat) (value : Symbol → Rat) (s : Symbol) :
    (t.resolve s).evaluate value = t.extend value s := by
  simp only [resolve, extend]
  cases t.row? s with
  | some row => rfl
  | none =>
      show 0 + 1 * value s = value s
      ring

/-- The residue is worth the relation and its marker taken together. -/
theorem evaluate_residue (t : Tableau Rat) (value : Symbol → Rat) (r : Relation Rat)
    (marker : Symbol) :
    (t.residue r marker).evaluate value
      = r.normal.evaluate (fun v => t.extend value (.external v)) * r.normal.lift
        + markerSign r.comparison * t.extend value marker := by
  have hdrop : ∀ c : Rat, Expression.vanishes c = true → c = 0 :=
    fun _ => Expression.eq_zero_of_vanishes
  simp only [residue]
  rw [LinearForm.evaluate_addMultiple hdrop,
    LinearForm.evaluate_foldl (fun v => t.extend value (.external v)) r.normal.lift,
    LinearForm.evaluate_ofConstant, LinearForm.evaluate_eq _ r.normal, evaluate_resolve]
  · ring
  · intro sum v c
    rw [LinearForm.evaluate_addMultiple hdrop, evaluate_resolve]
    ring

/-- Values that follow from parametric ones satisfy a relation exactly if they
    allow its residue. -/
theorem isSatisfied_extend_iff (hr : r.normal.Pruned)
    (hmarker : r.comparison = .equal → t.extend value marker = 0) :
    r.isSatisfied (fun v => t.extend value (.external v)) = true ↔ t.Allows value r marker := by
  have hlift := Expression.lift_pos hr
  have hresidue := t.evaluate_residue value r marker
  simp only [Relation.isSatisfied, Allows, markerSign] at *
  cases hc : r.comparison with
  | equal =>
      rw [hc] at hresidue
      simp only at hresidue ⊢
      rw [hresidue, hmarker hc, mul_zero, add_zero, magnitude_eq_abs, magnitude_eq_abs, abs_mul,
        abs_of_pos hlift, mul_comm, decide_eq_true_eq]
      exact (mul_le_mul_iff_right₀ hlift).symm
  | atMost =>
      rw [hc] at hresidue
      simp only at hresidue ⊢
      rw [hresidue, decide_eq_true_eq, ← mul_le_mul_iff_right₀ hlift]
      constructor
      · intro h
        linarith
      · intro h
        linarith
  | atLeast =>
      rw [hc] at hresidue
      simp only at hresidue ⊢
      rw [hresidue, decide_eq_true_eq, ← mul_le_mul_iff_right₀ hlift]
      constructor
      · intro h
        linarith
      · intro h
        linarith

/-- A relation of which nothing is lost is satisfied as long as its marker stays
    within the tolerance. -/
theorem Intact.allows (h : t.Intact r marker) (hr : r.normal.Pruned)
    (htol : 0 ≤ (Scalar.tolerance : Rat))
    (hmarker : -(r.normal.lift * Scalar.tolerance) ≤ t.extend value marker) :
    t.Allows value r marker := by
  have hlift := mul_nonneg (Expression.lift_pos hr).le htol
  have hzero : (t.residue r marker).evaluate value = 0 := by
    rw [h]
    rfl
  simp only [Allows]
  rw [hzero]
  cases r.comparison with
  | equal =>
      simp only
      rw [magnitude_eq_abs, abs_zero]
      exact hlift
  | atMost =>
      simp only
      linarith
  | atLeast =>
      simp only
      linarith

theorem pruned_residue (t : Tableau Rat) (r : Relation Rat) (marker : Symbol) :
    (t.residue r marker).Pruned := by
  refine LinearForm.Pruned.addMultiple rfl ?_ _ _
  refine OrderedMap.foldl_induction (P := LinearForm.Pruned)
    (LinearForm.pruned_ofConstant _) fun sum v c _ hsum => ?_
  exact LinearForm.Pruned.addMultiple rfl hsum _ _

end Tableau

end AnyTolerance

open Exact in
/-- With exact numbers no relation loses anything. -/
theorem Tableau.Faithful.intact {t : Tableau Rat} {imposed : List Imposed}
    (h : t.Faithful imposed) {a : Imposed} (ha : a ∈ imposed) (hr : a.1.normal.Pruned) :
    t.Intact a.1 a.2 := by
  refine (t.pruned_residue _ _).eq_of_evaluate_eq (LinearForm.pruned_ofConstant 0) fun value => ?_
  have hsolution := h.wellFormed.separated.satisfies_extend value
  have hbalances := (h.satisfies_iff _).mp hsolution a ha
  rw [evaluate_residue, Expression.lift_eq_one hr, mul_one, LinearForm.evaluate_ofConstant]
  exact Relation.balances_iff.mp hbalances

end LinearConstraints
