import LinearConstraints.Proofs.Solver.Exactness
import LinearConstraints.Proofs.Solver.References

/-! # What a solution is worth

    The solution of a solver follows from the values it gives to the parametric
    symbols: those the variables have, if none of the restricted symbols turns
    negative, and zero otherwise.  Slacks and dummies are zero in either case,
    and so the basic dummies are zero too. -/

namespace LinearConstraints.Solver

/-- The values that a solver gives to the parametric symbols. -/
def point {α : Type} [Scalar α] (s : Solver α) (value : VariableId → α) : Symbol → α :=
  if s.keepsValues value then s.parametric value else fun _ => 0

variable [Tolerance] {solver : Solver Rat} {value : VariableId → Rat}

/-- Only variables have values of their own. -/
theorem point_eq_zero {s : Symbol} (hs : s.isExternal = false) : solver.point value s = 0 := by
  simp only [point]
  split
  · cases s with
    | external v => exact nomatch hs
    | slack i => rfl
    | dummy i => rfl
    | artificial i => rfl
  · rfl

/-- A registered variable gets the value that follows, or has it already. -/
theorem solution?_getD {v : VariableId} (hv : solver.references.contains v = true) :
    (solver.solution? value v).getD (value v)
      = solver.tableau.extend (solver.point value) (.external v) := by
  simp only [solution?, point, Tableau.extend]
  rw [if_pos hv]
  cases solver.tableau.row? (.external v) with
  | some row =>
      simp only [Option.getD_some]
      split
      · rfl
      · exact (LinearForm.evaluate_eq_constant fun _ _ => rfl).symm
  | none =>
      simp only
      split
      · next hkeeps =>
          have hreconcile : solver.reconcile = true := ((Bool.and_eq_true ..).mp hkeeps).1
          exact (if_pos ⟨hreconcile, hv⟩).symm
      · rfl

/-- The marker of an equation is zero in every solution. -/
theorem Arises.extend_dummy {ledger : List (Entry Rat)} (h : solver.Arises ledger) {s : Symbol}
    (hs : s.isDummy = true) : solver.tableau.extend (solver.point value) s = 0 :=
  h.grounded.extend_eq_zero h.wellFormed.separated h.wellFormed.dummies
    (fun _ hu _ => point_eq_zero (Symbol.not_isExternal_of_isDummy hu)) hs

/-- In the solution of a feasible solver no restricted symbol is negative beyond
    the tolerance. -/
theorem extend_point_ge (value : VariableId → Rat) (heps : 0 ≤ solver.tableau.epsilon)
    (hfeas : solver.tableau.isFeasible = true) {s : Symbol} (hs : s.isRestricted = true) :
    -solver.tableau.epsilon ≤ solver.tableau.extend (solver.point value) s := by
  have hrestricted : ∀ {p : Prop} [Decidable p], (!s.isRestricted || decide p) = true → p := by
    intro p _ h
    rw [hs] at h
    exact of_decide_eq_true h
  by_cases hb : solver.tableau.isBasic s = true
  · obtain ⟨row, hrow⟩ := Tableau.isBasic_iff.mp hb
    rw [Tableau.extend_of_row? hrow]
    simp only [point]
    split
    · next hkeeps =>
        exact hrestricted (OrderedMap.all_iff.mp ((Bool.and_eq_true ..).mp hkeeps).2 s row hrow)
    · rw [LinearForm.evaluate_eq_constant fun _ _ => rfl]
      exact hrestricted (OrderedMap.all_iff.mp hfeas s row hrow)
  · rw [Tableau.extend_of_not_isBasic hb, point_eq_zero (Symbol.not_isExternal_of_isRestricted hs)]
    exact neg_nonpos.mpr heps

end LinearConstraints.Solver
