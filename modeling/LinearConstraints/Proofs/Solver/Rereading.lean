import LinearConstraints.Proofs.Form.Evaluation
import LinearConstraints.Proofs.Tableau.Rows
import LinearConstraints.Solver

/-! # A solution read once more

    What a solver writes into the variables it reads again the next time.  The
    variables that the rows read are parametric, and the written values of
    those are either the ones they had or zero, so that every row is worth
    what it was worth when it was read first, or as much as with zeros
    everywhere.  That much is true for numbers of any kind.  With fractions
    the solution of a feasible solver does not change when it is read again. -/

namespace LinearConstraints.Solver

section AnyScalar

variable {α : Type} [Scalar α] {solver : Solver α} {value : VariableId → α}

/-- The solution says something of registered variables only. -/
theorem solution?_of_not_contains {v : VariableId} (hv : ¬ solver.references.contains v = true)
    (value : VariableId → α) : solver.solution? value v = none :=
  if_neg hv

/-- The values of the variables once the solution has been written. -/
def written (s : Solver α) (value : VariableId → α) (v : VariableId) : α :=
  (s.solution? value v).getD (value v)

/-- A variable that is not registered keeps its value. -/
theorem written_of_not_contains {v : VariableId}
    (hv : ¬ solver.references.contains v = true) : solver.written value v = value v := by
  rw [written, solution?_of_not_contains hv, Option.getD_none]

/-- A variable with a row is read off it. -/
theorem written_of_row? {v : VariableId} {row : Row α}
    (hv : solver.references.contains v = true) (hrow : solver.tableau.row? (.external v) = some row) :
    solver.written value v =
      if solver.keepsValues value then row.evaluate (solver.parametric value)
      else row.constant := by
  simp only [written, solution?]
  rw [if_pos hv, hrow]
  rfl

/-- A variable without one keeps its value if variables do. -/
theorem written_of_not_isBasic {v : VariableId} (hv : solver.references.contains v = true)
    (hb : ¬ solver.tableau.isBasic (.external v) = true) :
    solver.written value v = if solver.keepsValues value then value v else 0 := by
  simp only [written, solution?]
  rw [if_pos hv, Tableau.row?_eq_none_of_not_isBasic hb]
  simp only
  split <;> rfl

/-- Parametric symbols are read with the values they had or as zeros. -/
theorem parametric_written {u : Symbol} (hu : ¬ solver.tableau.isBasic u = true) :
    solver.parametric (solver.written value) u =
      if solver.keepsValues value then solver.parametric value u else 0 := by
  cases u with
  | external v =>
      simp only [parametric]
      by_cases hv : solver.reconcile = true ∧ solver.references.contains v = true
      · rw [if_pos hv, if_pos hv, written_of_not_isBasic hv.2 hu]
      · rw [if_neg hv, if_neg hv, ite_self]
  | slack i | dummy i | artificial i => exact (ite_self _).symm

/-- Rows are worth what they were worth, or as much as with zeros everywhere. -/
theorem evaluate_parametric_written (hsep : solver.tableau.Separated) {s : Symbol} {row : Row α}
    (hrow : solver.tableau.row? s = some row) :
    row.evaluate (solver.parametric (solver.written value)) =
      if solver.keepsValues value then row.evaluate (solver.parametric value)
      else row.evaluate fun _ => 0 := by
  split
  · next hkeeps =>
      exact hsep.evaluate_congr (fun u hu => by rw [parametric_written hu, if_pos hkeeps]) hrow
  · next hfalls =>
      exact hsep.evaluate_congr (fun u hu => by rw [parametric_written hu, if_neg hfalls]) hrow

end AnyScalar

variable [Tolerance] {solver : Solver Rat} {value : VariableId → Rat}

/-- Rows are read again as they were written. -/
theorem evaluate_written (hsep : solver.tableau.Separated) {s : Symbol} {row : Row Rat}
    (hrow : solver.tableau.row? s = some row) :
    row.evaluate (solver.parametric (solver.written value)) =
      if solver.keepsValues value then row.evaluate (solver.parametric value)
      else row.constant := by
  rw [evaluate_parametric_written hsep hrow, LinearForm.evaluate_eq_constant fun _ _ => rfl]

/-- If variables may keep values at all, they may keep those of a solution. -/
theorem keepsValues_written (hsep : solver.tableau.Separated)
    (hfeas : solver.tableau.isFeasible = true) :
    solver.keepsValues (solver.written value) = solver.reconcile := by
  rw [keepsValues, Bool.and_eq_left_iff_imp]
  intro _
  refine OrderedMap.all_iff.mpr fun s row hrow => ?_
  rw [evaluate_written hsep hrow]
  split
  · next hkeeps => exact OrderedMap.all_iff.mp ((Bool.and_eq_true ..).mp hkeeps).2 s row hrow
  · exact OrderedMap.all_iff.mp hfeas s row hrow

/-- A solution that has been written is the solution for its own values. -/
theorem written_written (hsep : solver.tableau.Separated)
    (hfeas : solver.tableau.isFeasible = true) :
    solver.written (solver.written value) = solver.written value := by
  -- a solver that does not reconcile never keeps values
  have hfalls : ¬ solver.reconcile = true → ¬ solver.keepsValues value = true :=
    fun h hkeeps => h ((Bool.and_eq_true ..).mp hkeeps).1
  funext v
  by_cases hv : solver.references.contains v = true
  swap
  · rw [written_of_not_contains hv]
  cases hrow : solver.tableau.row? (.external v) with
  | some row =>
      rw [written_of_row? hv hrow, keepsValues_written hsep hfeas, evaluate_written hsep hrow,
        written_of_row? hv hrow]
      split
      · rfl
      · next hno => rw [if_neg (hfalls hno)]
  | none =>
      have hb := Tableau.not_isBasic_of_row? hrow
      rw [written_of_not_isBasic hv hb, keepsValues_written hsep hfeas,
        written_of_not_isBasic hv hb]
      split
      · rfl
      · next hno => rw [if_neg (hfalls hno)]

end LinearConstraints.Solver
