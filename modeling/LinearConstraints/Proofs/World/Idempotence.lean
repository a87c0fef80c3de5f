import LinearConstraints.Proofs.Solver.Exactness
import LinearConstraints.Proofs.World.Apart

/-! # Solving twice is solving once

    Solving may read the variables by two rules: under the values that they
    have, or, if those cannot stay, with zeros everywhere.  A solution that has
    been written can always stay, because the solver was feasible, and so the
    second time the first rule applies, whichever it was the first time.  With
    fractions both give the same, at any tolerance. -/

namespace LinearConstraints.World

/-- Where the solution is what the variables are worth already, writing it
    changes nothing. -/
theorem solved_eq_vars {α : Type} [Scalar α] {w : World α} {solver : Solver α}
    (h : solver.written w.valueOf = w.valueOf) : w.solved solver = w.vars := by
  refine Array.ext_getElem? fun v => ?_
  have hvalue : (solver.solution? w.valueOf v).getD (w.valueOf v) = w.valueOf v := congrFun h v
  rw [solved, Array.getElem?_mapIdx]
  cases hx : w.vars[v]? with
  | none => rfl
  | some x =>
      have hold : w.valueOf v = x.value := by
        simp only [valueOf]
        rw [hx]
      cases hsolution : solver.solution? w.valueOf v with
      | none => rfl
      | some value =>
          rw [hsolution, hold] at hvalue
          obtain rfl : value = x.value := hvalue
          rfl

section AnyTolerance

variable [Tolerance] {w : World Rat} {s : SolverId} {solver : Solver Rat}

/-- A feasible solver is solved without a change to any solver or constraint,
    and solving it again right away changes nothing at all. -/
theorem solve_idempotent (hw : w.Reachable) (hs : w.solvers.get? s = some solver)
    (hfeas : solver.tableau.isFeasible = true) :
    ∃ vars, (solve s).run w = .ok () { w with vars := vars } ∧
      (solve s).run { w with vars := vars } = .ok () { w with vars := vars } := by
  obtain ⟨ledger, hk⟩ := hw.kept.exists_ledger s solver hs
  have hfirst := run_solve_of_isFeasible hs hfeas
  have hw' : World.Reachable { w with vars := w.solved solver } :=
    after_of_ok (.solve s) hfirst ▸ hw.after trivial
  have hk' : World.Keeps { w with vars := w.solved solver } s solver ledger :=
    ⟨hk.arises, hk.owned⟩
  have hagain : World.solved { w with vars := w.solved solver } solver = w.solved solver := by
    refine solved_eq_vars ?_
    rw [hk'.valueOf_written hw'.kept rfl]
    exact Solver.written_written hk.arises.wellFormed.separated hfeas
  refine ⟨w.solved solver, hfirst, ?_⟩
  rw [run_solve_of_isFeasible (w := { w with vars := w.solved solver }) hs hfeas, hagain]

end AnyTolerance

open Thresholded

/-- One variable equals another, which has an upper bound and is then set beyond
    it. -/
def overridden : List (Call Rat) :=
  [.newVariable none 0 false, .newVariable none 0 false, .newConstraint (.proportional 0 1 1),
    .newConstraint (.limit 1 1 .atMost 3), .newSolver Settings.standard, .add 0 0, .add 0 1,
    .setValue 1 8]

theorem reachable_overridden : (afterAll {} overridden).Reachable := by
  refine ⟨overridden, ?_, rfl⟩
  simp only [overridden, List.forall_mem_cons]
  exact ⟨trivial, trivial, Relation.formulated_proportional 0 1 1,
    Relation.formulated_limit 1 1 .atMost 3, trivial, trivial, trivial, trivial, nofun⟩

/-- The value beyond the bound cannot stay, so that solving sets both variables
    to zero; solving again keeps them there. -/
theorem solve_idempotent_overridden : (afterAll {} overridden).Reachable ∧
    ∃ solver, (afterAll {} overridden).solvers.get? 0 = some solver ∧
      solver.tableau.isFeasible = true ∧
      solver.keepsValues (afterAll {} overridden).valueOf = false ∧
      ∃ w', (solve 0).run (afterAll {} overridden) = .ok () w' ∧
        solver.keepsValues w'.valueOf = true ∧ (solve 0).run w' = .ok () w' := by
  have h : ((afterAll {} overridden).solvers.get? 0).any (fun solver =>
      solver.tableau.isFeasible = true ∧
        solver.keepsValues (afterAll {} overridden).valueOf = false ∧
        passes (solve 0) (fun w' => solver.keepsValues w'.valueOf)
          (afterAll {} overridden) = true) = true := by
    decide +kernel
  obtain ⟨solver, hs, htest⟩ := (Option.any_eq_true ..).mp h
  obtain ⟨hfeas, hfalls, hpasses⟩ := of_decide_eq_true htest
  obtain ⟨vars, hfirst, hagain⟩ := solve_idempotent reachable_overridden hs hfeas
  rw [passes_of_run hfirst] at hpasses
  exact ⟨reachable_overridden, solver, hs, hfeas, hfalls, _, hfirst, hpasses, hagain⟩

end LinearConstraints.World
