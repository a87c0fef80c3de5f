import LinearConstraints.Proofs.Form.Formulas
import LinearConstraints.Proofs.Tableau.Sinking
import LinearConstraints.Proofs.World.Registry

/-! # When adding leaves a solver feasible

    A solver that was feasible and accepts a constraint is feasible again, and
    can be solved at once, if and only if phase one sinks no symbol for good.
    At the tolerance of double precision it may: a step of ten billion along a
    cell that is just as large as the tolerance is passed over by the ratio
    test, and takes a slack down by a hundred. -/

namespace LinearConstraints.World

section AnyTolerance

variable [Tolerance] {w w' : World Rat} {s : SolverId} {c : ConstraintId} {solver : Solver Rat}
  {x : Constraint Rat}

/-- A solver that has accepted a constraint is feasible and can be solved at
    once, unless the constraint has sunk a symbol for good. -/
theorem feasible_after_add_iff (hw : w.Reachable) (hs : w.solvers.get? s = some solver)
    (hx : w.constraints[c]? = some x) (heps : 0 ≤ solver.tableau.epsilon)
    (hfeas : solver.tableau.isFeasible = true) (hadd : (add s c).run w = .ok () w') :
    ((∃ solver', w'.solvers.get? s = some solver' ∧ solver'.tableau.isFeasible = true) ∧
        ∃ w'', (solve s).run w' = .ok () w'')
      ↔ ¬ solver.tableau.Founders w.isEditable x.relation := by
  obtain ⟨solver₁, x₁, marker, tableau, hs₁, hx₁, -, himpose, rfl⟩ := exists_of_add hadd
  obtain rfl := Option.some.inj (hs.symm.trans hs₁)
  obtain rfl := Option.some.inj (hx.symm.trans hx₁)
  obtain ⟨ledger, hk⟩ := hw.kept.exists_ledger s solver hs
  rw [← Tableau.isFeasible_impose_iff hk.arises.wellFormed heps hfeas himpose]
  have hget : (w.withAdded s c solver x marker tableau).solvers.get? s
      = some (solver.register c marker x.relation.vars tableau) :=
    OrderedMap.get?_insert_self ..
  constructor
  · rintro ⟨⟨solver', hs', hfeas'⟩, -⟩
    obtain rfl := Option.some.inj (hget.symm.trans hs')
    exact hfeas'
  · intro hfeas'
    have hnow : (solver.register c marker x.relation.vars tableau).tableau.isFeasible = true :=
      hfeas'
    refine ⟨⟨_, hget, hnow⟩, ?_⟩
    rw [run_solve, hget]
    simp only
    rw [if_pos hnow]
    exact ⟨_, rfl⟩

end AnyTolerance

/-! ## A step along a cell the size of the tolerance -/

open Thresholded

/-- A variable that occurs already is bounded above through a coefficient that
    is just as large as the tolerance; a far lower bound stays free. -/
def shallow : List (Call Rat) :=
  [.newVariable none 0 false, .newVariable none 0 false, .newConstraint (.proportional 0 1 1),
    .newConstraint (.limit (1 / 100000000) 1 .atMost 1),
    .newConstraint (.limit 1 1 .atLeast 10000000000),
    .newSolver Settings.standard, .add 0 0, .add 0 1]

theorem reachable_shallow : (afterAll {} shallow).Reachable := by
  refine ⟨shallow, ?_, rfl⟩
  simp only [shallow, List.forall_mem_cons]
  exact ⟨trivial, trivial, Relation.formulated_proportional 0 1 1,
    Relation.formulated_limit _ 1 _ 1, Relation.formulated_limit 1 1 _ _, trivial, trivial, trivial,
    nofun⟩

/-- The solver of the shallow bound is feasible and works at the tolerance. -/
theorem exists_solver_shallow : ∃ solver, (afterAll {} shallow).solvers.get? 0 = some solver ∧
    solver.tableau.epsilon = 1 / 100000000 ∧ solver.tableau.isFeasible = true := by
  have h : ((afterAll {} shallow).solvers.get? 0).any (fun solver =>
      solver.tableau.epsilon = 1 / 100000000 ∧ solver.tableau.isFeasible = true) = true := by
    decide +kernel
  obtain ⟨solver, hs, htest⟩ := (Option.any_eq_true ..).mp h
  exact ⟨solver, hs, of_decide_eq_true htest⟩

/-- The far bound is accepted, and then the tableau is not feasible and cannot
    be solved. -/
theorem exists_add_shallow : ∃ w', (add 0 2).run (afterAll {} shallow) = .ok () w' ∧
    (∃ solver', w'.solvers.get? 0 = some solver' ∧ solver'.tableau.isFeasible = false) ∧
    ∃ reason w'', (solve 0).run w' = .error reason w'' := by
  have h : passes (add 0 2) (fun w' =>
      ((w'.solvers.get? 0).any fun solver => solver.tableau.isFeasible = false)
        && refuses (solve 0) w') (afterAll {} shallow) = true := by decide +kernel
  obtain ⟨w', hadd, htest⟩ := exists_of_passes h
  obtain ⟨hinfeasible, hsolve⟩ := (Bool.and_eq_true ..).mp htest
  obtain ⟨solver', hs', hfeas⟩ := (Option.any_eq_true ..).mp hinfeasible
  exact ⟨w', hadd, ⟨solver', hs', of_decide_eq_true hfeas⟩, exists_of_refuses hsolve⟩

/-- At the tolerance of double precision, accepting a constraint does not always
    leave a feasible solver feasible. -/
theorem infeasible_after_add_shallow : (afterAll {} shallow).Reachable ∧
    (∃ solver, (afterAll {} shallow).solvers.get? 0 = some solver ∧
      solver.tableau.epsilon = 1 / 100000000 ∧ solver.tableau.isFeasible = true) ∧
    ∃ w', (add 0 2).run (afterAll {} shallow) = .ok () w' ∧
      (∃ solver', w'.solvers.get? 0 = some solver' ∧ solver'.tableau.isFeasible = false) ∧
      ∃ reason w'', (solve 0).run w' = .error reason w'' :=
  ⟨reachable_shallow, exists_solver_shallow, exists_add_shallow⟩

/-- The far bound sinks a symbol for good. -/
theorem founders_shallow : ∃ solver, (afterAll {} shallow).solvers.get? 0 = some solver ∧
    solver.tableau.Founders (afterAll {} shallow).isEditable (.limit 1 1 .atLeast 10000000000) := by
  obtain ⟨solver, hs, heps, hfeas⟩ := exists_solver_shallow
  obtain ⟨w', hadd, ⟨solver', hs', hinfeas⟩, -⟩ := exists_add_shallow
  have hx : (afterAll {} shallow).constraints[2]?
      = some ⟨.limit 1 1 .atLeast 10000000000, none⟩ := by
    decide +kernel
  refine ⟨solver, hs, ?_⟩
  by_contra hnot
  obtain ⟨⟨solver'', hs'', hfeas''⟩, -⟩ := (feasible_after_add_iff reachable_shallow hs hx
    (by rw [heps]; norm_num) hfeas hadd).mpr hnot
  obtain rfl := Option.some.inj (hs'.symm.trans hs'')
  rw [hinfeas] at hfeas''
  exact nomatch hfeas''

end LinearConstraints.World
