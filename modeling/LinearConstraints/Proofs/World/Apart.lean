import LinearConstraints.Proofs.Solver.References
import LinearConstraints.Proofs.Solver.Rereading
import LinearConstraints.Proofs.Tableau.Resolution
import LinearConstraints.Proofs.World.Feasibility

/-! # Basic and parametric symbols stay apart

    In every world that arises the tableaux of all solvers are resolved, and so
    are those that a removal or a repair goes through.  What solving writes
    into the variables therefore does not depend on the order of the writes:
    rows are worth the same with the values that were there before and with
    the ones that have been written.  Nothing of this depends on the
    arithmetic. -/

namespace LinearConstraints.World

section AnyScalar

variable {α : Type} [Scalar α] {w w' : World α} {s : SolverId} {solver : Solver α}

/-- What the variables are worth once a solver has written its solution into
    them. -/
theorem Keeps.valueOf_written {ledger : List (Entry α)} (hk : w'.Keeps s solver ledger)
    (hw' : w'.Kept) (hvars : w'.vars = w.solved solver) :
    w'.valueOf = solver.written w.valueOf := by
  funext v
  by_cases hv : solver.references.contains v = true
  · -- a registered variable is one of a constraint, and so there is such a variable
    obtain ⟨e, he, hmem⟩ := hk.arises.references_contains_iff.mp hv
    have hlt := (hw'.legal _ _ (hk.owned e he)).known v hmem
    rw [hvars, solved, Array.size_mapIdx] at hlt
    exact valueOf_of_solved hvars hlt
  · rw [valueOf_of_solved_none hvars (Solver.solution?_of_not_contains hv _),
      Solver.written_of_not_contains hv]

/-- The solver that wrote a solution, and what it wrote. -/
theorem Reachable.exists_written (hw : w.Reachable) (hsolve : (solve s).run w = .ok () w') :
    ∃ solver ledger, w'.solvers.get? s = some solver ∧ w'.Keeps s solver ledger ∧
      w'.valueOf = solver.written w.valueOf := by
  have hw' : w'.Reachable := after_of_ok (.solve s) hsolve ▸ hw.after trivial
  obtain ⟨solver, hs, -, hvars⟩ := exists_of_solve hsolve
  obtain ⟨ledger, hk⟩ := hw'.kept.exists_ledger s solver hs
  exact ⟨solver, ledger, hs, hk, hk.valueOf_written hw'.kept hvars⟩

/-- What it means that the registered variables have been read off a tableau. -/
structure ReadOff (w : World α) (solver : Solver α) (w' : World α) : Prop where
  /-- If variables keep their values, those without a row do, -/
  keeps : solver.keepsValues w.valueOf = true → ∀ v, solver.references.contains v = true →
    ¬ solver.tableau.isBasic (.external v) = true → w'.valueOf v = w.valueOf v
  /-- and those with a row have the value of the row, be it read before or after
      the values have been written. -/
  follows : solver.keepsValues w.valueOf = true → ∀ v row, solver.references.contains v = true →
    solver.tableau.row? (.external v) = some row →
    w'.valueOf v = row.evaluate (solver.parametric w.valueOf) ∧
      w'.valueOf v = row.evaluate (solver.parametric w'.valueOf)
  /-- Otherwise all have the values of the tableau. -/
  settles : ¬ solver.keepsValues w.valueOf = true → ∀ v, solver.references.contains v = true →
    w'.valueOf v = solver.tableau.valueOf (.external v)

/-- What is written into the variables has been read off the tableau. -/
theorem readOff_of_written (hsep : solver.tableau.Separated)
    (hwritten : w'.valueOf = solver.written w.valueOf) : w.ReadOff solver w' where
  keeps hkeeps v hv hb := by
    rw [hwritten, Solver.written_of_not_isBasic hv hb, if_pos hkeeps]
  follows hkeeps v row hv hrow := by
    rw [hwritten, Solver.evaluate_parametric_written hsep hrow, if_pos hkeeps,
      Solver.written_of_row? hv hrow, if_pos hkeeps]
    exact ⟨rfl, rfl⟩
  settles hfalls v hv := by
    rw [hwritten]
    by_cases hb : solver.tableau.isBasic (.external v) = true
    · obtain ⟨row, hrow⟩ := Tableau.isBasic_iff.mp hb
      rw [Solver.written_of_row? hv hrow, if_neg hfalls, Tableau.valueOf_of_row? hrow]
    · rw [Solver.written_of_not_isBasic hv hb, if_neg hfalls, Tableau.valueOf_of_not_isBasic hb]

/-- In every world that arises, the tableau of each solver is resolved, and with
    it every tableau that withdrawing a marker or repairing goes through.  What
    solving writes is read off such a tableau. -/
theorem symbols_apart (hw : w.Reachable) (hs : w.solvers.get? s = some solver) :
    solver.tableau.Resolved ∧
    (∀ u, solver.tableau.MendsThrough u → u.Resolved) ∧
    (∀ marker t, solver.tableau.withdraw marker = .ok t →
      t.Resolved ∧ ∀ u, t.MendsThrough u → u.Resolved) ∧
    ∀ w', (solve s).run w = .ok () w' → ∃ solver', w'.solvers.get? s = some solver' ∧
      solver'.tableau.Resolved ∧ w.ReadOff solver' w' := by
  obtain ⟨ledger, hk⟩ := hw.kept.exists_ledger s solver hs
  have hwf := hk.arises.wellFormed
  refine ⟨hwf.resolved, fun u hu => (hwf.mendsThrough hu).resolved, fun marker t ht => ?_,
    fun w' hsolve => ?_⟩
  · have hwf' := (hwf.withdraw ht).1
    exact ⟨hwf'.resolved, fun u hu => (hwf'.mendsThrough hu).resolved⟩
  · obtain ⟨solver', ledger', hs', hk', hwritten⟩ := hw.exists_written hsolve
    have hwf' := hk'.arises.wellFormed
    exact ⟨solver', hs', hwf'.resolved, readOff_of_written hwf'.separated hwritten⟩

end AnyScalar

open Thresholded

/-- The far bound of `shallow` leaves a row out of bounds.  Before it is added
    solving reads the variables off their rows, and after it a repair goes
    through a tableau in which that row is missing. -/
theorem symbols_apart_shallow : (afterAll {} shallow).Reachable ∧
    (∃ solver w', (afterAll {} shallow).solvers.get? 0 = some solver ∧
      solver.tableau.Resolved ∧ (solve 0).run (afterAll {} shallow) = .ok () w' ∧
      ∃ solver', w'.solvers.get? 0 = some solver' ∧
        (afterAll {} shallow).ReadOff solver' w') ∧
    ∃ w' solver u, (add 0 2).run (afterAll {} shallow) = .ok () w' ∧
      w'.solvers.get? 0 = some solver ∧ solver.tableau.MendsThrough u ∧ u.Resolved := by
  have h : passes (add 0 2) (fun w' =>
      (w'.solvers.get? 0).any fun solver => solver.tableau.negativeRows.length = 1)
      (afterAll {} shallow) = true := by decide +kernel
  refine ⟨reachable_shallow, ?_, ?_⟩
  · obtain ⟨solver, hs, -, hfeas⟩ := exists_solver_shallow
    obtain ⟨hresolved, -, -, hsolved⟩ := symbols_apart reachable_shallow hs
    have hrun := run_solve_of_isFeasible hs hfeas
    obtain ⟨solver', hs', -, hread⟩ := hsolved _ hrun
    exact ⟨solver, _, hs, hresolved, hrun, solver', hs', hread⟩
  · obtain ⟨w', hadd, htest⟩ := exists_of_passes h
    obtain ⟨solver, hs, hlength⟩ := (Option.any_eq_true ..).mp htest
    obtain ⟨a, hrows⟩ := List.length_eq_one_iff.mp (of_decide_eq_true hlength)
    have hreach : w'.Reachable := after_of_ok (.add 0 2) hadd ▸ reachable_shallow.after trivial
    have hmends : solver.tableau.MendsThrough
        { solver.tableau with
          rows := solver.tableau.rows.filter fun s row => !solver.tableau.isNegative s row } :=
      ⟨[], a, [], hrows, rfl⟩
    exact ⟨w', solver, _, hadd, hs, hmends, (symbols_apart hreach hs).2.1 _ hmends⟩

end LinearConstraints.World
