import LinearConstraints.Proofs.Solver.Exactness
import LinearConstraints.Proofs.World.Registry

/-! # Removing needs no repair

    Where no basic slack of a solver is negative, a constraint that the solver
    holds can always be removed.  Its marker is found and withdrawn, no basic
    slack is negative afterwards, and so the repair that follows has nothing to
    do.  This holds at any tolerance: what is pruned on the way concerns cells
    only, while the argument is about the constants, which are exact. -/

namespace LinearConstraints.World

section AnyTolerance

variable [Tolerance] {w : World Rat} {s : SolverId} {solver : Solver Rat}

/-- Removing answers as the tableau does. -/
theorem Keeps.run_remove {ledger : List (Entry Rat)} (hk : w.Keeps s solver ledger)
    (hs : w.solvers.get? s = some solver) {e : Entry Rat} (he : e ∈ ledger) :
    (World.remove s e.constraint).run w =
      match solver.tableau.withdraw e.marker >>= Tableau.repair with
      | .ok tableau =>
          .ok () (w.withRemoved s e.constraint solver ⟨e.relation, some (.solver s)⟩ tableau)
      | .error reason => .error reason w := by
  rw [World.run_remove, hs]
  simp only
  rw [hk.owned e he, (hk.holds he).1]
  simp only [if_true]
  cases solver.tableau.withdraw e.marker >>= Tableau.repair with
  | ok tableau => rfl
  | error reason => rfl

/-- A constraint that a solver holds can be removed if no basic slack is
    negative.  Then withdrawing its marker makes none negative, repairing
    changes nothing, and the solver is left with the tableau withdrawn from. -/
theorem remove_of_inBounds (hw : w.Reachable) (hs : w.solvers.get? s = some solver)
    (heps : 0 ≤ solver.tableau.epsilon) (hbounds : solver.tableau.InBounds)
    {c : ConstraintId} {marker : Symbol} (hm : solver.marker? c = some marker) :
    ∃ t, solver.tableau.withdraw marker = .ok t ∧ t.InBounds ∧ t.repair = .ok t ∧
      ∃ w' solver', (remove s c).run w = .ok () w' ∧ w'.solvers.get? s = some solver' ∧
        solver'.tableau = t := by
  obtain ⟨ledger, hk⟩ := hw.kept.exists_ledger s solver hs
  obtain ⟨e, he, rfl, rfl⟩ := hk.arises.marker?_eq_some_iff.mp hm
  have hwf := hk.arises.wellFormed
  obtain ⟨t, ht⟩ := hk.arises.pruned.exists_withdraw hwf e.marker
  obtain ⟨hwf', -, heps'⟩ := hwf.withdraw ht
  have hn : t.Nonnegative :=
    (hwf.tidy.nonnegative_iff.mpr hbounds).withdraw hk.arises.pruned hk.arises.grounded ht
  have hrepair : t.repair = .ok t := hn.repair_eq (by rw [heps']; exact heps)
  refine ⟨t, ht, hwf'.tidy.nonnegative_iff.mp hn, hrepair, ?_⟩
  have hbind : (solver.tableau.withdraw e.marker >>= Tableau.repair) = .ok t := by
    rw [ht]
    exact hrepair
  refine ⟨w.withRemoved s e.constraint solver ⟨e.relation, some (.solver s)⟩ t,
    solver.unregister e.constraint e.relation.vars t, ?_, OrderedMap.get?_insert_self .., rfl⟩
  rw [hk.run_remove hs he, hbind]

end AnyTolerance

open Thresholded

/-- A variable has a lower bound and two upper bounds. -/
def bounds : List (Call Rat) :=
  [.newVariable none 0 false, .newConstraint (.limit 1 0 .atLeast 1),
    .newConstraint (.limit 1 0 .atMost 5), .newConstraint (.limit 1 0 .atMost 8),
    .newSolver Settings.standard, .add 0 0, .add 0 1, .add 0 2]

theorem reachable_bounds : (afterAll {} bounds).Reachable := by
  refine ⟨bounds, ?_, rfl⟩
  simp only [bounds, List.forall_mem_cons]
  exact ⟨trivial, Relation.formulated_limit 1 0 _ 1, Relation.formulated_limit 1 0 _ 5,
    Relation.formulated_limit 1 0 _ 8, trivial, trivial, trivial, trivial, nofun⟩

/-- The marker of the lower bound is parametric, and both upper bounds give way
    as it moves: the nearer one takes its place. -/
theorem remove_of_inBounds_bounds : (afterAll {} bounds).Reachable ∧
    ∃ solver, (afterAll {} bounds).solvers.get? 0 = some solver ∧
      0 ≤ solver.tableau.epsilon ∧ solver.tableau.InBounds ∧
      solver.marker? 0 = some (.slack 0) ∧
      solver.tableau.isBasic (.slack 0) = false ∧
      (solver.tableau.lowered (.slack 0)).map (·.2) = [4, 7] ∧
      ∃ t, solver.tableau.withdraw (.slack 0) = .ok t ∧ t.InBounds ∧ t.repair = .ok t ∧
        ∃ w' solver', (remove 0 0).run (afterAll {} bounds) = .ok () w' ∧
          w'.solvers.get? 0 = some solver' ∧ solver'.tableau = t := by
  have h : ((afterAll {} bounds).solvers.get? 0).any (fun solver =>
      0 ≤ solver.tableau.epsilon ∧
        (solver.tableau.rows.all fun s row => !s.isSlack || decide (0 ≤ row.constant)) ∧
        solver.marker? 0 = some (.slack 0) ∧ solver.tableau.isBasic (.slack 0) = false ∧
        (solver.tableau.lowered (.slack 0)).map (·.2) = [4, 7]) = true := by
    decide +kernel
  obtain ⟨solver, hs, htest⟩ := (Option.any_eq_true ..).mp h
  obtain ⟨heps, hall, hm, hb, hlow⟩ := of_decide_eq_true htest
  have hbounds : solver.tableau.InBounds := by
    intro i row hrow
    have hslack := OrderedMap.all_iff.mp hall (.slack i) row hrow
    exact of_decide_eq_true hslack
  exact ⟨reachable_bounds, solver, hs, heps, hbounds, hm, hb, hlow,
    remove_of_inBounds reachable_bounds hs heps hbounds hm⟩

end LinearConstraints.World
