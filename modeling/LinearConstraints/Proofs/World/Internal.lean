import LinearConstraints.Proofs.Guarded.Calls
import LinearConstraints.Proofs.Solver.Exactness
import LinearConstraints.Proofs.World.Feasibility
import LinearConstraints.Proofs.World.Remains

/-! # No call fails for an internal reason

    What adding, removing and solving compute on the tableau of a solver never
    comes to a division by zero, a symbol that is missing from the row it is to
    be solved for, a search that finds nothing to stop it or a marker without a
    row.  This rests on what every tableau that arises has: its rows hold
    parametric symbols only, none of them artificials, and no zero cells.  It
    holds at any tolerance up to one and for searches of any length. -/

namespace LinearConstraints.World

/-! ## Where a call is refused -/

section AnyScalar

variable {α : Type} [Scalar α] {w w' : World α} {s : SolverId} {c : ConstraintId}
  {solver : Solver α} {reason : Refusal α}

/-- Adding is refused for an internal reason only by the tableau. -/
theorem isInternal_of_add (hs : w.solvers.get? s = some solver)
    (himpose : ∀ x e, w.constraints[c]? = some x →
      solver.tableau.impose w.isEditable x.relation = .error e → e.isInternal = false)
    (h : (add s c).run w = .error reason w') : reason.isInternal = false := by
  rw [run_add, hs] at h
  simp only at h
  split at h
  · obtain ⟨rfl, -⟩ := EStateM.Result.error.inj h
    rfl
  · next x hx =>
      split at h
      · split at h <;>
          · obtain ⟨rfl, -⟩ := EStateM.Result.error.inj h
            rfl
      · split at h
        · cases h
        · next e he =>
            obtain ⟨rfl, -⟩ := EStateM.Result.error.inj h
            exact himpose x e hx he

/-- So is removing. -/
theorem isInternal_of_remove (hs : w.solvers.get? s = some solver)
    (hwithdraw : ∀ marker e, solver.marker? c = some marker →
      (solver.tableau.withdraw marker >>= Tableau.repair) = .error e → e.isInternal = false)
    (h : (remove s c).run w = .error reason w') : reason.isInternal = false := by
  rw [run_remove, hs] at h
  simp only at h
  split at h
  · obtain ⟨rfl, -⟩ := EStateM.Result.error.inj h
    rfl
  · split at h
    · obtain ⟨rfl, -⟩ := EStateM.Result.error.inj h
      rfl
    · next marker hm =>
        split at h
        · split at h
          · cases h
          · next e he =>
              obtain ⟨rfl, -⟩ := EStateM.Result.error.inj h
              exact hwithdraw marker e hm he
        · obtain ⟨rfl, -⟩ := EStateM.Result.error.inj h
          rfl

/-- And so is solving. -/
theorem isInternal_of_solve (hs : w.solvers.get? s = some solver)
    (hrepair : ∀ e, solver.tableau.repair = .error e → e.isInternal = false)
    (h : (solve s).run w = .error reason w') : reason.isInternal = false := by
  rw [run_solve, hs] at h
  simp only at h
  split at h
  · cases h
  · split at h
    · cases h
    · next e he =>
        obtain ⟨rfl, -⟩ := EStateM.Result.error.inj h
        exact hrepair e he

end AnyScalar

/-! ## No call is refused for an internal reason -/

section AnyTolerance

variable [Tolerance] {w : World Rat} {s : SolverId} {solver : Solver Rat}

/-- Whether all that adding, removing and solving compute on the tableau of a
    solver goes through, and leaves a tableau on which it does again. -/
structure GoesThrough (w : World Rat) (solver : Solver Rat) : Prop where
  /-- Any constraint can be added. -/
  adding : ∀ (c : ConstraintId) x, w.constraints[c]? = some x →
    Guarded.Passes (Guarded.impose w.isEditable x.relation solver.tableau)
      (solver.tableau.impose w.isEditable x.relation) fun a => Guarded.Sturdy a.2
  /-- Any constraint the solver holds can be removed. -/
  removing : ∀ c marker, solver.marker? c = some marker →
    Guarded.Passes (Guarded.withdraw marker solver.tableau >>= Guarded.repair)
      (solver.tableau.withdraw marker >>= Tableau.repair) Guarded.Sturdy
  /-- The tableau can be solved. -/
  solving : Guarded.Passes (Guarded.repair solver.tableau) solver.tableau.repair Guarded.Sturdy

/-- Calls go through wherever the tableau is sturdy, however it came about. -/
theorem Kept.goesThrough (hw : w.Kept) (htol : (Scalar.tolerance : Rat) ≤ 1)
    (hsturdy : Guarded.Sturdy solver.tableau) : w.GoesThrough solver := by
  have hsteady : Scalar.Steady solver.tableau.epsilon :=
    steady_of_tolerance htol hsturdy.epsilon_nonneg
  refine ⟨fun c x hx => ?_, fun c marker _ => ?_, hsturdy.repair⟩
  · have hform := (hw.legal c x hx).formulated
    exact hsturdy.impose hsteady hform.pruned_normal w.isEditable
  · exact (hsturdy.withdraw marker).bind fun _ ht => ht.repair

/-- The tableau of every solver that arises is sturdy. -/
theorem Kept.sturdy (hw : w.Kept) (hs : w.solvers.get? s = some solver)
    (heps : 0 ≤ solver.tableau.epsilon) : Guarded.Sturdy solver.tableau := by
  obtain ⟨ledger, hk⟩ := hw.exists_ledger s solver hs
  exact ⟨hk.arises.wellFormed, hk.arises.pruned, heps⟩

/-- In every reachable world all calls go through on the tableau of a solver,
    and none is refused for an internal reason.  The tolerance may be anything
    up to one, and the patience anything at all. -/
theorem calls_pass (hw : w.Reachable) (htol : (Scalar.tolerance : Rat) ≤ 1)
    (hs : w.solvers.get? s = some solver) (heps : 0 ≤ solver.tableau.epsilon) :
    w.GoesThrough solver ∧
      ∀ reason w', (∃ c, (add s c).run w = .error reason w') ∨
        (∃ c, (remove s c).run w = .error reason w') ∨ (solve s).run w = .error reason w' →
        reason.isInternal = false := by
  have hthrough := hw.kept.goesThrough htol (hw.kept.sturdy hs heps)
  refine ⟨hthrough, ?_⟩
  rintro reason w' (⟨c, h⟩ | ⟨c, h⟩ | h)
  · exact isInternal_of_add hs (fun x e hx => (hthrough.adding c x hx).fair e) h
  · exact isInternal_of_remove hs (fun marker e hm => (hthrough.removing c marker hm).fair e) h
  · exact isInternal_of_solve hs hthrough.solving.fair h

end AnyTolerance

open Thresholded

/-- The far bound of `shallow` sends the tableau through phase one, and leaves
    it for a repair to fail on: neither divides by zero. -/
theorem calls_pass_shallow : (afterAll {} shallow).Reachable ∧
    (Scalar.tolerance : Rat) = 1 / 100000000 ∧
    ∃ solver, (afterAll {} shallow).solvers.get? 0 = some solver ∧
      0 ≤ solver.tableau.epsilon ∧ (afterAll {} shallow).GoesThrough solver ∧
      ∃ w' solver', (add 0 2).run (afterAll {} shallow) = .ok () w' ∧
        w'.solvers.get? 0 = some solver' ∧ 0 ≤ solver'.tableau.epsilon ∧
        ∃ reason, (solve 0).run w' = .error reason w' ∧ reason.isInternal = false := by
  have h : passes (add 0 2) (fun w' =>
      ((w'.solvers.get? 0).any fun solver => 0 ≤ solver.tableau.epsilon)
        && refuses (solve 0) w') (afterAll {} shallow) = true := by decide +kernel
  have htol : (Scalar.tolerance : Rat) ≤ 1 := by decide +kernel
  obtain ⟨solver, hs, heps, -⟩ := exists_solver_shallow
  have hnonneg : 0 ≤ solver.tableau.epsilon := by
    rw [heps]
    norm_num
  obtain ⟨w', hadd, htest⟩ := exists_of_passes h
  obtain ⟨hany, hrefuses⟩ := (Bool.and_eq_true ..).mp htest
  obtain ⟨solver', hs', heps'⟩ := (Option.any_eq_true ..).mp hany
  obtain ⟨reason, w'', hsolve⟩ := exists_of_refuses hrefuses
  obtain rfl := eq_of_solve_error hsolve
  have hreach : World.Reachable w'' := after_of_ok (.add 0 2) hadd ▸ reachable_shallow.after trivial
  exact ⟨reachable_shallow, rfl, solver, hs, hnonneg,
    (calls_pass reachable_shallow htol hs hnonneg).1, w'', solver', hadd, hs',
    of_decide_eq_true heps', reason, hsolve,
    (calls_pass hreach htol hs' (of_decide_eq_true heps')).2 reason w'' (.inr (.inr hsolve))⟩

end LinearConstraints.World
