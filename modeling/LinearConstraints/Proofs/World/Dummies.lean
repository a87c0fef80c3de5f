import LinearConstraints.Proofs.Solver.Exactness
import LinearConstraints.Proofs.World.Registry

/-! # Dummies among themselves

    A dummy is the mark of an equation and has to be zero for the equation to
    hold.  It is basic where the equation follows from others, or where an
    artificial had nothing else to give way to, and its row then holds dummies
    only, whatever the arithmetic.  With fractions, at any tolerance, the row
    has no constant either: nothing that variables and slacks may be worth
    moves a dummy away from zero. -/

namespace LinearConstraints.World

/-- In every world that arises the rows of dummies hold only dummies.  With
    fractions they have no constants, and dummies are zero whatever the
    parametric variables and slacks are worth. -/
theorem dummies_at_zero :
    (∀ (α : Type) [Scalar α] (w : World α) (s : SolverId) (solver : Solver α), w.Reachable →
      w.solvers.get? s = some solver → ∀ i row, solver.tableau.row? (.dummy i) = some row →
        ∀ u, row.mentions u = true → u.isDummy = true) ∧
    ∀ [Tolerance] (w : World Rat) (s : SolverId) (solver : Solver Rat), w.Reachable →
      w.solvers.get? s = some solver →
        (∀ i row, solver.tableau.row? (.dummy i) = some row → row.constant = 0) ∧
        ∀ point : Symbol → Rat,
          (∀ u, u.isDummy = true → ¬ solver.tableau.isBasic u = true → point u = 0) →
          solver.tableau.Satisfies (solver.tableau.extend point) ∧
            ∀ u, u.isDummy = true → solver.tableau.extend point u = 0 := by
  refine ⟨fun α _ w s solver hw hs i row hrow => ?_, fun w s solver hw hs => ?_⟩
  · obtain ⟨ledger, hk⟩ := hw.kept.exists_ledger s solver hs
    exact Row.onlyDummies_iff.mp (hk.arises.wellFormed.dummies _ row hrow rfl)
  · obtain ⟨ledger, hk⟩ := hw.kept.exists_ledger s solver hs
    have hwf := hk.arises.wellFormed
    refine ⟨fun i row hrow => hk.arises.grounded _ row hrow rfl, fun point hpoint => ?_⟩
    exact ⟨hwf.separated.satisfies_extend point, fun u hu =>
      hk.arises.grounded.extend_eq_zero hwf.separated hwf.dummies hpoint hu⟩

open Thresholded

/-- A variable is fixed, a second one is twice as large, and a third equation
    says of the second one what follows from the other two. -/
def implied : List (Call Rat) :=
  [.newVariable none 0 false, .newVariable none 0 false, .newConstraint (.limit 1 0 .equal 2),
    .newConstraint (.proportional 1 2 0), .newConstraint (.limit 1 1 .equal 4),
    .newSolver Settings.standard, .add 0 0, .add 0 1, .add 0 2]

theorem reachable_implied : (afterAll {} implied).Reachable := by
  refine ⟨implied, ?_, rfl⟩
  simp only [implied, List.forall_mem_cons]
  exact ⟨trivial, trivial, Relation.formulated_limit 1 0 .equal 2,
    Relation.formulated_proportional 1 2 0, Relation.formulated_limit 1 1 .equal 4, trivial,
    trivial, trivial, trivial, nofun⟩

/-- The dummy of the third equation is basic and follows those of the first two,
    and all three are zero while everything else is seven. -/
theorem dummies_at_zero_implied : (afterAll {} implied).Reachable ∧
    ∃ solver row, (afterAll {} implied).solvers.get? 0 = some solver ∧
      solver.tableau.row? (.dummy 2) = some row ∧ row.terms.keys = [.dummy 0, .dummy 1] ∧
      (∀ u, row.mentions u = true → u.isDummy = true) ∧ row.constant = 0 ∧
      ∀ u, u.isDummy = true →
        solver.tableau.extend (fun u => if u.isDummy then 0 else 7) u = 0 := by
  have h : ((afterAll {} implied).solvers.get? 0).any (fun solver =>
      (solver.tableau.row? (.dummy 2)).any fun row =>
        row.terms.keys = [.dummy 0, .dummy 1]) = true := by decide +kernel
  obtain ⟨solver, hs, htest⟩ := (Option.any_eq_true ..).mp h
  obtain ⟨row, hrow, hkeys⟩ := (Option.any_eq_true ..).mp htest
  have honly := dummies_at_zero.1 Rat _ 0 solver reachable_implied hs 2 row hrow
  obtain ⟨hconstant, hextend⟩ := dummies_at_zero.2 _ 0 solver reachable_implied hs
  exact ⟨reachable_implied, solver, row, hs, hrow, of_decide_eq_true hkeys, honly,
    hconstant 2 row hrow, (hextend _ fun u hu _ => if_pos hu).2⟩

end LinearConstraints.World
