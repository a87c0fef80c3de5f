import LinearConstraints.Proofs.World.Feasibility

/-! # No artificial outlives a call

    Artificials are made up within a call, one for each row that phase one
    absorbs, and phase one carries them through all rows.  None of them is left
    when the call returns.  One that succeeds has struck out the column of each
    artificial before it made up the next, wherever phase one left it: basic
    at zero or at a residue below the tolerance, basic with an empty row, or
    parametric.  One that fails leaves the tableau it started from.  Nothing
    of this depends on the arithmetic or on the tolerance. -/

namespace LinearConstraints.World

variable {α : Type} [Scalar α] {w : World α}

/-- Whether no solver has a row for an artificial or a cell of one. -/
def Settled (w : World α) : Prop :=
  ∀ s solver, w.solvers.get? s = some solver → ∀ i,
    solver.tableau.row? (.artificial i) = none ∧
      ∀ u row, solver.tableau.row? u = some row → row.terms.get? (.artificial i) = none

/-- Between calls the tableau of every solver is well formed. -/
theorem Reachable.settled (hw : w.Reachable) : w.Settled := by
  intro s solver hs i
  obtain ⟨ledger, hk⟩ := hw.kept.exists_ledger s solver hs
  have hgone : ¬ solver.tableau.mentions (.artificial i) = true := by
    intro hm
    exact nomatch hk.arises.wellFormed.settled _ hm
  refine ⟨Tableau.row?_eq_none_of_not_isBasic fun hb => ?_, fun u row hu => ?_⟩
  · exact hgone (Tableau.mentions_of_isBasic hb)
  · exact LinearForm.get?_eq_none_of_not_mentions fun hm => hgone (Tableau.mentions_of_row hu hm)

/-- Whatever a call returns, the world that it leaves arises too. -/
theorem Reachable.left (hw : w.Reachable) (call : Call α) (hcall : call.Formulated) :
    (left (call.make.run w)).Reachable := by
  rw [← after_eq]
  exact hw.after hcall

/-- No call that changes or solves the constraints of a solver leaves an
    artificial behind, whether it succeeds or fails. -/
theorem settled_left (hw : w.Reachable) (s : SolverId) :
    (∀ c, (left ((add s c).run w)).Settled) ∧
      (∀ cs, (left ((addAll s cs).run w)).Settled) ∧
      (∀ c, (left ((remove s c).run w)).Settled) ∧
      (left ((solve s).run w)).Settled ∧
      (left ((reset s).run w)).Settled := by
  refine ⟨fun c => ?_, fun cs => ?_, fun c => ?_, ?_, ?_⟩
  · exact (hw.left (.add s c) trivial).settled
  · exact (hw.left (.addAll s cs) trivial).settled
  · exact (hw.left (.remove s c) trivial).settled
  · exact (hw.left (.solve s) trivial).settled
  · exact (hw.left (.reset s) trivial).settled

open Thresholded

/-- Adding the far bound of `shallow` takes an artificial, and solving
    afterwards takes another one before it fails: both worlds are settled. -/
theorem settled_left_shallow : (afterAll {} shallow).Reachable ∧
    ∃ w', (add 0 2).run (afterAll {} shallow) = .ok () w' ∧ w'.Settled ∧
      ∃ reason, (solve 0).run w' = .error reason w' ∧ w'.Settled := by
  obtain ⟨w', hadd, -, reason, w'', hsolve⟩ := exists_add_shallow
  have hsame := eq_of_solve_error hsolve
  subst hsame
  have hreach : w''.Reachable := after_of_ok (.add 0 2) hadd ▸ reachable_shallow.after trivial
  have hfirst := (settled_left reachable_shallow 0).1 2
  have hsecond := (settled_left hreach 0).2.2.2.1
  rw [hadd] at hfirst
  rw [hsolve] at hsecond
  exact ⟨reachable_shallow, w'', hadd, hfirst, reason, hsolve, hsecond⟩

end LinearConstraints.World
