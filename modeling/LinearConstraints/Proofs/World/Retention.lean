import LinearConstraints.Proofs.Solver.Solution
import LinearConstraints.Proofs.Tableau.Residue
import LinearConstraints.Proofs.World.Registry

/-! # What is satisfied after a removal

    When a constraint has been removed and the callers have given variables new
    values, solving leaves a constraint that is still held satisfied if and
    only if its residue is small at the values of the parametric symbols.  At
    the tolerance of double precision it need not be: where two small factors
    multiply to something below the tolerance, the link between two variables
    is dropped as noise, and it is missed as soon as the constraint goes that
    kept both of them at zero. -/

namespace LinearConstraints.World

section AnyTolerance

variable [Tolerance] {w w₁ w₂ : World Rat} {s : SolverId} {c : ConstraintId}

/-- The world in which variables have been given values, one after the other. -/
def assign (w : World Rat) (values : List (VariableId × Rat)) : World Rat :=
  w.afterAll (values.map fun a => .setValue a.1 a.2)

/-- Whether all constraints that a solver holds are satisfied. -/
def AllSatisfied (w : World Rat) (s : SolverId) : Prop :=
  ∀ (c : ConstraintId) x, w.constraints[c]? = some x → w.holds s c = true →
    w.isSatisfied x = true

/-- Whether the residues of all constraints that a solver holds are small once
    the variables have the given values. -/
def Allows (w : World Rat) (solver : Solver Rat) (value : VariableId → Rat) : Prop :=
  ∀ (c : ConstraintId) x marker, w.constraints[c]? = some x → solver.marker? c = some marker →
    solver.tableau.Allows (solver.point value) x.relation marker

theorem Reachable.assign (hw : w.Reachable) (values : List (VariableId × Rat)) :
    (w.assign values).Reachable := by
  refine hw.afterAll fun call hcall => ?_
  obtain ⟨a, -, rfl⟩ := List.mem_map.mp hcall
  exact trivial

/-- Solving leaves a constraint satisfied if its residue allows it. -/
theorem Keeps.isSatisfied_iff {solver : Solver Rat} {ledger : List (Entry Rat)}
    (hk : w₁.Keeps s solver ledger) (hw : w.Kept) (hconstraints : w₁.constraints = w.constraints)
    (hvars : w₁.vars = w.solved solver) {e : Entry Rat} (he : e ∈ ledger) :
    e.relation.isSatisfied w₁.valueOf = true
      ↔ solver.tableau.Allows (solver.point w.valueOf) e.relation e.marker := by
  have hlegal := hw.legal e.constraint _ (hconstraints ▸ hk.owned e he)
  have hvalue : ∀ v ∈ e.relation.vars,
      w₁.valueOf v = solver.tableau.extend (solver.point w.valueOf) (.external v) := by
    intro v hv
    rw [valueOf_of_solved hvars (hlegal.known v hv)]
    exact Solver.solution?_getD (hk.arises.references_contains_iff.mpr ⟨e, he, hv⟩)
  have hsame : e.relation.isSatisfied w₁.valueOf
      = e.relation.isSatisfied
          fun v => solver.tableau.extend (solver.point w.valueOf) (.external v) := by
    simp only [Relation.isSatisfied]
    rw [LinearForm.evaluate_congr fun v hv => hvalue v (OrderedMap.mem_keys_iff.mpr hv)]
  rw [hsame]
  refine Tableau.isSatisfied_extend_iff hlegal.formulated.pruned_normal fun hequal => ?_
  refine hk.arises.extend_dummy ?_
  rw [hk.arises.marker_eq e he, hequal]
  rfl

/-- After solving, all constraints of a solver are satisfied if and only if all
    residues are small. -/
theorem Reachable.allSatisfied_iff (hw : w.Reachable) (hsolve : (solve s).run w = .ok () w₁) :
    ∃ solver, w₁.solvers.get? s = some solver ∧
      (w₁.AllSatisfied s ↔ w₁.Allows solver w.valueOf) := by
  have hw₁ : w₁.Reachable := after_of_ok (.solve s) hsolve ▸ hw.after trivial
  obtain ⟨solver, hs, hconstraints, hvars⟩ := exists_of_solve hsolve
  obtain ⟨ledger, hk⟩ := hw₁.kept.exists_ledger s solver hs
  refine ⟨solver, hs, ?_⟩
  calc w₁.AllSatisfied s
      ↔ ∀ e ∈ ledger, e.relation.isSatisfied w₁.valueOf = true :=
        hk.forall_holds_iff (P := fun r => r.isSatisfied w₁.valueOf = true) hs
    _ ↔ ∀ e ∈ ledger,
          solver.tableau.Allows (solver.point w.valueOf) e.relation e.marker :=
        forall₂_congr fun e he => hk.isSatisfied_iff hw.kept hconstraints hvars he
    _ ↔ w₁.Allows solver w.valueOf := hk.forall_iff.symm

/-- Whether a solver has lost nothing of the constraints that it holds and let
    no restricted symbol sink. -/
structure Unharmed (w : World Rat) (solver : Solver Rat) : Prop where
  feasible : solver.tableau.isFeasible = true
  intact : ∀ (c : ConstraintId) x marker, w.constraints[c]? = some x →
    solver.marker? c = some marker → solver.tableau.Intact x.relation marker

instance (t : Tableau Rat) (r : Relation Rat) (marker : Symbol) : Decidable (t.Intact r marker) :=
  inferInstanceAs (Decidable (t.residue r marker = LinearForm.ofConstant 0))

/-- That a solver is unharmed can be told from its register. -/
theorem unharmed_of_all {solver : Solver Rat} (hfeasible : solver.tableau.isFeasible = true)
    (hall : (solver.constraints.all fun a => w.constraints[a.1]?.all fun x =>
      solver.tableau.Intact x.relation a.2) = true) : w.Unharmed solver where
  feasible := hfeasible
  intact c x marker hx hmarker := by
    obtain ⟨before, after, heq, -⟩ := List.lookup_eq_some_iff.mp hmarker
    have hmem : (c, marker) ∈ solver.constraints :=
      heq ▸ List.mem_append_right _ (List.mem_cons_self ..)
    have htest := List.all_eq_true.mp hall (c, marker) hmem
    rw [hx] at htest
    exact of_decide_eq_true htest

/-- A solver that has lost nothing can satisfy its constraints whatever the
    values of the variables are. -/
theorem Keeps.allows {solver : Solver Rat} {ledger : List (Entry Rat)}
    (hk : w.Keeps s solver ledger) (hunharmed : w.Unharmed solver)
    (heps : 0 ≤ solver.tableau.epsilon) (hle : solver.tableau.epsilon ≤ Scalar.tolerance)
    (htol : (Scalar.tolerance : Rat) ≤ 1) (value : VariableId → Rat) :
    w.Allows solver value := by
  refine hk.forall_iff.mpr fun e he => ?_
  have hpruned := (hk.arises.formulated e he).pruned_normal
  have hnonneg : 0 ≤ (Scalar.tolerance : Rat) := heps.trans hle
  have hlift : (Scalar.tolerance : Rat) ≤ e.relation.normal.lift * Scalar.tolerance :=
    le_mul_of_one_le_left hnonneg (Expression.one_le_lift hpruned htol)
  have hintact := hk.forall_iff.mp hunharmed.intact e he
  refine hintact.allows hpruned hnonneg ?_
  have hkind := hk.arises.marker_eq e he
  by_cases hequal : e.relation.comparison = .equal
  · rw [hk.arises.extend_dummy (by rw [hkind, hequal]; rfl)]
    exact neg_nonpos.mpr (hnonneg.trans hlift)
  · have hrestricted : e.marker.isRestricted = true := by
      rw [hkind, Symbol.isRestricted, Comparison.mark_isSlack hequal]
      rfl
    have hge := Solver.extend_point_ge value heps hunharmed.feasible hrestricted
    linarith

/-- After a constraint has been removed and variables have been given values,
    solving satisfies all constraints that are left if and only if their
    residues are small, as they are where the solver is unharmed. -/
theorem satisfied_after_remove_iff (hw : w.Reachable)
    (hremove : (remove s c).run w = .ok () w₁) (values : List (VariableId × Rat))
    (hsolve : (solve s).run (w₁.assign values) = .ok () w₂) :
    ∃ solver, w₂.solvers.get? s = some solver ∧
      (w₂.AllSatisfied s ↔ w₂.Allows solver (w₁.assign values).valueOf) ∧
      (0 ≤ solver.tableau.epsilon → solver.tableau.epsilon ≤ Scalar.tolerance →
        (Scalar.tolerance : Rat) ≤ 1 → w₂.Unharmed solver → w₂.AllSatisfied s) := by
  have hw₁ : w₁.Reachable := after_of_ok (.remove s c) hremove ▸ hw.after trivial
  have hassigned := hw₁.assign values
  have hw₂ : w₂.Reachable := after_of_ok (.solve s) hsolve ▸ hassigned.after trivial
  obtain ⟨solver, hs, hiff⟩ := hassigned.allSatisfied_iff hsolve
  refine ⟨solver, hs, hiff, fun heps hle htol hunharmed => hiff.mpr ?_⟩
  obtain ⟨ledger, hk⟩ := hw₂.kept.exists_ledger s solver hs
  exact hk.allows hunharmed heps hle htol _

end AnyTolerance

open Exact in
/-- With exact numbers no solver is ever harmed. -/
theorem Reachable.unharmed {w : World Rat} {s : SolverId} {solver : Solver Rat}
    (hw : w.Reachable) (hs : w.solvers.get? s = some solver)
    (heps : solver.tableau.epsilon = 0) : w.Unharmed solver := by
  obtain ⟨ledger, hk⟩ := hw.kept.exists_ledger s solver hs
  have hf := hk.arises.faithful heps
  refine ⟨hf.ready.isFeasible, hk.forall_iff.mpr fun e he => ?_⟩
  have hmem : (e.relation, e.marker) ∈ ledger.map fun e => (e.relation, e.marker) :=
    List.mem_map_of_mem he
  have hintact := hf.intact hmem (hk.arises.formulated e he).pruned_normal
  exact hintact

/-! ## A link below the tolerance -/

open Thresholded

/-- A variable is a small part of another, and a third one is a small part of
    the first; the second one is fixed at zero. -/
def slender : List (Call Rat) :=
  [.newVariable none 0 false, .newVariable none 0 false, .newVariable none 0 false,
    .newConstraint (.proportional 0 (1 / 100000) 1),
    .newConstraint (.proportional 2 (1 / 10000) 0), .newConstraint (.limit 1 1 .equal 0),
    .newSolver Settings.standard, .add 0 0, .add 0 1, .add 0 2]

theorem reachable_slender : (afterAll {} slender).Reachable := by
  refine ⟨slender, ?_, rfl⟩
  simp only [slender, List.forall_mem_cons]
  exact ⟨trivial, trivial, trivial, Relation.formulated_proportional 0 _ 1,
    Relation.formulated_proportional 2 _ 0, Relation.formulated_limit 1 1 _ 0, trivial, trivial,
    trivial, trivial, nofun⟩

/-- Once the second variable is free and the first one is given a value, the
    third one does not follow. -/
theorem exists_remove_slender : ∃ w₁ w₂ : World Rat,
    (remove 0 2).run (afterAll {} slender) = .ok () w₁ ∧
      (solve 0).run (w₁.assign [(0, 10000000)]) = .ok () w₂ ∧ ¬ w₂.AllSatisfied 0 := by
  have h : passes (remove 0 2) (fun w₁ =>
      passes (solve 0)
        (fun w₂ => w₂.holds 0 1 && w₂.constraints[1]?.any fun x => !w₂.isSatisfied x)
        (w₁.assign [(0, 10000000)])) (afterAll {} slender) = true := by decide +kernel
  obtain ⟨w₁, hremove, h⟩ := exists_of_passes h
  obtain ⟨w₂, hsolve, h⟩ := exists_of_passes h
  obtain ⟨hholds, htest⟩ := (Bool.and_eq_true ..).mp h
  obtain ⟨x, hx, hnot⟩ := (Option.any_eq_true ..).mp htest
  refine ⟨w₁, w₂, hremove, hsolve, fun hall => ?_⟩
  rw [hall 1 x hx hholds] at hnot
  cases hnot

/-- As long as the second variable is fixed, the value of the first one is
    overridden and all three are satisfied. -/
theorem exists_solve_slender : ∃ w₀ : World Rat,
    (solve 0).run ((afterAll {} slender).assign [(0, 10000000)]) = .ok () w₀ ∧
      w₀.AllSatisfied 0 := by
  have h : passes (solve 0) (fun w₀ => w₀.constraints.all w₀.isSatisfied)
      ((afterAll {} slender).assign [(0, 10000000)]) = true := by decide +kernel
  obtain ⟨w₀, hsolve, htest⟩ := exists_of_passes h
  refine ⟨w₀, hsolve, fun c x hx _ => ?_⟩
  obtain ⟨hlt, rfl⟩ := Array.getElem?_eq_some_iff.mp hx
  exact Array.all_eq_true.mp htest c hlt

/-- At the tolerance of double precision, a removal can lose a constraint that
    is still held: solving satisfied it before, and does not afterwards. -/
theorem unsatisfied_after_remove_slender : (afterAll {} slender).Reachable ∧
    (∃ w₀ : World Rat,
      (solve 0).run ((afterAll {} slender).assign [(0, 10000000)]) = .ok () w₀ ∧
        w₀.AllSatisfied 0) ∧
    ∃ w₁ w₂ : World Rat, (remove 0 2).run (afterAll {} slender) = .ok () w₁ ∧
      (solve 0).run (w₁.assign [(0, 10000000)]) = .ok () w₂ ∧ ¬ w₂.AllSatisfied 0 :=
  ⟨reachable_slender, exists_solve_slender, exists_remove_slender⟩

/-- Where the link itself is removed, nothing is lost of the others. -/
theorem exists_unharmed_slender : ∃ (w₁ w₂ : World Rat) (solver : Solver Rat),
    (remove 0 1).run (afterAll {} slender) = .ok () w₁ ∧
      (solve 0).run (w₁.assign [(0, 10000000)]) = .ok () w₂ ∧
      w₂.solvers.get? 0 = some solver ∧
      solver.tableau.epsilon = Scalar.tolerance ∧ w₂.Unharmed solver := by
  have h : passes (remove 0 1) (fun w₁ =>
      passes (solve 0) (fun w₂ => (w₂.solvers.get? 0).any fun solver =>
        decide (solver.tableau.epsilon = Scalar.tolerance) && (solver.tableau.isFeasible &&
          solver.constraints.all fun a => w₂.constraints[a.1]?.all fun x =>
            solver.tableau.Intact x.relation a.2))
        (w₁.assign [(0, 10000000)])) (afterAll {} slender) = true := by decide +kernel
  obtain ⟨w₁, hremove, h⟩ := exists_of_passes h
  obtain ⟨w₂, hsolve, h⟩ := exists_of_passes h
  obtain ⟨solver, hs, h⟩ := (Option.any_eq_true ..).mp h
  obtain ⟨heps, h⟩ := (Bool.and_eq_true ..).mp h
  obtain ⟨hfeasible, hall⟩ := (Bool.and_eq_true ..).mp h
  exact ⟨w₁, w₂, solver, hremove, hsolve, hs, of_decide_eq_true heps,
    unharmed_of_all hfeasible hall⟩

/-- The residue of the missed link is large.  Without the link the solver is
    unharmed, and solving satisfies what is left. -/
theorem not_allows_slender : (∃ (w₁ w₂ : World Rat) (solver : Solver Rat),
    (remove 0 2).run (afterAll {} slender) = .ok () w₁ ∧
      (solve 0).run (w₁.assign [(0, 10000000)]) = .ok () w₂ ∧
      w₂.solvers.get? 0 = some solver ∧
      ¬ w₂.Allows solver (w₁.assign [(0, 10000000)]).valueOf) ∧
    ∃ (w₁ w₂ : World Rat) (solver : Solver Rat),
      (remove 0 1).run (afterAll {} slender) = .ok () w₁ ∧
        (solve 0).run (w₁.assign [(0, 10000000)]) = .ok () w₂ ∧
        w₂.solvers.get? 0 = some solver ∧ w₂.Unharmed solver ∧ w₂.AllSatisfied 0 := by
  constructor
  · obtain ⟨w₁, w₂, hremove, hsolve, hnot⟩ := exists_remove_slender
    obtain ⟨solver, hs, hiff, -⟩ :=
      satisfied_after_remove_iff reachable_slender hremove [(0, 10000000)] hsolve
    exact ⟨w₁, w₂, solver, hremove, hsolve, hs, fun hallows => hnot (hiff.mpr hallows)⟩
  · obtain ⟨w₁, w₂, solver, hremove, hsolve, hs, heps, hunharmed⟩ := exists_unharmed_slender
    obtain ⟨solver', hs', -, hsatisfied⟩ :=
      satisfied_after_remove_iff reachable_slender hremove [(0, 10000000)] hsolve
    obtain rfl := Option.some.inj (hs.symm.trans hs')
    have htol : (0 : Rat) ≤ Scalar.tolerance ∧ (Scalar.tolerance : Rat) ≤ 1 := by decide +kernel
    exact ⟨w₁, w₂, solver, hremove, hsolve, hs, hunharmed,
      hsatisfied (heps ▸ htol.1) heps.le htol.2 hunharmed⟩

end LinearConstraints.World
