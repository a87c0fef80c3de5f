import LinearConstraints.Proofs.Form.Formulas
import LinearConstraints.Proofs.Solver.References
import LinearConstraints.Proofs.Solver.Rereading
import LinearConstraints.Proofs.World.Registry

/-! # Every mention is counted once

    The register of references of a solver says of every variable how many of
    the constraints that the solver holds have a term in it, in every world
    that arises and for any arithmetic.  So no count is ever lowered below
    zero, a variable is forgotten together with the last constraint that
    mentions it and not before, and solving writes into no other variable. -/

namespace LinearConstraints.World

section AnyScalar

variable {α : Type} [Scalar α] {w w' : World α} {s : SolverId} {solver : Solver α}
  {ledger : List (Entry α)} {v : VariableId}

/-- Whether a solver holds a constraint whose normal form has a term in a
    variable. -/
def concerns (w : World α) (s : SolverId) (v : VariableId) (c : ConstraintId) : Bool :=
  w.holds s c && w.constraints[c]?.any fun x => x.relation.normal.mentions v

/-- How many constraints of a solver have a term in a variable. -/
def concerned (w : World α) (s : SolverId) (v : VariableId) : Nat :=
  (List.range w.constraints.size).countP (w.concerns s v)

/-- What it means that a solver has counted all mentions of variables. -/
structure CountsReferences (w : World α) (s : SolverId) (solver : Solver α) : Prop where
  /-- A variable is registered if some constraint of the solver has a term in
      it, and only then, -/
  contains_iff : ∀ v, solver.references.contains v = true ↔ ∃ c, w.concerns s v c = true
  /-- with the number of these constraints. -/
  number_eq : ∀ v n, solver.references.get? v = some n → n = w.concerned s v
  /-- Counting the variables of a constraint down finds each of them registered
      when its turn comes, with one mention at least. -/
  positive : ∀ (c : ConstraintId) x, w.constraints[c]? = some x → w.holds s c = true →
    ∀ front v back, x.relation.vars = front ++ v :: back →
      ∃ n, (front.foldl Solver.dropReference solver.references).get? v = some n ∧ 0 < n

/-- The constraints that concern a variable are those of the ledger that mention
    it. -/
theorem Keeps.concerns_iff (hk : w.Keeps s solver ledger) (hs : w.solvers.get? s = some solver)
    {c : ConstraintId} :
    w.concerns s v c = true ↔ ∃ e ∈ ledger, e.constraint = c ∧ v ∈ e.relation.vars := by
  rw [concerns, Bool.and_eq_true, holds_eq hs, Option.any_eq_true]
  constructor
  · rintro ⟨hc, x, hx, hv⟩
    obtain ⟨e, he, rfl, hentry⟩ := hk.exists_entry hc
    rw [hx, Option.some.injEq] at hentry
    subst hentry
    exact ⟨e, he, rfl, OrderedMap.mem_keys_iff.mpr hv⟩
  · rintro ⟨e, he, rfl, hv⟩
    exact ⟨(hk.holds he).2, _, hk.owned e he, OrderedMap.mem_keys_iff.mp hv⟩

/-- There are as many of them. -/
theorem Keeps.concerned_eq (hk : w.Keeps s solver ledger) (hs : w.solvers.get? s = some solver)
    (v : VariableId) : w.concerned s v = Solver.mentioning ledger v := by
  rw [concerned, Solver.mentioning, List.countP_eq_length_filter, List.countP_eq_length_filter,
    ← List.length_map (f := Entry.constraint)]
  refine List.Perm.length_eq ?_
  refine (List.perm_ext_iff_of_nodup (List.nodup_range.filter _) ?_).mpr fun c => ?_
  · exact hk.arises.nodup.sublist (List.filter_sublist.map _)
  · rw [List.mem_filter, hk.concerns_iff hs, List.mem_map]
    constructor
    · rintro ⟨-, e, he, rfl, hv⟩
      exact ⟨e, List.mem_filter.mpr ⟨he, decide_eq_true hv⟩, rfl⟩
    · rintro ⟨e, he, rfl⟩
      obtain ⟨he, hv⟩ := List.mem_filter.mp he
      obtain ⟨hlt, -⟩ := Array.getElem?_eq_some_iff.mp (hk.owned e he)
      exact ⟨List.mem_range.mpr hlt, e, he, rfl, of_decide_eq_true hv⟩

/-- The ledger of a solver has all mentions counted. -/
theorem Keeps.countsReferences (hk : w.Keeps s solver ledger)
    (hs : w.solvers.get? s = some solver) : w.CountsReferences s solver where
  contains_iff v := by
    rw [hk.arises.references_contains_iff]
    constructor
    · rintro ⟨e, he, hv⟩
      exact ⟨e.constraint, (hk.concerns_iff hs).mpr ⟨e, he, rfl, hv⟩⟩
    · rintro ⟨c, hc⟩
      obtain ⟨e, he, -, hv⟩ := (hk.concerns_iff hs).mp hc
      exact ⟨e, he, hv⟩
  number_eq v n hn := by
    rw [hk.concerned_eq hs, (Solver.entry?_eq_some_iff.mp ((hk.arises.counts v).symm.trans hn)).1]
  positive c x hx hc front v back hvars := by
    obtain ⟨e, he, rfl, hentry⟩ := hk.exists_entry (holds_eq hs c ▸ hc)
    rw [hx, Option.some.injEq] at hentry
    subst hentry
    have hv : v ∈ e.relation.vars := hvars ▸ List.mem_append_right _ (List.mem_cons_self ..)
    -- no variable comes twice, so what came before has not touched this one
    have hnodup : (front ++ v :: back).Nodup :=
      hvars ▸ OrderedMap.nodup_keys e.relation.normal.terms
    have hfront : front.count v = 0 :=
      List.count_eq_zero.mpr fun h => List.disjoint_of_nodup_append hnodup h (List.mem_cons_self ..)
    have hpos := Solver.mentioning_pos_iff.mpr ⟨e, he, hv⟩
    refine ⟨Solver.mentioning ledger v, ?_, hpos⟩
    have hentry : (front.foldl Solver.dropReference solver.references).get? v
        = Solver.entry? (Solver.mentioning ledger v - front.count v) :=
      hk.arises.counts.foldl_dropReference front v
    rw [hentry, hfront, Nat.sub_zero]
    exact Solver.entry?_eq_some_iff.mpr ⟨rfl, hpos⟩

/-- A removal keeps the variables registered that other constraints mention. -/
theorem Reachable.contains_of_remove (hw : w.Reachable) (hs : w.solvers.get? s = some solver)
    {c : ConstraintId} (hremove : (remove s c).run w = .ok () w') :
    ∃ solver', w'.solvers.get? s = some solver' ∧
      ∀ v d, d ≠ c → w.concerns s v d = true → solver'.references.contains v = true := by
  obtain ⟨old, x, marker, withdrawn, tableau, hold, hx, hm, -, hwithdraw, hrepair, rfl⟩ :=
    exists_of_remove hremove
  rw [hs, Option.some.injEq] at hold
  subst hold
  obtain ⟨ledger, hk⟩ := hw.kept.exists_ledger s solver hs
  obtain ⟨e, he, rfl, rfl, rfl⟩ := hk.entry_of_marker hx hm
  have hk' := hk.remove he ⟨e.relation, some (.solver s)⟩ hwithdraw hrepair
  refine ⟨_, OrderedMap.get?_insert_self .., fun v d hne hd => ?_⟩
  obtain ⟨f, hf, rfl, hv⟩ := (hk.concerns_iff hs).mp hd
  exact hk'.arises.references_contains_iff.mpr
    ⟨f, List.mem_filter.mpr ⟨hf, decide_eq_true hne⟩, hv⟩

/-- Solving writes into registered variables only. -/
theorem getElem?_of_solve (hs : w.solvers.get? s = some solver)
    (hsolve : (solve s).run w = .ok () w') (hv : ¬ solver.references.contains v = true) :
    w'.vars[v]? = w.vars[v]? := by
  have hnone : ∀ solver' : Solver α, solver'.references = solver.references →
      solver'.solution? w.valueOf v = none :=
    fun _ hsame => Solver.solution?_of_not_contains (hsame ▸ hv) _
  obtain ⟨old, hold, hw'⟩ := solve_cases hsolve
  rw [hs, Option.some.injEq] at hold
  subst hold
  obtain ⟨-, rfl⟩ | ⟨tableau, -, rfl⟩ := hw'
  · exact getElem?_solved_of_none (hnone _ rfl)
  · exact getElem?_solved_of_none (hnone _ rfl)

/-- In every world that arises each solver has counted all mentions of
    variables.  A removal forgets no variable that another constraint mentions,
    and solving writes into no variable that none of them does. -/
theorem references_counted (hw : w.Reachable) (hs : w.solvers.get? s = some solver) :
    w.CountsReferences s solver ∧
    (∀ (c : ConstraintId) w', (remove s c).run w = .ok () w' →
      ∃ solver', w'.solvers.get? s = some solver' ∧
        ∀ v d, d ≠ c → w.concerns s v d = true → solver'.references.contains v = true) ∧
    ∀ v : VariableId, (∀ c, w.concerns s v c = false) →
      (∀ value, solver.solution? value v = none) ∧
        ∀ w', (solve s).run w = .ok () w' → w'.vars[v]? = w.vars[v]? := by
  obtain ⟨ledger, hk⟩ := hw.kept.exists_ledger s solver hs
  have hcounts := hk.countsReferences hs
  refine ⟨hcounts, fun c w' => hw.contains_of_remove hs, fun v hnone => ?_⟩
  have hv : ¬ solver.references.contains v = true := by
    intro hv
    obtain ⟨c, hc⟩ := (hcounts.contains_iff v).mp hv
    rw [hnone c] at hc
    cases hc
  exact ⟨Solver.solution?_of_not_contains hv, fun w' hsolve => getElem?_of_solve hs hsolve hv⟩

end AnyScalar

open Thresholded

/-- A variable is a multiple of a second one and has a lower bound, and a third
    one is fixed until its constraint is removed. -/
def overlapping : List (Call Rat) :=
  [.newVariable none 0 false, .newVariable none 0 false, .newVariable none 9 false,
    .newConstraint (.proportional 0 2 1), .newConstraint (.limit 1 0 .atLeast 3),
    .newConstraint (.limit 1 2 .equal 5), .newSolver Settings.standard, .add 0 0, .add 0 1,
    .add 0 2, .remove 0 2]

theorem reachable_overlapping : (afterAll {} overlapping).Reachable := by
  refine ⟨overlapping, ?_, rfl⟩
  simp only [overlapping, List.forall_mem_cons]
  exact ⟨trivial, trivial, trivial, Relation.formulated_proportional 0 2 1,
    Relation.formulated_limit 1 0 .atLeast 3, Relation.formulated_limit 1 2 .equal 5, trivial,
    trivial, trivial, trivial, trivial, nofun⟩

/-- The first variable is mentioned twice and stays registered when its bound
    goes; the third one is forgotten and keeps its nine. -/
theorem references_counted_overlapping : (afterAll {} overlapping).Reachable ∧
    ∃ solver, (afterAll {} overlapping).solvers.get? 0 = some solver ∧
      (afterAll {} overlapping).CountsReferences 0 solver ∧
      solver.references.get? 0 = some 2 ∧ (afterAll {} overlapping).concerned 0 0 = 2 ∧
      (∃ w', (remove 0 1).run (afterAll {} overlapping) = .ok () w' ∧
        ∃ solver', w'.solvers.get? 0 = some solver' ∧
          solver'.references.contains 0 = true) ∧
      ∃ w', (solve 0).run (afterAll {} overlapping) = .ok () w' ∧ w'.valueOf 2 = 9 := by
  have h : ((afterAll {} overlapping).solvers.get? 0).any (fun solver =>
      solver.references.get? 0 = some 2 ∧ solver.references.contains 2 = false) = true := by
    decide +kernel
  have hremove : passes (remove 0 1) (fun _ => true) (afterAll {} overlapping) = true := by
    decide +kernel
  have hsolve : passes (solve 0) (fun _ => true) (afterAll {} overlapping) = true := by
    decide +kernel
  obtain ⟨solver, hs, htest⟩ := (Option.any_eq_true ..).mp h
  obtain ⟨hentry, hforgotten⟩ := of_decide_eq_true htest
  obtain ⟨hcounts, hremoved, hsolved⟩ := references_counted reachable_overlapping hs
  obtain ⟨w₁, hrun₁, -⟩ := exists_of_passes hremove
  obtain ⟨w₂, hrun₂, -⟩ := exists_of_passes hsolve
  refine ⟨reachable_overlapping, solver, hs, hcounts, hentry, (hcounts.number_eq 0 2 hentry).symm,
    ⟨w₁, hrun₁, ?_⟩, w₂, hrun₂, ?_⟩
  · obtain ⟨solver', hs', hkept⟩ := hremoved 1 w₁ hrun₁
    exact ⟨solver', hs', hkept 0 0 (by decide) (by decide +kernel)⟩
  · have hnone : ∀ c, (afterAll {} overlapping).concerns 0 2 c = false := by
      intro c
      rw [Bool.eq_false_iff]
      intro hc
      rw [(hcounts.contains_iff 2).mpr ⟨c, hc⟩] at hforgotten
      cases hforgotten
    have hsame := (hsolved 2 hnone).2 w₂ hrun₂
    simp only [valueOf]
    rw [hsame]
    decide +kernel

end LinearConstraints.World
