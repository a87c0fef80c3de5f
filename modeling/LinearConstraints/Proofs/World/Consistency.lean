import LinearConstraints.Proofs.Solver.Exactness
import LinearConstraints.Proofs.World.Registry

/-! # With exact numbers solvers are sound and complete

    With no tolerance, the tableau of every solver in every world that arises
    says exactly what the constraints say that the solver holds, and a solver
    accepts a constraint exactly if it can hold together with those.  Both are
    read off the ledger of the solver. -/

namespace LinearConstraints.World

open Exact

variable {w : World Rat} {s : SolverId} {solver : Solver Rat}

/-! ## The tableau of a solver -/

/-- What it means that the tableau of a solver says exactly what its constraints
    say. -/
structure Represents (w : World Rat) (solver : Solver Rat) : Prop where
  /-- The solutions of the tableau are the values for which every constraint
      balances with its marker. -/
  satisfies_iff : ∀ value, solver.tableau.Satisfies value ↔
    ∀ (c : ConstraintId) x marker, w.constraints[c]? = some x →
      solver.marker? c = some marker → x.relation.Balances value marker
  /-- Every constraint that the solver holds is one of the world. -/
  known : ∀ (c : ConstraintId), solver.holds c = true → ∃ x, w.constraints[c]? = some x
  /-- No basic slack is negative. -/
  slack_nonneg : ∀ i row, solver.tableau.row? (.slack i) = some row → 0 ≤ row.constant
  /-- Every basic dummy is zero. -/
  dummy_eq_zero : ∀ i row, solver.tableau.row? (.dummy i) = some row → row.constant = 0
  /-- There is one row for each constraint. -/
  size_eq : solver.tableau.size = solver.size
  /-- Every variable that occurs is one of a constraint. -/
  mem_vars : ∀ v, solver.tableau.mentions (.external v) = true →
    ∃ (c : ConstraintId) (x : Constraint Rat), w.constraints[c]? = some x ∧
      solver.holds c = true ∧ v ∈ x.relation.vars

/-- The tableau of a solver is exactly its constraints. -/
theorem represents_of_reachable (hw : w.Reachable) (hs : w.solvers.get? s = some solver)
    (heps : solver.tableau.epsilon = 0) : w.Represents solver := by
  obtain ⟨ledger, hk⟩ := hw.kept.exists_ledger s solver hs
  have hf := hk.arises.faithful heps
  refine ⟨fun value => ?_, fun c hc => ?_, fun i row hrow => ?_, fun i row hrow => ?_, ?_,
    fun v hv => ?_⟩
  · rw [hf.satisfies_iff, List.forall_mem_map]
    exact hk.forall_iff.symm
  · obtain ⟨e, -, -, hx⟩ := hk.exists_entry hc
    exact ⟨_, hx⟩
  · rw [← Tableau.valueOf_of_row? hrow]
    exact hf.ready.nonnegative (.slack i) rfl
  · exact hf.grounded (.dummy i) row hrow rfl
  · rw [hf.size_eq, List.length_map, Solver.size, hk.arises.constraints_eq, List.length_map]
  · obtain ⟨a, ha, hmem⟩ := hf.mem_vars hv
    obtain ⟨e, he, rfl⟩ := List.mem_map.mp ha
    exact ⟨e.constraint, _, hk.owned e he, (hk.holds he).2, hmem⟩

/-- The sum of the first two variables is given. -/
def shareOut (total : Rat) : Relation Rat :=
  ⟨Expression.plus (Expression.ofVariable 0) (Expression.ofVariable 1), .equal,
    Expression.ofNumber total⟩

theorem formulated_shareOut (total : Rat) : (shareOut total).Formulated :=
  ⟨⟨.plus (.var 0) (.var 1), rfl⟩, ⟨.number total, rfl⟩⟩

/-- Two variables share ten and have lower bounds, one of which is removed and
    added again; a fourth constraint stays free. -/
def shares : List (Call Rat) :=
  [.newVariable none 0 false, .newVariable none 0 false, .newConstraint (shareOut 10),
    .newConstraint (.limit 1 0 .atLeast 3), .newConstraint (.limit 1 1 .atLeast 4),
    .newConstraint (.limit 1 1 .atLeast 8), .newSolver ⟨0, true⟩, .add 0 0, .add 0 1, .add 0 2,
    .remove 0 1, .add 0 1]

theorem reachable_shares : (afterAll {} shares).Reachable := by
  refine ⟨shares, ?_, rfl⟩
  simp only [shares, List.forall_mem_cons]
  exact ⟨trivial, trivial, formulated_shareOut 10, Relation.formulated_limit 1 0 .atLeast 3,
    Relation.formulated_limit 1 1 .atLeast 4, Relation.formulated_limit 1 1 .atLeast 8, trivial,
    trivial, trivial, trivial, trivial, trivial, nofun⟩

theorem represents_shares : ∃ solver, (afterAll {} shares).solvers.get? 0 = some solver ∧
    solver.tableau.epsilon = 0 ∧ solver.size = 3 ∧
    (afterAll {} shares).Represents solver := by
  have h : ((afterAll {} shares).solvers.get? 0).any
      (fun solver => solver.tableau.epsilon = 0 ∧ solver.size = 3) = true := by decide +kernel
  obtain ⟨solver, hs, htest⟩ := (Option.any_eq_true ..).mp h
  obtain ⟨heps, hsize⟩ := of_decide_eq_true htest
  exact ⟨solver, hs, heps, hsize, represents_of_reachable reachable_shares hs heps⟩

/-! ## Acceptance -/

/-- Whether a solver holds a constraint that says so. -/
def Attached (w : World Rat) (s : SolverId) (r : Relation Rat) : Prop :=
  ∃ (c : ConstraintId) (x : Constraint Rat),
    w.constraints[c]? = some x ∧ w.holds s c = true ∧ x.relation = r

/-- Whether some values satisfy a relation together with all constraints that a
    solver holds. -/
def Satisfiable (w : World Rat) (s : SolverId) (r : Relation Rat) : Prop :=
  ∃ value : VariableId → Rat, r.Holds value ∧ ∀ r', w.Attached s r' → r'.Holds value

/-- Whether a free constraint is offered to a solver without tolerance, in a
    world that arises. -/
structure Offers (w : World Rat) (s : SolverId) (c : ConstraintId) (r : Relation Rat) :
    Prop where
  reachable : w.Reachable
  exists_solver : ∃ solver, w.solvers.get? s = some solver ∧ solver.tableau.epsilon = 0
  free : w.constraints[c]? = some ⟨r, none⟩

/-- What a solver holds is what is in its ledger. -/
theorem Keeps.attached_iff {ledger : List (Entry Rat)} (h : w.Keeps s solver ledger)
    (hs : w.solvers.get? s = some solver) {r : Relation Rat} :
    w.Attached s r ↔ ∃ e ∈ ledger, e.relation = r := by
  constructor
  · rintro ⟨c, x, hx, hc, rfl⟩
    rw [holds_eq hs] at hc
    obtain ⟨e, he, -, hx'⟩ := h.exists_entry hc
    rw [hx, Option.some.injEq] at hx'
    exact ⟨e, he, by rw [hx']⟩
  · rintro ⟨e, he, rfl⟩
    exact ⟨e.constraint, _, h.owned e he, (holds_eq hs _).trans (h.holds he).2, rfl⟩

/-- Adding answers as the tableau does. -/
theorem Offers.run_add {c : ConstraintId} {r : Relation Rat} (h : w.Offers s c r) :
    ((∃ w', (add s c).run w = .ok () w') ↔ w.Satisfiable s r) ∧
      (¬ w.Satisfiable s r → (add s c).run w = .error (.unsatisfiable r) w) := by
  obtain ⟨solver, hs, heps⟩ := h.exists_solver
  obtain ⟨ledger, hk⟩ := h.reachable.kept.exists_ledger s solver hs
  have hpruned := (h.reachable.kept.formulated c _ h.free).pruned_normal
  obtain ⟨hiff, hreason⟩ := (hk.arises.faithful heps).impose_iff hpruned w.isEditable
  have hsat : w.Satisfiable s r ↔ ∃ value, r.Holds value ∧
      ∀ a ∈ ledger.map fun e => (e.relation, e.marker), a.1.Holds value := by
    refine exists_congr fun value => and_congr_right fun _ => ?_
    rw [List.forall_mem_map]
    constructor
    · intro hall e he
      exact hall _ ((hk.attached_iff hs).mpr ⟨e, he, rfl⟩)
    · intro hall r' hr'
      obtain ⟨e, he, rfl⟩ := (hk.attached_iff hs).mp hr'
      exact hall e he
  rw [hsat, ← hiff, World.run_add, hs]
  simp only
  rw [h.free]
  simp only
  cases himpose : solver.tableau.impose w.isEditable r with
  | ok a => exact ⟨⟨fun _ => ⟨a, rfl⟩, fun _ => ⟨_, rfl⟩⟩, fun hno => absurd ⟨a, rfl⟩ hno⟩
  | error reason =>
      obtain rfl := hreason reason himpose
      exact ⟨⟨fun ⟨_, h⟩ => (nomatch h), fun ⟨_, h⟩ => (nomatch h)⟩, fun _ => rfl⟩

/-- A constraint is accepted if and only if it can hold together with those that
    the solver holds, and refused as unsatisfiable otherwise.  Solvers that hold
    the same relations answer alike, however they came by them. -/
theorem add_iff_satisfiable {c : ConstraintId} {r : Relation Rat} (h : w.Offers s c r) :
    ((∃ w', (add s c).run w = .ok () w') ↔ w.Satisfiable s r) ∧
      (¬ w.Satisfiable s r → (add s c).run w = .error (.unsatisfiable r) w) ∧
      ∀ (w₂ : World Rat) (s₂ : SolverId) (c₂ : ConstraintId), w₂.Offers s₂ c₂ r →
        (∀ r', w.Attached s r' ↔ w₂.Attached s₂ r') →
        ((∃ w', (add s c).run w = .ok () w') ↔ ∃ w', (add s₂ c₂).run w₂ = .ok () w') := by
  refine ⟨h.run_add.1, h.run_add.2, fun w₂ s₂ c₂ h₂ hsame => ?_⟩
  rw [h.run_add.1, h₂.run_add.1]
  refine exists_congr fun value => and_congr_right fun _ => ?_
  exact forall_congr' fun r' => imp_congr_left (hsame r')

theorem offers_shares : (afterAll {} shares).Offers 0 3 (.limit 1 1 .atLeast 8) where
  reachable := reachable_shares
  exists_solver := by
    have h : ((afterAll {} shares).solvers.get? 0).any
        (fun solver => solver.tableau.epsilon = 0) = true := by decide +kernel
    obtain ⟨solver, hs, heps⟩ := (Option.any_eq_true ..).mp h
    exact ⟨solver, hs, of_decide_eq_true heps⟩
  free := by decide +kernel

/-- Of ten, eight cannot go to one side while three go to the other. -/
theorem not_satisfiable_shares : ¬ (afterAll {} shares).Satisfiable 0 (.limit 1 1 .atLeast 8) ∧
    (add 0 3).run (afterAll {} shares)
      = .error (.unsatisfiable (.limit 1 1 .atLeast 8)) (afterAll {} shares) := by
  obtain ⟨hiff, hreason, -⟩ := add_iff_satisfiable offers_shares
  have hno : ¬ (afterAll {} shares).Satisfiable 0 (.limit 1 1 .atLeast 8) := by
    rw [← hiff]
    rintro ⟨w', h⟩
    have hrefused : (match (add 0 3).run (afterAll {} shares) with
      | .ok _ _ => true
      | .error _ _ => false) = false := by decide +kernel
    rw [h] at hrefused
    exact nomatch hrefused
  exact ⟨hno, hreason hno⟩

end LinearConstraints.World
