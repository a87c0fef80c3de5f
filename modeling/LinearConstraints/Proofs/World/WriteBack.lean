import LinearConstraints.Proofs.Solver.Solution
import LinearConstraints.Proofs.World.Consistency

/-! # Solving writes a solution back

    With exact numbers a solver that arises is always feasible, so solving it
    always succeeds, and what it writes into the variables satisfies every
    constraint that it holds.  The parametric variables have the values they
    had, if the solver reconciles and those values leave no basic slack
    negative, and zero otherwise; the basic ones follow.  Variables of which no
    constraint speaks are left alone. -/

namespace LinearConstraints.World

open Exact

variable {w : World Rat} {s : SolverId} {solver : Solver Rat} {ledger : List (Entry Rat)}

/-- The values the variables have, with all other symbols at zero. -/
def given (w : World Rat) : Symbol → Rat
  | .external v => w.valueOf v
  | _ => 0

/-- Whether the parametric variables may keep the values they have: the solver
    reconciles, and with these values no basic slack is negative. -/
def MayStay (w : World Rat) (solver : Solver Rat) : Prop :=
  solver.reconcile = true ∧
    ∀ i row, solver.tableau.row? (.slack i) = some row → 0 ≤ row.evaluate w.given

/-- Whether a constraint that a solver holds speaks of a variable. -/
def Involves (w : World Rat) (s : SolverId) (v : VariableId) : Prop :=
  ∃ r, w.Attached s r ∧ v ∈ r.vars

/-- What it means that a world is the one before with the solution of a solver
    written into its variables. -/
structure WritesSolution (w : World Rat) (s : SolverId) (solver : Solver Rat) (w' : World Rat) :
    Prop where
  /-- Nothing but variables has changed. -/
  same : ∃ vars, w' = { w with vars := vars }
  /-- Every constraint of the solver holds, to the letter. -/
  holds : ∀ r, w.Attached s r → r.Holds w'.valueOf
  /-- Parametric variables stay if they may, -/
  stays : w.MayStay solver → ∀ v, w.Involves s v →
    ¬ solver.tableau.isBasic (.external v) = true → w'.valueOf v = w.valueOf v
  /-- and basic ones follow them. -/
  follows : w.MayStay solver → ∀ v row, w.Involves s v →
    solver.tableau.row? (.external v) = some row → w'.valueOf v = row.evaluate w.given
  /-- Otherwise parametric variables become zero, -/
  falls : ¬ w.MayStay solver → ∀ v, w.Involves s v →
    ¬ solver.tableau.isBasic (.external v) = true → w'.valueOf v = 0
  /-- and basic ones become the constants of their rows. -/
  settles : ¬ w.MayStay solver → ∀ v row, w.Involves s v →
    solver.tableau.row? (.external v) = some row → w'.valueOf v = row.constant
  /-- All other variables are left alone. -/
  others : ∀ v, ¬ w.Involves s v → w'.valueOf v = w.valueOf v

/-- A solver involves the variables that it has registered. -/
theorem Keeps.involves_iff (hk : w.Keeps s solver ledger) (hs : w.solvers.get? s = some solver)
    {v : VariableId} : w.Involves s v ↔ solver.references.contains v = true := by
  rw [hk.arises.references_contains_iff]
  constructor
  · rintro ⟨r, hr, hv⟩
    obtain ⟨e, he, rfl⟩ := (hk.attached_iff hs).mp hr
    exact ⟨e, he, hv⟩
  · rintro ⟨e, he, hv⟩
    exact ⟨e.relation, (hk.attached_iff hs).mpr ⟨e, he, rfl⟩, hv⟩

/-- In the rows of a solver that reconciles all variables have the values they
    had. -/
theorem Keeps.evaluate_parametric (hk : w.Keeps s solver ledger)
    (heps : solver.tableau.epsilon = 0) (hreconcile : solver.reconcile = true) {u : Symbol}
    {row : Row Rat} (hrow : solver.tableau.row? u = some row) :
    row.evaluate (solver.parametric w.valueOf) = row.evaluate w.given := by
  refine LinearForm.evaluate_congr fun u hu => ?_
  cases u with
  | external v =>
      -- what a row mentions is a variable of a constraint, and so it is registered
      obtain ⟨a, ha, hv⟩ := (hk.arises.faithful heps).mem_vars (Tableau.mentions_of_row hrow hu)
      obtain ⟨e, he, rfl⟩ := List.mem_map.mp ha
      exact if_pos ⟨hreconcile, hk.arises.references_contains_iff.mpr ⟨e, he, hv⟩⟩
  | slack i | dummy i | artificial i => rfl

/-- A solver keeps the values exactly if they may stay. -/
theorem Keeps.keepsValues_iff (hk : w.Keeps s solver ledger)
    (heps : solver.tableau.epsilon = 0) :
    solver.keepsValues w.valueOf = true ↔ w.MayStay solver := by
  simp only [Solver.keepsValues]
  rw [Bool.and_eq_true]
  refine and_congr_right fun hreconcile => ?_
  rw [OrderedMap.all_iff]
  constructor
  · intro hall i row hrow
    have hkeep := of_decide_eq_true (hall (.slack i) row hrow)
    rwa [heps, neg_zero, hk.evaluate_parametric heps hreconcile hrow] at hkeep
  · intro hnonneg u row hrow
    cases u with
    | external v => rfl
    | slack i =>
        refine decide_eq_true ?_
        rw [heps, neg_zero, hk.evaluate_parametric heps hreconcile hrow]
        exact hnonneg i row hrow
    | dummy i => rfl
    | artificial i =>
        exact nomatch hk.arises.wellFormed.settled _
          (Tableau.mentions_of_isBasic (Tableau.isBasic_of_row? hrow))

/-- The values that follow from those a solver gives to the parametric symbols
    are admissible. -/
theorem Keeps.admissible_extend (hk : w.Keeps s solver ledger)
    (heps : solver.tableau.epsilon = 0) (value : VariableId → Rat) :
    Tableau.Admissible (solver.tableau.extend (solver.point value)) where
  restricted u hu := by
    have hge := Solver.extend_point_ge value heps.ge
      (hk.arises.faithful heps).ready.isFeasible hu
    rwa [heps, neg_zero] at hge
  dummy u hu := hk.arises.extend_dummy hu

/-- They satisfy every constraint of the solver. -/
theorem Keeps.holds_extend (hk : w.Keeps s solver ledger)
    (heps : solver.tableau.epsilon = 0) (value : VariableId → Rat) {e : Entry Rat}
    (he : e ∈ ledger) :
    e.relation.Holds fun v => solver.tableau.extend (solver.point value) (.external v) := by
  have hmem : (e.relation, e.marker) ∈ ledger.map fun e => (e.relation, e.marker) :=
    List.mem_map_of_mem he
  exact (hk.arises.faithful heps).holds_extend (hk.admissible_extend heps value) hmem

/-- Only the variables of its normal form matter to a relation. -/
theorem holds_congr {r : Relation Rat} {value value' : VariableId → Rat}
    (h : ∀ v ∈ r.vars, value v = value' v) : r.Holds value ↔ r.Holds value' := by
  rw [Relation.holds_iff, Relation.holds_iff,
    LinearForm.evaluate_congr fun v hv => h v (OrderedMap.mem_keys_iff.mpr hv)]

/-- Writing a solution gives the variables that a solver involves the values
    that follow from the parametric symbols. -/
theorem Keeps.valueOf_solved (hk : w.Keeps s solver ledger) (hw : w.Kept)
    (hs : w.solvers.get? s = some solver) {v : VariableId} (hv : w.Involves s v) :
    ({ w with vars := w.solved solver } : World Rat).valueOf v
      = solver.tableau.extend (solver.point w.valueOf) (.external v) := by
  have hregistered := (hk.involves_iff hs).mp hv
  obtain ⟨e, he, hmem⟩ := hk.arises.references_contains_iff.mp hregistered
  rw [valueOf_of_solved rfl ((hw.legal _ _ (hk.owned e he)).known v hmem)]
  exact Solver.solution?_getD hregistered

/-- Solving always succeeds and writes a solution back. -/
theorem solve_writes_solution (hw : w.Reachable) (hs : w.solvers.get? s = some solver)
    (heps : solver.tableau.epsilon = 0) :
    ∃ w', (solve s).run w = .ok () w' ∧ w.WritesSolution s solver w' := by
  obtain ⟨ledger, hk⟩ := hw.kept.exists_ledger s solver hs
  have hrun := run_solve_of_isFeasible hs (hk.arises.faithful heps).ready.isFeasible
  have hinvolved : ∀ v, w.Involves s v →
      ({ w with vars := w.solved solver } : World Rat).valueOf v
        = solver.tableau.extend (solver.point w.valueOf) (.external v) := fun v hv =>
    hk.valueOf_solved hw.kept hs hv
  have hpoint : ∀ v row, solver.tableau.row? (.external v) = some row →
      solver.tableau.extend (solver.point w.valueOf) (.external v)
        = row.evaluate (solver.point w.valueOf) := fun v row hrow =>
    Tableau.extend_of_row? hrow
  refine ⟨_, hrun, ⟨_, rfl⟩, fun r hr => ?_, fun hstay v hv hb => ?_,
    fun hstay v row hv hrow => ?_, fun hnot v hv hb => ?_, fun hnot v row hv hrow => ?_,
    fun v hv => ?_⟩
  · obtain ⟨e, he, rfl⟩ := (hk.attached_iff hs).mp hr
    refine (holds_congr fun v hv => hinvolved v ⟨e.relation, hr, hv⟩).mpr ?_
    exact hk.holds_extend heps w.valueOf he
  · have hkeeps := (hk.keepsValues_iff heps).mpr hstay
    rw [hinvolved v hv, Tableau.extend_of_not_isBasic hb, Solver.point, if_pos hkeeps]
    exact if_pos ⟨hstay.1, (hk.involves_iff hs).mp hv⟩
  · have hkeeps := (hk.keepsValues_iff heps).mpr hstay
    rw [hinvolved v hv, hpoint v row hrow, Solver.point, if_pos hkeeps,
      hk.evaluate_parametric heps hstay.1 hrow]
  · have hkeeps := fun h => hnot ((hk.keepsValues_iff heps).mp h)
    rw [hinvolved v hv, Tableau.extend_of_not_isBasic hb, Solver.point, if_neg hkeeps]
  · have hkeeps := fun h => hnot ((hk.keepsValues_iff heps).mp h)
    rw [hinvolved v hv, hpoint v row hrow, Solver.point, if_neg hkeeps,
      LinearForm.evaluate_eq_constant fun _ _ => rfl]
  · have hnone : solver.solution? w.valueOf v = none := by
      simp only [Solver.solution?]
      rw [if_neg fun h => hv ((hk.involves_iff hs).mpr h)]
    exact valueOf_of_solved_none rfl hnone

/-- Two variables share ten and the first one has a lower bound; the second one
    is given a value. -/
def trade (value : Rat) : List (Call Rat) :=
  [.newVariable none 0 false, .newVariable none 0 false, .newConstraint (shareOut 10),
    .newConstraint (.limit 1 0 .atLeast 3), .newSolver ⟨0, true⟩, .add 0 0, .add 0 1,
    .setValue 1 value]

theorem reachable_trade (value : Rat) : (afterAll {} (trade value)).Reachable := by
  refine ⟨trade value, ?_, rfl⟩
  simp only [trade, List.forall_mem_cons]
  exact ⟨trivial, trivial, formulated_shareOut 10, Relation.formulated_limit 1 0 .atLeast 3,
    trivial, trivial, trivial, trivial, nofun⟩

/-- The second variable is parametric, and a test tells whether it may stay. -/
theorem exists_solver_trade {value : Rat} {stays : Bool}
    (h : ((afterAll {} (trade value)).solvers.get? 0).any (fun solver =>
      solver.tableau.epsilon = 0 ∧ solver.tableau.isBasic (.external 1) = false ∧
        solver.keepsValues (afterAll {} (trade value)).valueOf = stays) = true) :
    ∃ solver, (afterAll {} (trade value)).solvers.get? 0 = some solver ∧
      solver.tableau.epsilon = 0 ∧ ¬ solver.tableau.isBasic (.external 1) = true ∧
      ((afterAll {} (trade value)).MayStay solver ↔ stays = true) := by
  obtain ⟨solver, hs, htest⟩ := (Option.any_eq_true ..).mp h
  obtain ⟨heps, hparametric, hstays⟩ := of_decide_eq_true htest
  obtain ⟨ledger, hk⟩ := (reachable_trade value).kept.exists_ledger 0 solver hs
  refine ⟨solver, hs, heps, Bool.eq_false_iff.mp hparametric, ?_⟩
  rw [← hk.keepsValues_iff heps, hstays]

/-- The second variable keeps four, but it cannot keep eight and falls to
    zero. -/
theorem solve_writes_solution_trade :
    (∃ solver w', (solve 0).run (afterAll {} (trade 4)) = .ok () w' ∧
      (afterAll {} (trade 4)).WritesSolution 0 solver w' ∧ w'.valueOf 1 = 4) ∧
    ∃ solver w', (solve 0).run (afterAll {} (trade 8)) = .ok () w' ∧
      (afterAll {} (trade 8)).WritesSolution 0 solver w' ∧ w'.valueOf 1 = 0 := by
  constructor
  · obtain ⟨solver, hs, heps, hparametric, hstays⟩ :=
      @exists_solver_trade 4 true (by decide +kernel)
    obtain ⟨w', hrun, hwrites⟩ := solve_writes_solution (reachable_trade 4) hs heps
    have hinvolved : (afterAll {} (trade 4)).Involves 0 1 :=
      ⟨shareOut 10, ⟨0, ⟨shareOut 10, some (.solver 0)⟩, by decide +kernel, by decide +kernel,
        rfl⟩, by decide +kernel⟩
    have hold : (afterAll {} (trade 4)).valueOf 1 = 4 := by decide +kernel
    refine ⟨solver, w', hrun, hwrites, ?_⟩
    rw [hwrites.stays (hstays.mpr rfl) 1 hinvolved hparametric, hold]
  · obtain ⟨solver, hs, heps, hparametric, hstays⟩ :=
      @exists_solver_trade 8 false (by decide +kernel)
    obtain ⟨w', hrun, hwrites⟩ := solve_writes_solution (reachable_trade 8) hs heps
    have hinvolved : (afterAll {} (trade 8)).Involves 0 1 :=
      ⟨shareOut 10, ⟨0, ⟨shareOut 10, some (.solver 0)⟩, by decide +kernel, by decide +kernel,
        rfl⟩, by decide +kernel⟩
    exact ⟨solver, w', hrun, hwrites,
      hwrites.falls (fun h => nomatch hstays.mp h) 1 hinvolved hparametric⟩

end LinearConstraints.World
