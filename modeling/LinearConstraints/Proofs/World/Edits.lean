import LinearConstraints.Proofs.World.WriteBack

/-! # Which edits survive

    A caller who sets an editable variable is promised the value again after
    solving, wherever the constraints allow it.  A solver does less than that: it
    does not look for values that suit the edits, but lets everything follow
    from the parametric symbols.  Slacks among them are zero, so that their
    inequalities are left nothing to spare, and the variables among them keep
    their values all together or become zero all together.

    So with exact numbers the edits survive just where a solution of this kind
    respects them. -/

namespace LinearConstraints

open Exact

/-- The marker of a relation takes up nothing where the sides are equal. -/
theorem Relation.distance_eq_zero_iff {r : Relation Rat} {value : VariableId → Rat} :
    r.distance value = 0 ↔ r.lhs.evaluate value = r.rhs.evaluate value := by
  rw [Relation.distance, div_eq_zero_iff, or_iff_left (Tableau.markerSign_ne_zero _),
    neg_eq_zero, Relation.evaluate_normal, sub_eq_zero]

/-- Only the variables of its normal form matter to what it takes up. -/
theorem Relation.distance_congr {r : Relation Rat} {value value' : VariableId → Rat}
    (h : ∀ v ∈ r.vars, value v = value' v) : r.distance value = r.distance value' := by
  rw [Relation.distance, Relation.distance,
    LinearForm.evaluate_congr fun v hv => h v (OrderedMap.mem_keys_iff.mpr hv)]

namespace World

variable {w : World Rat} {s : SolverId} {solver : Solver Rat} {ledger : List (Entry Rat)}
variable {point : Symbol → Rat} {value : VariableId → Rat}

/-- Whether the editable variables of a solver have the values that they were
    given. -/
def KeepsEdits (w : World Rat) (s : SolverId) (value : VariableId → Rat) : Prop :=
  ∀ v, w.isEditable v = true → w.Involves s v → value v = w.valueOf v

/-- Whether values solve the constraints of a solver in the way that follows
    from the values of the parametric variables. -/
structure Follows (w : World Rat) (s : SolverId) (solver : Solver Rat) (point : Symbol → Rat)
    (value : VariableId → Rat) : Prop where
  /-- Every constraint holds, -/
  holds : ∀ r, w.Attached s r → r.Holds value
  /-- with nothing to spare where its marker is parametric. -/
  tight : ∀ (c : ConstraintId) x marker, w.constraints[c]? = some x →
    solver.marker? c = some marker → ¬ solver.tableau.isBasic marker = true →
    x.relation.lhs.evaluate value = x.relation.rhs.evaluate value
  /-- Parametric variables have the values at the point. -/
  parametric : ∀ v, w.Involves s v → ¬ solver.tableau.isBasic (.external v) = true →
    value v = point (.external v)

/-! ## One solution follows, or none -/

/-- A relation of the ledger involves its variables. -/
theorem Keeps.involves (hk : w.Keeps s solver ledger) (hs : w.solvers.get? s = some solver)
    {e : Entry Rat} (he : e ∈ ledger) {v : VariableId} (hv : v ∈ e.relation.vars) :
    w.Involves s v :=
  ⟨e.relation, (hk.attached_iff hs).mpr ⟨e, he, rfl⟩, hv⟩

theorem Keeps.tight_iff (hk : w.Keeps s solver ledger) :
    (∀ (c : ConstraintId) x marker, w.constraints[c]? = some x →
        solver.marker? c = some marker → ¬ solver.tableau.isBasic marker = true →
        x.relation.lhs.evaluate value = x.relation.rhs.evaluate value)
      ↔ ∀ e ∈ ledger, ¬ solver.tableau.isBasic e.marker = true → e.relation.distance value = 0 := by
  simp only [Relation.distance_eq_zero_iff]
  exact hk.forall_iff (P := fun r m => ¬ solver.tableau.isBasic m = true →
    r.lhs.evaluate value = r.rhs.evaluate value)

/-- What follows from a point is what the tableau says at the point. -/
theorem Follows.settle_eq_extend (h : w.Follows s solver point value)
    (hk : w.Keeps s solver ledger) (hs : w.solvers.get? s = some solver)
    (heps : solver.tableau.epsilon = 0) (hpoint : ∀ u, u.isExternal = false → point u = 0)
    {u : Symbol} (hu : solver.tableau.mentions u = true) :
    settle (ledger.map fun e => (e.relation, e.marker)) value u
      = solver.tableau.extend point u := by
  have hf := hk.arises.faithful heps
  refine hf.settle_eq_extend hpoint (fun v hb hv => ?_) ?_ hu
  · obtain ⟨a, ha, hmem⟩ := hf.mem_vars hv
    obtain ⟨e, he, rfl⟩ := List.mem_map.mp ha
    exact h.parametric v (hk.involves hs he hmem) hb
  · rw [List.forall_mem_map]
    exact hk.tight_iff.mp h.tight

/-- Nothing follows from a point unless its extension is admissible. -/
theorem Follows.admissible_extend (h : w.Follows s solver point value)
    (hk : w.Keeps s solver ledger) (hs : w.solvers.get? s = some solver)
    (heps : solver.tableau.epsilon = 0) (hpoint : ∀ u, u.isExternal = false → point u = 0) :
    Tableau.Admissible (solver.tableau.extend point) := by
  have hholds : ∀ a ∈ ledger.map fun e => (e.relation, e.marker), a.1.Holds value := by
    rw [List.forall_mem_map]
    exact fun e he => h.holds _ ((hk.attached_iff hs).mpr ⟨e, he, rfl⟩)
  refine ((hk.arises.faithful heps).marked.admissible_settle hholds).of_zero_or_eq fun u hext => ?_
  by_cases hb : solver.tableau.isBasic u = true
  · exact Or.inr (h.settle_eq_extend hk hs heps hpoint (Tableau.mentions_of_isBasic hb)).symm
  · exact Or.inl ((Tableau.extend_of_not_isBasic hb).trans (hpoint u hext))

/-- The values at an admissible extension follow from its point. -/
theorem Keeps.follows_extend (hk : w.Keeps s solver ledger)
    (hs : w.solvers.get? s = some solver) (heps : solver.tableau.epsilon = 0)
    (hpoint : ∀ u, u.isExternal = false → point u = 0)
    (hadm : Tableau.Admissible (solver.tableau.extend point))
    (hvalue : ∀ v, w.Involves s v → value v = solver.tableau.extend point (.external v)) :
    w.Follows s solver point value := by
  have hf := hk.arises.faithful heps
  have hmem : ∀ e ∈ ledger, (e.relation, e.marker) ∈ ledger.map fun e => (e.relation, e.marker) :=
    fun e he => List.mem_map_of_mem he
  have hsame : ∀ e ∈ ledger, ∀ v ∈ e.relation.vars,
      value v = solver.tableau.extend point (.external v) := fun e he v hv =>
    hvalue v (hk.involves hs he hv)
  refine ⟨fun r hr => ?_, hk.tight_iff.mpr fun e he hb => ?_, fun v hv hb => ?_⟩
  · obtain ⟨e, he, rfl⟩ := (hk.attached_iff hs).mp hr
    exact (holds_congr (hsame e he)).mpr (hf.holds_extend hadm (hmem e he))
  · have hbalances := (hf.satisfies_iff _).mp
      (hf.ready.separated.satisfies_extend point) _ (hmem e he)
    rw [Relation.distance_congr (hsame e he), ← Relation.balances_iff_distance.mp hbalances,
      Tableau.extend_of_not_isBasic hb, hpoint _ (hf.marked.isExternal (hmem e he))]
  · rw [hvalue v hv, Tableau.extend_of_not_isBasic hb]

/-- Values follow from a point exactly if its extension is admissible and they
    are the values there. -/
theorem Keeps.follows_iff (hk : w.Keeps s solver ledger) (hs : w.solvers.get? s = some solver)
    (heps : solver.tableau.epsilon = 0) (hpoint : ∀ u, u.isExternal = false → point u = 0) :
    w.Follows s solver point value ↔ Tableau.Admissible (solver.tableau.extend point) ∧
      ∀ v, w.Involves s v → value v = solver.tableau.extend point (.external v) := by
  constructor
  · intro h
    refine ⟨h.admissible_extend hk hs heps hpoint, fun v hv => ?_⟩
    by_cases hb : solver.tableau.isBasic (.external v) = true
    · exact h.settle_eq_extend hk hs heps hpoint (Tableau.mentions_of_isBasic hb)
    · rw [Tableau.extend_of_not_isBasic hb, h.parametric v hv hb]
  · rintro ⟨hadm, hvalue⟩
    exact hk.follows_extend hs heps hpoint hadm hvalue

theorem Follows.eq_of_involves {value' : VariableId → Rat} (h : w.Follows s solver point value)
    (h' : w.Follows s solver point value') (hk : w.Keeps s solver ledger)
    (hs : w.solvers.get? s = some solver) (heps : solver.tableau.epsilon = 0)
    (hpoint : ∀ u, u.isExternal = false → point u = 0) {v : VariableId} (hv : w.Involves s v) :
    value v = value' v := by
  rw [((hk.follows_iff hs heps hpoint).mp h).2 v hv,
    ((hk.follows_iff hs heps hpoint).mp h').2 v hv]

/-! ## What solving does to edits -/

/-- Whether values are the answer of a solver that reconciles: they follow from
    the values that the variables have, or from zero if nothing does so. -/
def IsAnswer (w : World Rat) (s : SolverId) (solver : Solver Rat) (value : VariableId → Rat) :
    Prop :=
  w.Follows s solver w.given value ∨
    (¬ ∃ value', w.Follows s solver w.given value') ∧ w.Follows s solver (fun _ => 0) value

theorem given_eq_zero {u : Symbol} (hu : u.isExternal = false) : w.given u = 0 := by
  cases u with
  | external v => exact nomatch hu
  | slack i | dummy i | artificial i => rfl

/-- A solver answers with one solution at most. -/
theorem IsAnswer.eq_of_involves {value' : VariableId → Rat} (h : w.IsAnswer s solver value)
    (h' : w.IsAnswer s solver value') (hk : w.Keeps s solver ledger)
    (hs : w.solvers.get? s = some solver) (heps : solver.tableau.epsilon = 0) {v : VariableId}
    (hv : w.Involves s v) : value v = value' v := by
  rcases h with h | ⟨hnone, h⟩
  · rcases h' with h' | ⟨hnone, -⟩
    · exact h.eq_of_involves h' hk hs heps (fun _ => given_eq_zero) hv
    · exact absurd ⟨value, h⟩ hnone
  · rcases h' with h' | ⟨-, h'⟩
    · exact absurd ⟨value', h'⟩ hnone
    · exact h.eq_of_involves h' hk hs heps (fun _ _ => rfl) hv

/-- Where values stay, made-up symbols and the variables of the solver have the
    same values at both points. -/
theorem Keeps.extend_point_eq (hk : w.Keeps s solver ledger)
    (hs : w.solvers.get? s = some solver) (heps : solver.tableau.epsilon = 0)
    (hkeeps : solver.keepsValues w.valueOf = true) {u : Symbol}
    (hu : ∀ v, u = .external v → w.Involves s v) :
    solver.tableau.extend (solver.point w.valueOf) u = solver.tableau.extend w.given u := by
  have hreconcile := ((hk.keepsValues_iff heps).mp hkeeps).1
  have hpoint : solver.point w.valueOf = solver.parametric w.valueOf := if_pos hkeeps
  rw [hpoint]
  by_cases hb : solver.tableau.isBasic u = true
  · obtain ⟨row, hrow⟩ := Tableau.isBasic_iff.mp hb
    rw [Tableau.extend_of_row? hrow, Tableau.extend_of_row? hrow,
      hk.evaluate_parametric heps hreconcile hrow]
  · rw [Tableau.extend_of_not_isBasic hb, Tableau.extend_of_not_isBasic hb]
    cases u with
    | external v => exact if_pos ⟨hreconcile, (hk.involves_iff hs).mp (hu v rfl)⟩
    | slack i | dummy i | artificial i => rfl

/-- Values stay exactly if something follows from them. -/
theorem Keeps.keepsValues_iff_exists (hk : w.Keeps s solver ledger)
    (hs : w.solvers.get? s = some solver) (heps : solver.tableau.epsilon = 0)
    (hreconcile : solver.reconcile = true) :
    solver.keepsValues w.valueOf = true ↔ ∃ value, w.Follows s solver w.given value := by
  constructor
  · intro hkeeps
    have hadm := (hk.admissible_extend heps w.valueOf).of_zero_or_eq fun u hext =>
      Or.inr (hk.extend_point_eq hs heps hkeeps fun v hv => by
        rw [hv] at hext
        cases hext).symm
    exact ⟨_, hk.follows_extend hs heps (fun _ => given_eq_zero) hadm fun _ _ => rfl⟩
  · rintro ⟨value, h⟩
    have hadm := h.admissible_extend hk hs heps fun _ => given_eq_zero
    refine (hk.keepsValues_iff heps).mpr ⟨hreconcile, fun i row hrow => ?_⟩
    rw [← Tableau.extend_of_row? hrow]
    exact hadm.restricted (.slack i) rfl

/-- The values that a solver gives are its answer. -/
theorem Keeps.isAnswer (hk : w.Keeps s solver ledger) (hs : w.solvers.get? s = some solver)
    (heps : solver.tableau.epsilon = 0) (hreconcile : solver.reconcile = true)
    (hvalue : ∀ v, w.Involves s v →
      value v = solver.tableau.extend (solver.point w.valueOf) (.external v)) :
    w.IsAnswer s solver value := by
  by_cases hkeeps : solver.keepsValues w.valueOf = true
  · obtain ⟨value', h⟩ := (hk.keepsValues_iff_exists hs heps hreconcile).mp hkeeps
    refine Or.inl (hk.follows_extend hs heps (fun _ => given_eq_zero)
      (h.admissible_extend hk hs heps fun _ => given_eq_zero) fun v hv => ?_)
    rw [hvalue v hv]
    refine hk.extend_point_eq hs heps hkeeps ?_
    rintro _ ⟨⟩
    exact hv
  · have hpoint : solver.point w.valueOf = fun _ => 0 := if_neg hkeeps
    have hadm := hk.admissible_extend heps w.valueOf
    rw [hpoint] at hadm hvalue
    refine Or.inr ⟨fun h => hkeeps ((hk.keepsValues_iff_exists hs heps hreconcile).mpr h), ?_⟩
    exact hk.follows_extend hs heps (fun _ _ => rfl) hadm hvalue

/-- Solving always succeeds and writes the values that the solver gives. -/
theorem exists_solved (hw : w.Reachable) (hs : w.solvers.get? s = some solver)
    (hk : w.Keeps s solver ledger) (heps : solver.tableau.epsilon = 0) :
    ∃ w', (solve s).run w = .ok () w' ∧ ∀ v, w.Involves s v →
      w'.valueOf v = solver.tableau.extend (solver.point w.valueOf) (.external v) := by
  refine ⟨{ w with vars := w.solved solver }, ?_, fun v hv => hk.valueOf_solved hw.kept hs hv⟩
  exact run_solve_of_isFeasible hs (hk.arises.faithful heps).ready.isFeasible

/-- A solver that reconciles leaves the edits alone exactly if they agree with
    its answer. -/
theorem edits_survive_iff (hw : w.Reachable) (hs : w.solvers.get? s = some solver)
    (heps : solver.tableau.epsilon = 0) (hreconcile : solver.reconcile = true) :
    ∃ w', (solve s).run w = .ok () w' ∧
      (w.KeepsEdits s w'.valueOf ↔ ∃ value, w.KeepsEdits s value ∧ w.IsAnswer s solver value) := by
  obtain ⟨ledger, hk⟩ := hw.kept.exists_ledger s solver hs
  obtain ⟨w', hrun, hvalue⟩ := exists_solved hw hs hk heps
  have hanswer := hk.isAnswer hs heps hreconcile hvalue
  refine ⟨w', hrun, fun hkept => ⟨_, hkept, hanswer⟩, ?_⟩
  rintro ⟨value, hkept, h⟩ v hedit hv
  rw [hanswer.eq_of_involves h hk hs heps hv]
  exact hkept v hedit hv

/-! ## Edits kept, dropped and lost -/

theorem lt_size_of_isEditable {α : Type} {w : World α} {v : VariableId}
    (h : w.isEditable v = true) : v < w.vars.size := by
  obtain ⟨x, hx, -⟩ := (Option.any_eq_true ..).mp h
  exact (Array.getElem?_eq_some_iff.mp hx).1

/-- Of a single editable variable nothing but its value matters. -/
theorem keepsEdits_iff {u : VariableId} (hu : w.Involves s u)
    (honly : (List.range w.vars.size).filter w.isEditable = [u]) :
    w.KeepsEdits s value ↔ value u = w.valueOf u := by
  have hedit : ∀ v, w.isEditable v = true ↔ v = u := by
    intro v
    have hmem : v ∈ (List.range w.vars.size).filter w.isEditable ↔ v = u := by
      rw [honly, List.mem_singleton]
    rw [← hmem, List.mem_filter, List.mem_range]
    exact ⟨fun h => ⟨lt_size_of_isEditable h, h⟩, And.right⟩
  constructor
  · exact fun h => h u ((hedit u).mpr rfl) hu
  · intro h v hv _
    rw [(hedit v).mp hv, h]

theorem involves_of_any {c : ConstraintId} {v : VariableId} (hc : w.holds s c = true)
    (hv : (w.constraints[c]?).any (fun x => v ∈ x.relation.vars) = true) : w.Involves s v := by
  obtain ⟨x, hx, hmem⟩ := (Option.any_eq_true ..).mp hv
  exact ⟨x.relation, ⟨c, x, hx, hc, rfl⟩, of_decide_eq_true hmem⟩

theorem exists_reconciling (h : (w.solvers.get? s).any (fun solver =>
      solver.tableau.epsilon = 0 ∧ solver.reconcile = true) = true) :
    ∃ solver, w.solvers.get? s = some solver ∧ solver.tableau.epsilon = 0 ∧
      solver.reconcile = true := by
  obtain ⟨solver, hs, htest⟩ := (Option.any_eq_true ..).mp h
  exact ⟨solver, hs, of_decide_eq_true htest⟩

theorem valueOf_of_passes {w' : World Rat} {v : VariableId} {x : Rat}
    (hrun : (solve s).run w = .ok () w')
    (h : passes (solve s) (fun next => next.valueOf v = x) w = true) : w'.valueOf v = x := by
  rw [passes_of_run hrun] at h
  exact of_decide_eq_true h

/-- The first variable is half of the second one, which is editable and is given
    a value, and must not be negative. -/
def halved (value : Rat) : List (Call Rat) :=
  [.newVariable none 0 false, .newVariable none 0 true, .newSolver ⟨0, true⟩,
    .newConstraint (.proportional 0 (1 / 2) 1), .newConstraint (.limit 1 0 .atLeast 0), .add 0 0,
    .add 0 1, .setValue 1 value]

theorem formulated_halved (value : Rat) : ∀ call ∈ halved value, call.Formulated := by
  simp only [halved, List.forall_mem_cons]
  exact ⟨trivial, trivial, trivial, Relation.formulated_proportional 0 _ 1,
    Relation.formulated_limit 1 0 _ 0, trivial, trivial, trivial, nofun⟩

/-- A value of three hundred is kept.  One of minus forty is not, and no answer
    agrees with it. -/
theorem edits_survive_iff_halved :
    (∃ solver w', (afterAll {} (halved 300)).solvers.get? 0 = some solver ∧
      (solve 0).run (afterAll {} (halved 300)) = .ok () w' ∧ w'.valueOf 1 = 300 ∧
      ∃ value, (afterAll {} (halved 300)).KeepsEdits 0 value ∧
        (afterAll {} (halved 300)).IsAnswer 0 solver value) ∧
    ∃ solver w', (afterAll {} (halved (-40))).solvers.get? 0 = some solver ∧
      (solve 0).run (afterAll {} (halved (-40))) = .ok () w' ∧ w'.valueOf 1 = 0 ∧
      ¬ ∃ value, (afterAll {} (halved (-40))).KeepsEdits 0 value ∧
        (afterAll {} (halved (-40))).IsAnswer 0 solver value := by
  constructor
  · obtain ⟨solver, hs, heps, hreconcile⟩ :=
      exists_reconciling (w := afterAll {} (halved 300)) (s := 0) (by decide +kernel)
    obtain ⟨w', hrun, hiff⟩ :=
      edits_survive_iff ⟨_, formulated_halved 300, rfl⟩ hs heps hreconcile
    have hvalue : w'.valueOf 1 = 300 := valueOf_of_passes hrun (by decide +kernel)
    have hinvolved : (afterAll {} (halved 300)).Involves 0 1 :=
      involves_of_any (c := 0) (by decide +kernel) (by decide +kernel)
    have hgiven : (afterAll {} (halved 300)).valueOf 1 = 300 := by decide +kernel
    have hkept := (keepsEdits_iff hinvolved (by decide +kernel)).mpr (hvalue.trans hgiven.symm)
    exact ⟨solver, w', hs, hrun, hvalue, hiff.mp hkept⟩
  · obtain ⟨solver, hs, heps, hreconcile⟩ :=
      exists_reconciling (w := afterAll {} (halved (-40))) (s := 0) (by decide +kernel)
    obtain ⟨w', hrun, hiff⟩ :=
      edits_survive_iff ⟨_, formulated_halved (-40), rfl⟩ hs heps hreconcile
    have hvalue : w'.valueOf 1 = 0 := valueOf_of_passes hrun (by decide +kernel)
    have hinvolved : (afterAll {} (halved (-40))).Involves 0 1 :=
      involves_of_any (c := 0) (by decide +kernel) (by decide +kernel)
    have hgiven : (afterAll {} (halved (-40))).valueOf 1 = -40 := by decide +kernel
    refine ⟨solver, w', hs, hrun, hvalue, fun hsome => ?_⟩
    have hkept := (keepsEdits_iff hinvolved (by decide +kernel)).mp (hiff.mpr hsome)
    rw [hvalue, hgiven] at hkept
    exact absurd hkept (by decide)

/-- Whether solving loses edits that some solution of the constraints keeps, in a
    world that arises, without tolerance and though the solver reconciles. -/
structure LosesEdits (w : World Rat) (s : SolverId) : Prop where
  reachable : w.Reachable
  exists_solver : ∃ solver, w.solvers.get? s = some solver ∧ solver.tableau.epsilon = 0 ∧
    solver.reconcile = true
  keepable : ∃ value, (∀ r, w.Attached s r → r.Holds value) ∧ w.KeepsEdits s value
  lost : ∃ w', (solve s).run w = .ok () w' ∧ ¬ w.KeepsEdits s w'.valueOf

instance (r : Relation Rat) (value : VariableId → Rat) : Decidable (r.Holds value) :=
  match r with
  | ⟨lhs, .equal, rhs⟩ => inferInstanceAs (Decidable (lhs.evaluate value = rhs.evaluate value))
  | ⟨lhs, .atMost, rhs⟩ => inferInstanceAs (Decidable (lhs.evaluate value ≤ rhs.evaluate value))
  | ⟨lhs, .atLeast, rhs⟩ => inferInstanceAs (Decidable (rhs.evaluate value ≤ lhs.evaluate value))

/-- Tests tell whether the value of a single editable variable is lost. -/
theorem losesEdits_of_tests (hw : w.Reachable) (h : (w.solvers.get? s).any (fun solver =>
      solver.tableau.epsilon = 0 ∧ solver.reconcile = true) = true)
    {u : VariableId} (hu : w.Involves s u)
    (honly : (List.range w.vars.size).filter w.isEditable = [u]) (value : VariableId → Rat)
    (hholds : (w.constraints.all fun x => x.relation.Holds value) = true)
    (hkeep : value u = w.valueOf u)
    (hlost : passes (solve s) (fun next => next.valueOf u ≠ w.valueOf u) w = true) :
    w.LosesEdits s where
  reachable := hw
  exists_solver := exists_reconciling h
  keepable := by
    refine ⟨value, ?_, (keepsEdits_iff hu honly).mpr hkeep⟩
    rintro _ ⟨c, x, hx, -, rfl⟩
    obtain ⟨hlt, rfl⟩ := Array.getElem?_eq_some_iff.mp hx
    exact of_decide_eq_true (Array.all_eq_true.mp hholds c hlt)
  lost := by
    obtain ⟨w', hrun, htest⟩ := exists_of_passes hlost
    exact ⟨w', hrun, fun h => of_decide_eq_true htest ((keepsEdits_iff hu honly).mp h)⟩

/-- The only variable has a lower bound, which makes it basic, and is given a
    value well above. -/
def raised : List (Call Rat) :=
  [.newVariable none 0 true, .newSolver ⟨0, true⟩, .newConstraint (.limit 1 0 .atLeast 3),
    .add 0 0, .setValue 0 10]

theorem reachable_raised : (afterAll {} raised).Reachable := by
  refine ⟨raised, ?_, rfl⟩
  simp only [raised, List.forall_mem_cons]
  exact ⟨trivial, trivial, Relation.formulated_limit 1 0 _ 3, trivial, trivial, nofun⟩

/-- Beside the halved variables there are two more, one of which is given a
    value that the other one must not have. -/
def beside : List (Call Rat) :=
  halved 300 ++ [.newVariable none 0 false, .newVariable none 0 false,
    .newConstraint (.proportional 2 1 3), .newConstraint (.limit 1 2 .atLeast 0), .add 0 2,
    .add 0 3, .setValue 3 (-100)]

theorem reachable_beside : (afterAll {} beside).Reachable := by
  refine ⟨beside, List.forall_mem_append.mpr ⟨formulated_halved 300, ?_⟩, rfl⟩
  simp only [List.forall_mem_cons]
  exact ⟨trivial, trivial, Relation.formulated_proportional 2 1 3,
    Relation.formulated_limit 1 2 _ 0, trivial, trivial, trivial, nofun⟩

/-- A bound with something to spare makes a basic variable lose its value, and
    one value that cannot stay makes all parametric variables lose theirs. -/
theorem losesEdits_raised_beside :
    (afterAll {} raised).LosesEdits 0 ∧ (afterAll {} beside).LosesEdits 0 := by
  constructor
  · have hinvolved : (afterAll {} raised).Involves 0 0 :=
      involves_of_any (c := 0) (by decide +kernel) (by decide +kernel)
    exact losesEdits_of_tests reachable_raised (by decide +kernel) hinvolved (by decide +kernel)
      (fun _ => 10) (by decide +kernel) (by decide +kernel) (by decide +kernel)
  · have hinvolved : (afterAll {} beside).Involves 0 1 :=
      involves_of_any (c := 0) (by decide +kernel) (by decide +kernel)
    exact losesEdits_of_tests reachable_beside (by decide +kernel) hinvolved (by decide +kernel)
      (fun | 0 => 150 | 1 => 300 | _ => 0) (by decide +kernel) (by decide +kernel)
      (by decide +kernel)

end World

end LinearConstraints
