import LinearConstraints.Proofs.World.Calls

/-! # The few ways in which calls change who holds what

    There are many calls, but most of them leave constraints and solvers alone,
    and the others come down to a handful of changes: a constraint or a solver
    is new, a constraint changes hands without a solver, a solver takes one or
    gives one back, mends its tableau, or gives everything up.  What is true of
    owners and registers is followed through these changes, and each addition
    that succeeds is noted on the way. -/

namespace LinearConstraints.World

variable {α : Type} [Scalar α]

/-! ## Additions that succeed -/

/-- The constraints of a list that a solver accepts, up to the first that is
    refused. -/
def accepted (s : SolverId) : List ConstraintId → World α → List (SolverId × ConstraintId)
  | [], _ => []
  | c :: rest, w =>
      match (add s c).run w with
      | .ok _ next => (s, c) :: accepted s rest next
      | .error _ _ => []

/-- What a call adds to solvers. -/
def additions (w : World α) : Call α → List (SolverId × ConstraintId)
  | .add s c => w.accepted s [c]
  | .addAll s cs => w.accepted s cs
  | _ => []

/-- What a history adds to solvers, in the order of time. -/
def allAdditions : World α → List (Call α) → List (SolverId × ConstraintId)
  | _, [] => []
  | w, call :: rest => w.additions call ++ (w.after call).allAdditions rest

/-! ## Changes -/

/-- What leads from one world to another, with the additions on the way. -/
inductive Effect : World α → List (SolverId × ConstraintId) → World α → Prop where
  /-- Constraints and solvers stay as they are, and no variable goes. -/
  | quiet {w w' : World α} (hconstraints : w'.constraints = w.constraints)
      (hsolvers : w'.solvers = w.solvers) (hnext : w'.nextSolver = w.nextSolver)
      (hvars : w.vars.size ≤ w'.vars.size) : Effect w [] w'
  /-- A free constraint is new. -/
  | created {w : World α} {r : Relation α} (hform : r.Formulated)
      (hlhs : w.knows r.lhs = true) (hrhs : w.knows r.rhs = true) :
      Effect w [] { w with constraints := w.constraints.push ⟨r, none⟩ }
  /-- A solver is new. -/
  | founded (w : World α) (settings : Settings α) :
      Effect w [] { w with
        solvers := w.solvers.insert w.nextSolver (Solver.ofSettings settings)
        nextSolver := w.nextSolver + 1 }
  /-- A constraint changes hands, and no solver has anything to do with it. -/
  | passed {w : World α} {c : ConstraintId} {x : Constraint α} {owner? : Option Owner}
      (hx : w.constraints[c]? = some x) (hold : ∀ s, x.owner? ≠ some (.solver s))
      (hnew : ∀ s, owner? ≠ some (.solver s)) : Effect w [] (w.give c x owner?)
  /-- A solver takes a constraint. -/
  | taken {w : World α} {s : SolverId} {c : ConstraintId} {solver : Solver α} {x : Constraint α}
      {marker : Symbol} {tableau : Tableau α} (hs : w.solvers.get? s = some solver)
      (hx : w.constraints[c]? = some x) (hfree : x.owner? = none)
      (himpose : solver.tableau.impose w.isEditable x.relation = .ok (marker, tableau)) :
      Effect w [(s, c)] (w.withAdded s c solver x marker tableau)
  /-- A solver gives a constraint back. -/
  | returned {w : World α} {s : SolverId} {c : ConstraintId} {solver : Solver α}
      {x : Constraint α} {marker : Symbol} {withdrawn tableau : Tableau α}
      (hs : w.solvers.get? s = some solver) (hx : w.constraints[c]? = some x)
      (hm : solver.marker? c = some marker) (howner : x.owner? = some (.solver s))
      (hwithdraw : solver.tableau.withdraw marker = .ok withdrawn)
      (hrepair : withdrawn.repair = .ok tableau) :
      Effect w [] (w.withRemoved s c solver x tableau)
  /-- A solver mends its tableau. -/
  | mended {w : World α} {s : SolverId} {solver : Solver α} {tableau : Tableau α}
      (hs : w.solvers.get? s = some solver) (hrepair : solver.tableau.repair = .ok tableau) :
      Effect w [] { w with solvers := w.solvers.insert s { solver with tableau := tableau } }
  /-- A solver gives all constraints back. -/
  | cleared {w : World α} {s : SolverId} {solver : Solver α}
      (hs : w.solvers.get? s = some solver) :
      Effect w [] { w.released s solver with solvers := w.solvers.insert s solver.clear }
  /-- A solver gives all constraints back and goes. -/
  | dropped {w : World α} {s : SolverId} {solver : Solver α}
      (hs : w.solvers.get? s = some solver) :
      Effect w [] { w.released s solver with solvers := w.solvers.erase s }
  /-- One thing happens after another. -/
  | andThen {w w' w'' : World α} {log log' : List (SolverId × ConstraintId)}
      (h : Effect w log w') (h' : Effect w' log' w'') : Effect w (log ++ log') w''

variable {w : World α}

theorem Effect.refl (w : World α) : Effect w [] w := .quiet rfl rfl rfl (Nat.le_refl _)

/-- A call has its effect when it succeeds, if it changes nothing when it
    fails. -/
theorem effect_left {x : WorldM α Unit} (hok : ∀ next, x.run w = .ok () next → Effect w [] next)
    (herror : ∀ reason next, x.run w = .error reason next → next = w) :
    Effect w [] (left (x.run w)) := by
  cases hrun : x.run w with
  | ok a next => exact hok next hrun
  | error reason next =>
      rw [herror reason next hrun]
      exact .refl w

theorem effect_change (v : VariableId) (change : Variable α → Variable α) :
    Effect w [] (left ((getVariable v >>= fun x => modify fun w =>
      { w with vars := w.vars.setIfInBounds v (change x) } : WorldM α Unit).run w)) := by
  rw [run_change v fun x w => { w with vars := w.vars.setIfInBounds v (change x) }]
  cases w.vars[v]? with
  | none => exact .refl w
  | some x => exact .quiet rfl rfl rfl (Nat.le_of_eq Array.size_setIfInBounds.symm)

theorem effect_newConstraint {r : Relation α} (hform : r.Formulated) :
    Effect w [] (left ((newConstraint r).run w)) := by
  rw [run_newConstraint]
  by_cases hknown : (w.knows r.lhs && w.knows r.rhs) = true
  · rw [if_pos hknown]
    obtain ⟨hlhs, hrhs⟩ := (Bool.and_eq_true ..).mp hknown
    exact .created hform hlhs hrhs
  · rw [if_neg hknown]
    exact .refl w

/-- A key takes no constraint from a solver. -/
theorem effect_attach (k : KeyId) (c : ConstraintId) :
    Effect w [] (left ((attach (.key k) c).run w)) := by
  rw [run_attach]
  cases hx : w.constraints[c]? with
  | none => exact .refl w
  | some x =>
      simp only
      cases hfree : x.owner? with
      | none => exact .passed hx (fun s => by rw [hfree]; exact nofun) fun s => nofun
      | some other =>
          simp only
          split
          · exact .refl w
          · exact .refl w

theorem effect_detach (k : KeyId) (c : ConstraintId) :
    Effect w [] (left ((detach (.key k) c).run w)) := by
  rw [run_detach]
  cases hx : w.constraints[c]? with
  | none => exact .refl w
  | some x =>
      simp only
      split
      · next hown => exact .passed hx (fun s => by rw [hown]; exact nofun) fun s => nofun
      · exact .refl w

theorem effect_add {s : SolverId} {c : ConstraintId} {w' : World α}
    (h : (add s c).run w = .ok () w') : Effect w [(s, c)] w' := by
  obtain ⟨solver, x, marker, tableau, hs, hx, hfree, himpose, rfl⟩ := exists_of_add h
  exact .taken hs hx hfree himpose

theorem effect_addAll (s : SolverId) :
    ∀ (cs : List ConstraintId) (w : World α),
      Effect w (w.accepted s cs) (left ((addAll s cs).run w)) := by
  intro cs
  induction cs with
  | nil => exact Effect.refl
  | cons c rest ih =>
      intro w
      rw [run_addAll_cons]
      simp only [accepted]
      cases hadd : (add s c).run w with
      | ok a next => exact .andThen (effect_add hadd) (ih next)
      | error reason next =>
          rw [eq_of_add_error hadd]
          exact .refl w

theorem effect_remove {s : SolverId} {c : ConstraintId} {w' : World α}
    (h : (remove s c).run w = .ok () w') : Effect w [] w' := by
  obtain ⟨solver, x, marker, withdrawn, tableau, hs, hx, hm, howner, hwithdraw, hrepair, rfl⟩ :=
    exists_of_remove h
  exact .returned hs hx hm howner hwithdraw hrepair

theorem effect_solve {s : SolverId} {w' : World α} (h : (solve s).run w = .ok () w') :
    Effect w [] w' := by
  have hsize : ∀ solver, w.vars.size ≤ (w.solved solver).size :=
    fun _ => Nat.le_of_eq Array.size_mapIdx.symm
  obtain ⟨solver, hs, ⟨-, rfl⟩ | ⟨tableau, hrepair, rfl⟩⟩ := solve_cases h
  · exact .quiet rfl rfl rfl (hsize solver)
  · exact .andThen (.mended hs hrepair) (.quiet rfl rfl rfl (hsize _))

/-- The effect of every call. -/
theorem effect_after (w : World α) {call : Call α} (hcall : call.Formulated) :
    Effect w (w.additions call) (w.after call) := by
  rw [after_eq]
  cases call with
  | newVariable name? value editable =>
      refine .quiet rfl rfl rfl ?_
      show w.vars.size ≤ (w.vars.push ⟨name?, value, editable⟩).size
      rw [Array.size_push]
      exact Nat.le_succ _
  | newConstraint r =>
      show Effect w [] (left ((discard (newConstraint r)).run w))
      rw [left_discard]
      exact effect_newConstraint hcall
  | newKey => exact .quiet rfl rfl rfl (Nat.le_refl _)
  | newSolver settings => exact .founded w settings
  | setValue v value => exact effect_change v fun x => { x with value := value }
  | setEditable v editable => exact effect_change v fun x => { x with editable := editable }
  | attach k c => exact effect_attach k c
  | detach k c => exact effect_detach k c
  | add s c =>
      show Effect w (w.accepted s [c]) (left ((add s c).run w))
      simp only [accepted]
      cases hadd : (add s c).run w with
      | ok a next => exact effect_add hadd
      | error reason next =>
          rw [eq_of_add_error hadd]
          exact .refl w
  | addAll s cs => exact effect_addAll s cs w
  | remove s c => exact effect_left (fun _ => effect_remove) fun _ _ => eq_of_remove_error
  | solve s => exact effect_left (fun _ => effect_solve) fun _ _ => eq_of_solve_error
  | reset s =>
      show Effect w [] (left ((reset s).run w))
      rw [run_reset]
      cases hs : w.solvers.get? s with
      | none => exact .refl w
      | some solver => exact .cleared hs
  | dropSolver s =>
      show Effect w [] (left ((dropSolver s).run w))
      rw [run_dropSolver]
      cases hs : w.solvers.get? s with
      | none => exact .refl w
      | some solver => exact .dropped hs

end LinearConstraints.World
