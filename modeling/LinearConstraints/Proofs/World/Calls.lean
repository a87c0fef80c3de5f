import LinearConstraints.OrderedMap.Lemmas
import LinearConstraints.Proofs.Tableau.InPlace
import LinearConstraints.World.History

/-! # What each call does to the world

    Every call is given as one equation that says what it returns and what
    world it leaves, case by case.  Where a call takes a constraint over and
    the tableau is then left half changed, the tableau is put back and the
    constraint given back, and the world is the one it started from to the
    letter. -/

namespace LinearConstraints.World

variable {α : Type}

/-- A call whose result is left aside does the same. -/
theorem run_discard {β : Type} (x : WorldM α β) (w : World α) :
    (discard x).run w =
      match x.run w with
      | .ok _ next => .ok () next
      | .error e next => .error e next := by
  show EStateM.map _ x w = _
  simp only [EStateM.map, EStateM.run]
  cases x w with
  | ok a next => rfl
  | error e next => rfl

/-- A call that is refused goes on with the reason, in the world that it has
    left. -/
theorem run_tryCatch {β : Type} (x : WorldM α β) (handle : Refusal α → WorldM α β)
    (w : World α) :
    (tryCatch x handle).run w =
      match x.run w with
      | .ok y next => .ok y next
      | .error reason next => (handle reason).run next := by
  show EStateM.tryCatch x handle w = _
  unfold EStateM.tryCatch EStateM.run
  cases x w with
  | ok y next => rfl
  | error reason next => rfl

/-- The world that a call leaves behind with its result. -/
def left {β : Type} : EStateM.Result (Refusal α) (World α) β → World α
  | .ok _ next => next
  | .error _ next => next

theorem after_eq [Scalar α] (w : World α) (call : Call α) :
    w.after call = left (call.make.run w) := by
  simp only [after, left]
  cases call.make.run w with
  | ok a next => rfl
  | error e next => rfl

/-- The result of a call may be left aside. -/
theorem left_discard {β : Type} (x : WorldM α β) (w : World α) :
    left ((discard x).run w) = left (x.run w) := by
  rw [run_discard]
  cases x.run w with
  | ok a next => rfl
  | error e next => rfl

/-- Whether a call succeeds and leaves a world that passes a test. -/
def passes (x : WorldM α Unit) (test : World α → Bool) (w : World α) : Bool :=
  match x.run w with
  | .ok _ next => test next
  | .error _ _ => false

theorem exists_of_passes {x : WorldM α Unit} {test : World α → Bool} {w : World α}
    (h : passes x test w = true) : ∃ next, x.run w = .ok () next ∧ test next = true := by
  simp only [passes] at h
  cases hrun : x.run w with
  | ok a next =>
      rw [hrun] at h
      exact ⟨next, rfl, h⟩
  | error e next =>
      rw [hrun] at h
      cases h

theorem passes_of_run {x : WorldM α Unit} {w next : World α} (h : x.run w = .ok () next)
    (test : World α → Bool) : passes x test w = test next := by
  simp only [passes]
  rw [h]

/-- Whether a call is refused. -/
def refuses (x : WorldM α Unit) (w : World α) : Bool :=
  match x.run w with
  | .ok _ _ => false
  | .error _ _ => true

theorem exists_of_refuses {x : WorldM α Unit} {w : World α} (h : refuses x w = true) :
    ∃ reason next, x.run w = .error reason next := by
  simp only [refuses] at h
  cases hrun : x.run w with
  | ok a next =>
      rw [hrun] at h
      cases h
  | error e next => exact ⟨e, next, rfl⟩

/-! ## Handles -/

theorem run_getSolver (s : SolverId) (w : World α) :
    (getSolver s).run w =
      match w.solvers.get? s with
      | some solver => .ok solver w
      | none => .error .unknownHandle w := by
  show (match w.solvers.get? s with
    | some x => (pure x : WorldM α _)
    | none => throw Refusal.unknownHandle).run w = _
  cases w.solvers.get? s with
  | some solver => rfl
  | none => rfl

theorem run_getConstraint (c : ConstraintId) (w : World α) :
    (getConstraint c).run w =
      match w.constraints[c]? with
      | some x => .ok x w
      | none => .error .unknownHandle w := by
  show (match w.constraints[c]? with
    | some x => (pure x : WorldM α _)
    | none => throw Refusal.unknownHandle).run w = _
  cases w.constraints[c]? with
  | some x => rfl
  | none => rfl

theorem run_getVariable (v : VariableId) (w : World α) :
    (getVariable v).run w =
      match w.vars[v]? with
      | some x => .ok x w
      | none => .error .unknownHandle w := by
  show (match w.vars[v]? with
    | some x => (pure x : WorldM α _)
    | none => throw Refusal.unknownHandle).run w = _
  cases w.vars[v]? with
  | some x => rfl
  | none => rfl

/-- Anything can be changed about a variable that there is. -/
theorem run_change (v : VariableId) (change : Variable α → World α → World α) (w : World α) :
    (getVariable v >>= fun x => modify (change x) : WorldM α Unit).run w =
      match w.vars[v]? with
      | some x => .ok () (change x w)
      | none => .error .unknownHandle w := by
  rw [EStateM.run_bind, run_getVariable]
  cases w.vars[v]? with
  | some x => rfl
  | none => rfl

/-- Only a relation over known variables is taken in. -/
theorem run_newConstraint (relation : Relation α) (w : World α) :
    (newConstraint relation).run w =
      if (w.knows relation.lhs && w.knows relation.rhs) = true then
        .ok w.constraints.size { w with constraints := w.constraints.push ⟨relation, none⟩ }
      else .error .unknownHandle w := by
  simp only [newConstraint]
  rw [EStateM.run_bind, EStateM.run_get]
  simp only
  split
  · rfl
  · rfl

/-! ## Owners -/

/-- The world in which a constraint belongs to somebody else. -/
def give (w : World α) (c : ConstraintId) (x : Constraint α) (owner? : Option Owner) : World α :=
  { w with constraints := w.constraints.setIfInBounds c { x with owner? := owner? } }

/-- Who gets a constraint twice has what the second gift says. -/
theorem give_give (w : World α) (c : ConstraintId) (x y : Constraint α)
    (first second : Option Owner) :
    (w.give c x first).give c y second = w.give c y second := by
  simp only [give]
  rw [Array.setIfInBounds_setIfInBounds]

/-- Nothing changes if a constraint goes to whom it belongs. -/
theorem give_self {w : World α} {c : ConstraintId} {x : Constraint α}
    (h : w.constraints[c]? = some x) : w.give c x x.owner? = w := by
  have hset : w.constraints.setIfInBounds c x = w.constraints := by
    refine Array.ext_getElem? fun i => ?_
    rw [Array.getElem?_setIfInBounds]
    split
    · next hi =>
        subst hi
        split
        · exact h.symm
        · next hlt => rw [Array.getElem?_eq_none (Nat.not_lt.mp hlt)]
    · rfl
  simp only [give]
  rw [show ({ x with owner? := x.owner? } : Constraint α) = x from rfl, hset]

/-- Who takes a constraint and gives it back has changed nothing. -/
theorem give_back {w : World α} {c : ConstraintId} {x : Constraint α} {owner? : Option Owner}
    (h : w.constraints[c]? = some x) (howner : x.owner? = owner?) (taker? : Option Owner) :
    (w.give c x taker?).give c { x with owner? := taker? } owner? = w := by
  subst howner
  rw [give_give]
  exact give_self h

theorem getElem?_give_self {w : World α} {c : ConstraintId} {x y : Constraint α}
    (h : w.constraints[c]? = some y) (owner? : Option Owner) :
    (w.give c x owner?).constraints[c]? = some { x with owner? := owner? } := by
  obtain ⟨hlt, -⟩ := Array.getElem?_eq_some_iff.mp h
  exact Array.getElem?_setIfInBounds_self_of_lt hlt

theorem run_attach (owner : Owner) (c : ConstraintId) (w : World α) :
    (attach owner c).run w =
      match w.constraints[c]? with
      | none => .error .unknownHandle w
      | some x =>
          match x.owner? with
          | none => .ok () (w.give c x (some owner))
          | some other =>
              if other = owner then .error .attachedAlready w
              else .error .attachedElsewhere w := by
  simp only [attach]
  rw [EStateM.run_bind, run_getConstraint]
  cases w.constraints[c]? with
  | none => rfl
  | some x =>
      simp only
      cases x.owner? with
      | none => rfl
      | some other =>
          simp only
          split <;> rfl

theorem run_detach (owner : Owner) (c : ConstraintId) (w : World α) :
    (detach owner c).run w =
      match w.constraints[c]? with
      | none => .error .unknownHandle w
      | some x =>
          if x.owner? = some owner then .ok () (w.give c x none) else .error .notAttached w := by
  simp only [detach]
  rw [EStateM.run_bind, run_getConstraint]
  cases w.constraints[c]? with
  | none => rfl
  | some x =>
      simp only
      split <;> rfl

/-! ## Changing a tableau -/

section Tableaux

variable {β : Type} {w : World α} {s : SolverId} {solver : Solver α}

/-- The world in which a solver has another tableau. -/
def withTableau (w : World α) (s : SolverId) (solver : Solver α) (tableau : Tableau α) :
    World α :=
  { w with solvers := w.solvers.insert s { solver with tableau := tableau } }

theorem get?_withTableau (w : World α) (s : SolverId) (solver : Solver α) (tableau : Tableau α) :
    (w.withTableau s solver tableau).solvers.get? s = some { solver with tableau := tableau } :=
  OrderedMap.get?_insert_self ..

/-- A tableau that is put back takes the place of what has become of it. -/
theorem withTableau_restore (hs : w.solvers.get? s = some solver) (tableau : Tableau α) :
    (w.withTableau s solver tableau).withTableau s { solver with tableau := tableau }
      solver.tableau = w := by
  simp only [withTableau]
  rw [OrderedMap.insert_insert, OrderedMap.insert_of_get? hs]

theorem run_setTableau (hs : w.solvers.get? s = some solver) (tableau : Tableau α) :
    (setTableau s tableau).run w = .ok () (w.withTableau s solver tableau) := by
  rw [setTableau, EStateM.run_bind, run_getSolver, hs]
  rfl

/-- A change is made in place, as far as it gets. -/
theorem run_changeTableau (hs : w.solvers.get? s = some solver) (change : TableauM α β) :
    (changeTableau s change).run w =
      match change.run solver.tableau with
      | .ok y tableau => .ok y (w.withTableau s solver tableau)
      | .error reason tableau => .error reason (w.withTableau s solver tableau) := by
  rw [changeTableau, EStateM.run_bind, run_getSolver, hs]
  simp only
  cases change.run solver.tableau with
  | ok y tableau =>
      simp only
      rw [EStateM.run_bind, run_setTableau hs]
      rfl
  | error reason tableau =>
      simp only
      rw [EStateM.run_bind, run_setTableau hs]
      rfl

/-- An attempt changes the tableau, or leaves the world as it was but for what
    is undone besides. -/
theorem run_attempt (hs : w.solvers.get? s = some solver) (change : TableauM α β)
    (undo : WorldM α Unit) :
    (attempt s change undo).run w =
      match change.answer solver.tableau with
      | .ok a => .ok a.1 (w.withTableau s solver a.2)
      | .error reason => (undo >>= fun _ => throw reason).run w := by
  rw [attempt, EStateM.run_bind, run_getSolver, hs]
  simp only
  rw [run_tryCatch, run_changeTableau hs]
  cases hrun : change.run solver.tableau with
  | ok y tableau =>
      rw [TableauM.answer_of_ok hrun]
  | error reason tableau =>
      -- what has become of the tableau is overwritten by what it was
      rw [TableauM.answer_of_error hrun]
      simp only
      rw [EStateM.run_bind, run_setTableau (get?_withTableau w s solver tableau)]
      simp only
      rw [withTableau_restore hs]

/-- The same for a change that hands out nothing. -/
theorem run_attempt_unit (hs : w.solvers.get? s = some solver) (change : TableauM α Unit)
    (undo : WorldM α Unit) :
    (attempt s change undo).run w =
      match change.outcome solver.tableau with
      | .ok tableau => .ok () (w.withTableau s solver tableau)
      | .error reason => (undo >>= fun _ => throw reason).run w := by
  rw [run_attempt hs, TableauM.answer_eq_outcome]
  cases change.outcome solver.tableau with
  | ok tableau => rfl
  | error reason => rfl

end Tableaux

/-! ## Adding -/

variable [Scalar α]

/-- The world in which a solver holds one constraint more. -/
def withAdded (w : World α) (s : SolverId) (c : ConstraintId) (solver : Solver α)
    (x : Constraint α) (marker : Symbol) (tableau : Tableau α) : World α :=
  { w.give c x (some (.solver s)) with
    solvers := w.solvers.insert s (solver.register c marker x.relation.vars tableau) }

/-- Adding takes a free constraint if the tableau allows it, and changes nothing
    otherwise. -/
theorem run_add (s : SolverId) (c : ConstraintId) (w : World α) :
    (add s c).run w =
      match w.solvers.get? s with
      | none => .error .unknownHandle w
      | some solver =>
          match w.constraints[c]? with
          | none => .error .unknownHandle w
          | some x =>
              match x.owner? with
              | some other =>
                  if other = .solver s then .error .attachedAlready w
                  else .error .attachedElsewhere w
              | none =>
                  match solver.tableau.impose w.isEditable x.relation with
                  | .ok (marker, tableau) =>
                      .ok () (w.withAdded s c solver x marker tableau)
                  | .error reason => .error reason w := by
  rw [add, EStateM.run_bind, run_discard, run_getSolver]
  cases hs : w.solvers.get? s with
  | none => rfl
  | some solver =>
      simp only
      rw [EStateM.run_bind, run_getConstraint]
      cases hx : w.constraints[c]? with
      | none => rfl
      | some x =>
          simp only
          rw [EStateM.run_bind, run_attach, hx]
          simp only
          cases hfree : x.owner? with
          | some other =>
              simp only
              by_cases hown : other = .solver s
              · rw [if_pos hown]
              · rw [if_neg hown]
          | none =>
              -- who holds the constraint matters neither to the solver nor to the edits
              have hs' : (w.give c x (some (.solver s))).solvers.get? s = some solver := hs
              have hanswer : (TableauM.impose (w.give c x (some (.solver s))).isEditable
                  x.relation).answer solver.tableau
                = solver.tableau.impose w.isEditable x.relation := rfl
              simp only
              rw [EStateM.run_bind, EStateM.run_get]
              simp only
              rw [EStateM.run_bind, run_attempt hs', hanswer]
              cases solver.tableau.impose w.isEditable x.relation with
              | ok a =>
                  simp only
                  rw [EStateM.run_bind, run_getSolver, get?_withTableau]
                  exact congrArg (fun solvers => EStateM.Result.ok ()
                    { w.give c x (some (.solver s)) with solvers := solvers })
                    (OrderedMap.insert_insert ..)
              | error reason =>
                  simp only
                  rw [EStateM.run_bind, run_detach, getElem?_give_self hx]
                  simp only [if_true]
                  exact congrArg (EStateM.Result.error reason) (give_back hx hfree _)

/-- A list is added from its head, up to the first refusal. -/
theorem run_addAll_cons (s : SolverId) (c : ConstraintId) (rest : List ConstraintId)
    (w : World α) :
    (addAll s (c :: rest)).run w =
      match (add s c).run w with
      | .ok _ next => (addAll s rest).run next
      | .error e next => .error e next := by
  rw [addAll, EStateM.run_bind]
  cases (add s c).run w with
  | ok a next => rfl
  | error e next => rfl

/-- How a constraint comes to be added. -/
theorem exists_of_add {s : SolverId} {c : ConstraintId} {w w' : World α}
    (h : (add s c).run w = .ok () w') :
    ∃ solver x marker tableau, w.solvers.get? s = some solver ∧ w.constraints[c]? = some x ∧
      x.owner? = none ∧
      solver.tableau.impose w.isEditable x.relation = .ok (marker, tableau) ∧
      w' = w.withAdded s c solver x marker tableau := by
  rw [run_add] at h
  split at h
  · exact nomatch h
  · next solver hs =>
      split at h
      · exact nomatch h
      · next x hx =>
          split at h
          · split at h
            · exact nomatch h
            · exact nomatch h
          · next hfree =>
              split at h
              · next marker tableau himpose =>
                  injection h with _ hw
                  exact ⟨solver, x, marker, tableau, hs, hx, hfree, himpose, hw.symm⟩
              · exact nomatch h

/-- A constraint that is not added leaves no trace. -/
theorem eq_of_add_error {s : SolverId} {c : ConstraintId} {w w' : World α}
    {reason : Refusal α} (h : (add s c).run w = .error reason w') : w' = w := by
  rw [run_add] at h
  split at h
  · injection h with _ hw
    exact hw.symm
  · split at h
    · injection h with _ hw
      exact hw.symm
    · split at h
      · split at h
        · injection h with _ hw
          exact hw.symm
        · injection h with _ hw
          exact hw.symm
      · split at h
        · exact nomatch h
        · injection h with _ hw
          exact hw.symm

/-! ## Removing -/

/-- The world in which a solver holds one constraint less. -/
def withRemoved (w : World α) (s : SolverId) (c : ConstraintId) (solver : Solver α)
    (x : Constraint α) (tableau : Tableau α) : World α :=
  { w.give c x none with
    solvers := w.solvers.insert s (solver.unregister c x.relation.vars tableau) }

/-- Removing gives a constraint of the solver back if the tableau allows it, and
    changes nothing otherwise. -/
theorem run_remove (s : SolverId) (c : ConstraintId) (w : World α) :
    (remove s c).run w =
      match w.solvers.get? s with
      | none => .error .unknownHandle w
      | some solver =>
          match w.constraints[c]? with
          | none => .error .unknownHandle w
          | some x =>
              match solver.marker? c with
              | none => .error .notAttached w
              | some marker =>
                  if x.owner? = some (.solver s) then
                    match solver.tableau.withdraw marker >>= Tableau.repair with
                    | .ok tableau => .ok () (w.withRemoved s c solver x tableau)
                    | .error reason => .error reason w
                  else .error .notAttached w := by
  simp only [remove]
  rw [EStateM.run_bind, run_getSolver]
  cases hs : w.solvers.get? s with
  | none => rfl
  | some solver =>
      simp only
      rw [EStateM.run_bind, run_getConstraint]
      cases hx : w.constraints[c]? with
      | none => rfl
      | some x =>
          simp only
          cases solver.marker? c with
          | none => rfl
          | some marker =>
              simp only
              rw [EStateM.run_bind, run_detach, hx]
              simp only
              by_cases howner : x.owner? = some (.solver s)
              · have hs' : (w.give c x none).solvers.get? s = some solver := hs
                rw [if_pos howner, if_pos howner]
                simp only
                rw [EStateM.run_bind, run_attempt_unit hs', Tableau.outcome_withdraw_repair]
                cases solver.tableau.withdraw marker >>= Tableau.repair with
                | ok tableau =>
                    simp only
                    rw [EStateM.run_bind, run_getSolver, get?_withTableau]
                    exact congrArg (fun solvers => EStateM.Result.ok ()
                      { w.give c x none with solvers := solvers }) (OrderedMap.insert_insert ..)
                | error reason =>
                    simp only
                    rw [EStateM.run_bind, run_attach, getElem?_give_self hx]
                    exact congrArg (EStateM.Result.error reason) (give_back hx howner _)
              · rw [if_neg howner, if_neg howner]

/-- How a constraint comes to be removed. -/
theorem exists_of_remove {s : SolverId} {c : ConstraintId} {w w' : World α}
    (h : (remove s c).run w = .ok () w') :
    ∃ solver x marker withdrawn tableau, w.solvers.get? s = some solver ∧
      w.constraints[c]? = some x ∧ solver.marker? c = some marker ∧
      x.owner? = some (.solver s) ∧ solver.tableau.withdraw marker = .ok withdrawn ∧
      withdrawn.repair = .ok tableau ∧ w' = w.withRemoved s c solver x tableau := by
  rw [run_remove] at h
  split at h
  · exact nomatch h
  · next solver hs =>
      split at h
      · exact nomatch h
      · next x hx =>
          split at h
          · exact nomatch h
          · next marker hm =>
              split at h
              · next howner =>
                  cases hwith : solver.tableau.withdraw marker with
                  | error e =>
                      rw [hwith] at h
                      exact nomatch h
                  | ok withdrawn =>
                      have hbind : (Except.ok withdrawn >>= Tableau.repair : Except (Refusal α) _)
                        = withdrawn.repair := rfl
                      rw [hwith, hbind] at h
                      cases hrep : withdrawn.repair with
                      | error e =>
                          rw [hrep] at h
                          exact nomatch h
                      | ok tableau =>
                          rw [hrep] at h
                          injection h with _ hw
                          exact ⟨solver, x, marker, withdrawn, tableau, hs, hx, hm, howner, hwith,
                            hrep, hw.symm⟩
              · exact nomatch h

/-- A constraint that is not removed leaves no trace. -/
theorem eq_of_remove_error {s : SolverId} {c : ConstraintId} {w w' : World α}
    {reason : Refusal α} (h : (remove s c).run w = .error reason w') : w' = w := by
  rw [run_remove] at h
  split at h
  · injection h with _ hw
    exact hw.symm
  · split at h
    · injection h with _ hw
      exact hw.symm
    · split at h
      · injection h with _ hw
        exact hw.symm
      · split at h
        · split at h
          · exact nomatch h
          · injection h with _ hw
            exact hw.symm
        · injection h with _ hw
          exact hw.symm

/-! ## Solving -/

/-- The variables with the solution of a solver written into them. -/
def solved (w : World α) (solver : Solver α) : Array (Variable α) :=
  w.vars.mapIdx fun v x =>
    match solver.solution? w.valueOf v with
    | some value => { x with value := value }
    | none => x

/-- Solving writes a solution, after a repair where one is due, and changes
    nothing if the repair fails. -/
theorem run_solve (s : SolverId) (w : World α) :
    (solve s).run w =
      match w.solvers.get? s with
      | none => .error .unknownHandle w
      | some solver =>
          if solver.tableau.isFeasible then .ok () { w with vars := w.solved solver }
          else
            match solver.tableau.repair with
            | .ok tableau =>
                .ok () { w with
                  solvers := w.solvers.insert s { solver with tableau := tableau }
                  vars := w.solved { solver with tableau := tableau } }
            | .error reason => .error reason w := by
  rw [solve, EStateM.run_bind, run_getSolver]
  cases hs : w.solvers.get? s with
  | none => rfl
  | some solver =>
      simp only
      by_cases hfeas : solver.tableau.isFeasible = true
      · rw [if_pos hfeas, if_pos hfeas, EStateM.run_bind, run_getSolver, hs]
        rfl
      · have houtcome : TableauM.repair.outcome solver.tableau = solver.tableau.repair := rfl
        rw [if_neg hfeas, if_neg hfeas, EStateM.run_bind, run_attempt_unit hs, houtcome]
        cases solver.tableau.repair with
        | ok tableau =>
            simp only
            rw [EStateM.run_bind, run_getSolver, get?_withTableau]
            rfl
        | error reason => rfl

/-- A feasible solver has its solution written at once. -/
theorem run_solve_of_isFeasible {s : SolverId} {w : World α} {solver : Solver α}
    (hs : w.solvers.get? s = some solver) (hfeas : solver.tableau.isFeasible = true) :
    (solve s).run w = .ok () { w with vars := w.solved solver } := by
  rw [run_solve, hs]
  exact if_pos hfeas

/-- A solver is solved as it is or with its tableau repaired. -/
theorem solve_cases {s : SolverId} {w w' : World α} (h : (solve s).run w = .ok () w') :
    ∃ solver, w.solvers.get? s = some solver ∧
      (solver.tableau.isFeasible = true ∧ w' = { w with vars := w.solved solver } ∨
        ∃ tableau, solver.tableau.repair = .ok tableau ∧
          w' = { w with
            solvers := w.solvers.insert s { solver with tableau := tableau }
            vars := w.solved { solver with tableau := tableau } }) := by
  rw [run_solve] at h
  split at h
  · cases h
  · next solver hs =>
      refine ⟨solver, hs, ?_⟩
      split at h
      · next hfeas =>
          injection h with _ hw
          exact .inl ⟨hfeas, hw.symm⟩
      · split at h
        · next tableau hrepair =>
            injection h with _ hw
            exact .inr ⟨tableau, hrepair, hw.symm⟩
        · cases h

/-- What a world is like in which a solver has been solved. -/
theorem exists_of_solve {s : SolverId} {w w' : World α} (h : (solve s).run w = .ok () w') :
    ∃ solver, w'.solvers.get? s = some solver ∧ w'.constraints = w.constraints ∧
      w'.vars = w.solved solver := by
  obtain ⟨solver, hs, ⟨-, rfl⟩ | ⟨tableau, -, rfl⟩⟩ := solve_cases h
  · exact ⟨solver, hs, rfl, rfl⟩
  · exact ⟨_, OrderedMap.get?_insert_self .., rfl, rfl⟩

/-- A variable has the value of the solution, if that says anything. -/
theorem valueOf_of_solved {w w' : World α} {solver : Solver α} (h : w'.vars = w.solved solver)
    {v : VariableId} (hv : v < w.vars.size) :
    w'.valueOf v = (solver.solution? w.valueOf v).getD (w.valueOf v) := by
  have hget : w.vars[v]? = some w.vars[v] := Array.getElem?_eq_getElem hv
  have hold : w.valueOf v = w.vars[v].value := by
    simp only [valueOf]
    rw [hget]
  rw [hold]
  show (match w'.vars[v]? with
    | some x => x.value
    | none => 0) = _
  rw [h, solved, Array.getElem?_mapIdx, hget]
  cases solver.solution? w.valueOf v with
  | some value => rfl
  | none => rfl

/-- Nothing is written into a variable of which the solution says nothing. -/
theorem getElem?_solved_of_none {w : World α} {solver : Solver α} {v : VariableId}
    (hv : solver.solution? w.valueOf v = none) : (w.solved solver)[v]? = w.vars[v]? := by
  rw [solved, Array.getElem?_mapIdx, hv]
  cases w.vars[v]? with
  | none => rfl
  | some x => rfl

/-- Such a variable keeps its value. -/
theorem valueOf_of_solved_none {w w' : World α} {solver : Solver α}
    (h : w'.vars = w.solved solver) {v : VariableId}
    (hv : solver.solution? w.valueOf v = none) : w'.valueOf v = w.valueOf v := by
  simp only [valueOf]
  rw [h, getElem?_solved_of_none hv]

/-- A solution that is not found leaves no trace. -/
theorem eq_of_solve_error {s : SolverId} {w w' : World α} {reason : Refusal α}
    (h : (solve s).run w = .error reason w') : w' = w := by
  rw [run_solve] at h
  split at h
  · injection h with _ hw
    exact hw.symm
  · split at h
    · cases h
    · split at h
      · cases h
      · injection h with _ hw
        exact hw.symm

/-! ## Giving everything up -/

/-- The constraints after one of them has been given back, if it belonged to the
    owner. -/
def release (owner : Owner) (constraints : Array (Constraint α)) (c : ConstraintId) :
    Array (Constraint α) :=
  match constraints[c]? with
  | none => constraints
  | some x =>
      if x.owner? = some owner then constraints.setIfInBounds c { x with owner? := none }
      else constraints

omit [Scalar α] in
theorem run_detachAll (owner : Owner) :
    ∀ (ids : List ConstraintId) (w : World α),
      (detachAll owner ids).run w
        = .ok () { w with constraints := ids.foldl (release owner) w.constraints } := by
  intro ids
  induction ids with
  | nil => intro w; rfl
  | cons c rest ih =>
      intro w
      have hone : (tryCatch (detach owner c) fun _ => return : WorldM α Unit).run w
          = .ok () { w with constraints := release owner w.constraints c } := by
        rw [run_tryCatch, run_detach]
        simp only [release]
        cases w.constraints[c]? with
        | none => rfl
        | some x =>
            simp only
            by_cases howner : x.owner? = some owner
            · rw [if_pos howner, if_pos howner]
              rfl
            · rw [if_neg howner, if_neg howner]
              rfl
      simp only [detachAll]
      rw [EStateM.run_bind, hone]
      simp only
      rw [ih]
      rfl

/-- The world in which a solver has given its constraints back. -/
def released (w : World α) (s : SolverId) (solver : Solver α) : World α :=
  { w with
    constraints := (solver.constraints.map (·.1)).foldl (release (.solver s)) w.constraints }

omit [Scalar α] in
theorem run_reset (s : SolverId) (w : World α) :
    (reset s).run w =
      match w.solvers.get? s with
      | none => .error .unknownHandle w
      | some solver =>
          .ok () { w.released s solver with solvers := w.solvers.insert s solver.clear } := by
  simp only [reset]
  rw [EStateM.run_bind, run_getSolver]
  cases w.solvers.get? s with
  | none => rfl
  | some solver =>
      simp only
      rw [EStateM.run_bind, run_detachAll]
      rfl

omit [Scalar α] in
theorem run_dropSolver (s : SolverId) (w : World α) :
    (dropSolver s).run w =
      match w.solvers.get? s with
      | none => .error .unknownHandle w
      | some solver =>
          .ok () { w.released s solver with solvers := w.solvers.erase s } := by
  simp only [dropSolver]
  rw [EStateM.run_bind, run_getSolver]
  cases w.solvers.get? s with
  | none => rfl
  | some solver =>
      simp only
      rw [EStateM.run_bind, run_detachAll]
      rfl

end LinearConstraints.World
