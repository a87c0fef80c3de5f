import LinearConstraints.Proofs.World.Consistency

/-! # Refused calls leave no trace

    A call that is refused may have changed the world on its way: a constraint
    has been taken, a marker has been numbered, phase one has made exchanges.
    The change to the tableau itself always leaves a trace, if only a number
    that has been given away.  But the tableau is put back as it was, and the
    constraint is given back, so that the world is the same to the letter, for
    any arithmetic.  Only adding a list of constraints keeps what it did before
    the refusal, which is what adding the constraints before the refused one
    does.

    So refused calls can be left out of a history.  The steps of a history are
    its calls with what became of them, and those that are left over have the
    same results and leave the same worlds. -/

namespace LinearConstraints

/-! ## What has to be put back -/

namespace TableauM

variable {α β : Type}

/-- The tableau that a change leaves behind, whether or not it is refused. -/
def left (change : TableauM α β) (t : Tableau α) : Tableau α :=
  match change.run t with
  | .ok _ next => next
  | .error _ next => next

theorem left_get_bind (next : Tableau α → TableauM α β) (t : Tableau α) :
    (get >>= next).left t = (next t).left t := rfl

theorem left_set_bind (u : Tableau α) (next : Unit → TableauM α β) (t : Tableau α) :
    (set u >>= next).left t = (next ()).left u := rfl

/-- What follows a change takes up what the change has left, or nothing follows
    it. -/
theorem left_bind (change : TableauM α Unit) (next : Unit → TableauM α β) (t : Tableau α) :
    (change >>= next).left t = (next ()).left (change.left t) ∨
      (change >>= next).left t = change.left t := by
  simp only [left]
  rw [EStateM.run_bind]
  cases change.run t with
  | ok y u => exact .inl rfl
  | error reason u => exact .inr rfl

variable [Scalar α]

/-- A search gives no number away. -/
theorem nextIndex_left_descend (objective : Symbol) (limit : Nat) :
    ∀ t : Tableau α, ((descend objective limit).left t).nextIndex = t.nextIndex := by
  induction limit with
  | zero =>
      intro t
      rw [descend, left_get_bind]
      cases t.nextMove objective <;> rfl
  | succ limit ih =>
      intro t
      rw [descend, left_get_bind]
      cases t.nextMove objective with
      | done => rfl
      | unbounded => rfl
      | exchange leaving entering =>
          exact (ih (t.exchange leaving entering)).trans (t.nextIndex_exchange leaving entering)

/-- An artificial that is to be absorbed takes a number and never gives it
    back. -/
theorem nextIndex_left_absorb (reason : Refusal α) (row : Row α) (t : Tableau α) :
    ((absorb reason row).left t).nextIndex = t.nextIndex + 1 := by
  let artificial := Symbol.artificial t.nextIndex
  have hsearch : ((minimize artificial).left (t.charge row)).nextIndex = t.nextIndex + 1 :=
    nextIndex_left_descend artificial _ (t.charge row)
  have habsorb : (absorb reason row).left t
      = (minimize artificial >>= fun _ => do
          let u ← get
          if u.epsilon < u.valueOf artificial then throw reason
          set (u.retire artificial)).left (t.charge row) := rfl
  rw [habsorb]
  rcases left_bind (minimize artificial) _ (t.charge row) with h | h
  · rw [h, left_get_bind]
    split
    · exact hsearch
    · exact (Tableau.nextIndex_retire ..).trans hsearch
  · rw [h]
    exact hsearch

/-- A relation that is imposed has its marker numbered, whether or not it is
    refused. -/
theorem nextIndex_lt_left_impose (editable : VariableId → Bool) (r : Relation α)
    (t : Tableau α) : t.nextIndex < ((impose editable r).left t).nextIndex := by
  rw [impose, left_get_bind, left_set_bind]
  cases t.subject? editable r (t.rowOf r) with
  | some subject => exact Nat.lt_succ_self _
  | none =>
      simp only
      split
      · split <;> exact Nat.lt_succ_self _
      · let next : Tableau α := { t with nextIndex := t.nextIndex + 1 }
        have habsorb : t.nextIndex < ((absorb (.unsatisfiable r) (t.rowOf r)).left next).nextIndex
            := by
          rw [nextIndex_left_absorb]
          show t.nextIndex < t.nextIndex + 1 + 1
          omega
        rcases left_bind (absorb (.unsatisfiable r) (t.rowOf r))
          (fun _ => pure (t.marker r.comparison)) next with h | h
        · rw [h]
          exact habsorb
        · rw [h]
          exact habsorb

/-- So does every equation, of those that are absorbed one after the other. -/
theorem nextIndex_lt_left_absorbAll {pending : List (Symbol × Row α)} (h : pending ≠ []) :
    ∀ t : Tableau α, t.nextIndex < ((absorbAll pending).left t).nextIndex := by
  induction pending with
  | nil => exact absurd rfl h
  | cons a rest ih =>
      intro t
      have hhead : t.nextIndex
          < ((absorb (.unrepairable a.1) (t.reduce a.2).orient).left t).nextIndex := by
        rw [nextIndex_left_absorb]
        exact Nat.lt_succ_self _
      rw [absorbAll, left_get_bind]
      rcases left_bind (absorb (.unrepairable a.1) (t.reduce a.2).orient)
        (fun _ => absorbAll rest) t with hleft | hleft
      · rw [hleft]
        cases rest with
        | nil => exact hhead
        | cons b rest => exact hhead.trans (ih (List.cons_ne_nil b rest) _)
      · rw [hleft]
        exact hhead

/-- A change that imposes a relation or repairs the tableau and is refused leaves
    another tableau than it found. -/
theorem ne_of_refused {t u : Tableau α} {reason : Refusal α} :
    (∀ editable r, (impose editable r).run t = .error reason u → u ≠ t) ∧
      (repair.run t = .error reason u → u ≠ t) := by
  constructor
  · rintro editable r h rfl
    have hlt := nextIndex_lt_left_impose editable r u
    rw [left, h] at hlt
    exact absurd hlt (Nat.lt_irrefl _)
  · rintro h rfl
    let sound : Tableau α :=
      { u with rows := u.rows.filter fun s row => !u.isNegative s row }
    have hrun : (absorbAll u.negativeRows).run sound = .error reason u := h
    have hpending : u.negativeRows ≠ [] := by
      intro hnil
      rw [hnil] at hrun
      exact nomatch hrun
    have hlt := nextIndex_lt_left_absorbAll hpending sound
    rw [left, hrun] at hlt
    exact absurd hlt (Nat.lt_irrefl _)

end TableauM

/-- Whether a call is either done or refused as a whole. -/
def Call.isSingle {α : Type} : Call α → Bool
  | addAll _ _ => false
  | _ => true

/-- A call that was made, and what became of it. -/
structure Step (α : Type) where
  /-- The call. -/
  call : Call α
  /-- Why it was refused, if it was. -/
  refusal? : Option (Refusal α)
  /-- The world it left. -/
  next : World α

/-- Whether a step is any other than a refused single call. -/
def Step.lasts {α : Type} (step : Step α) : Bool :=
  !(step.call.isSingle && step.refusal?.isSome)

namespace World

variable {α : Type} [Scalar α]

/-- Why a call is refused, if it is. -/
def refusal? (w : World α) (call : Call α) : Option (Refusal α) :=
  match call.make.run w with
  | .ok _ _ => none
  | .error reason _ => some reason

/-- The steps that a history makes. -/
def steps (w : World α) : List (Call α) → List (Step α)
  | [] => []
  | call :: rest => ⟨call, w.refusal? call, w.after call⟩ :: (w.after call).steps rest

/-! ## Single calls -/

/-- What a refused call leaves is what it returns with its reason. -/
theorem exists_of_refusal? {w : World α} {call : Call α} {reason : Refusal α}
    (h : w.refusal? call = some reason) :
    ∃ next, call.make.run w = .error reason next ∧ w.after call = next := by
  simp only [refusal?] at h
  rw [after_eq]
  cases hrun : call.make.run w with
  | ok a next =>
      rw [hrun] at h
      exact nomatch h
  | error e next =>
      rw [hrun] at h
      obtain rfl := Option.some.inj h
      exact ⟨next, rfl, rfl⟩

/-- What is not refused is done. -/
theorem exists_of_refusal?_eq_none {w : World α} {call : Call α} (h : w.refusal? call = none) :
    ∃ next, call.make.run w = .ok () next ∧ w.after call = next := by
  simp only [refusal?] at h
  rw [after_eq]
  cases hrun : call.make.run w with
  | ok a next => exact ⟨next, rfl, rfl⟩
  | error reason next =>
      rw [hrun] at h
      exact nomatch h

/-- A call that is done is not refused. -/
theorem refusal?_of_ok {w next : World α} (call : Call α) (h : call.make.run w = .ok () next) :
    w.refusal? call = none := by
  simp only [refusal?]
  rw [h]

theorem refusal?_of_error {w next : World α} (call : Call α) {reason : Refusal α}
    (h : call.make.run w = .error reason next) : w.refusal? call = some reason := by
  simp only [refusal?]
  rw [h]

omit [Scalar α] in
/-- A constraint that is not taken leaves no trace. -/
theorem eq_of_attach_error {owner : Owner} {c : ConstraintId} {w w' : World α}
    {reason : Refusal α} (h : (attach owner c).run w = .error reason w') : w' = w := by
  rw [run_attach] at h
  split at h
  · injection h with _ hw
    exact hw.symm
  · split at h
    · exact nomatch h
    · split at h
      · injection h with _ hw
        exact hw.symm
      · injection h with _ hw
        exact hw.symm

omit [Scalar α] in
/-- A constraint that is not given back leaves no trace. -/
theorem eq_of_detach_error {owner : Owner} {c : ConstraintId} {w w' : World α}
    {reason : Refusal α} (h : (detach owner c).run w = .error reason w') : w' = w := by
  rw [run_detach] at h
  split at h
  · injection h with _ hw
    exact hw.symm
  · split at h
    · exact nomatch h
    · injection h with _ hw
      exact hw.symm

omit [Scalar α] in
/-- Nor does a variable that is not changed. -/
theorem eq_of_change_error {v : VariableId} {change : Variable α → World α → World α}
    {w w' : World α} {reason : Refusal α}
    (h : (getVariable v >>= fun x => modify (change x) : WorldM α Unit).run w
      = .error reason w') : w' = w := by
  rw [run_change] at h
  split at h
  · cases h
  · injection h with _ hw
    exact hw.symm

omit [Scalar α] in
theorem eq_of_newConstraint_error {relation : Relation α} {w w' : World α}
    {reason : Refusal α}
    (h : (discard (newConstraint relation)).run w = .error reason w') : w' = w := by
  rw [run_discard, run_newConstraint] at h
  by_cases hknown : (w.knows relation.lhs && w.knows relation.rhs) = true
  · rw [if_pos hknown] at h
    cases h
  · rw [if_neg hknown] at h
    injection h with _ hw
    exact hw.symm

/-- A single call that is refused leaves the world as it was. -/
theorem after_eq_self {w : World α} {call : Call α} (hsingle : call.isSingle = true)
    (h : (w.refusal? call).isSome = true) : w.after call = w := by
  obtain ⟨reason, hreason⟩ := Option.isSome_iff_exists.mp h
  obtain ⟨next, hrun, rfl⟩ := exists_of_refusal? hreason
  cases call with
  | newVariable name? value editable => exact nomatch hrun
  | newConstraint relation => exact eq_of_newConstraint_error hrun
  | newKey => exact nomatch hrun
  | newSolver settings => exact nomatch hrun
  | setValue v value => exact eq_of_change_error hrun
  | setEditable v editable => exact eq_of_change_error hrun
  | attach k c => exact eq_of_attach_error hrun
  | detach k c => exact eq_of_detach_error hrun
  | add s c => exact eq_of_add_error hrun
  | addAll s cs => exact nomatch hsingle
  | remove s c => exact eq_of_remove_error hrun
  | solve s => exact eq_of_solve_error hrun
  | reset s =>
      have hrun : (World.reset s).run w = .error reason _ := hrun
      rw [run_reset] at hrun
      split at hrun
      · injection hrun with _ hw
        exact hw.symm
      · exact nomatch hrun
  | dropSolver s =>
      have hrun : (World.dropSolver s).run w = .error reason _ := hrun
      rw [run_dropSolver] at hrun
      split at hrun
      · injection hrun with _ hw
        exact hw.symm
      · exact nomatch hrun

/-! ## Lists of constraints -/

/-- Adding a list is refused at the first constraint that is refused, in the
    world that those before it lead to. -/
theorem addAll_error_iff (s : SolverId) {reason : Refusal α} {w' : World α} :
    ∀ (cs : List ConstraintId) (w : World α),
      (addAll s cs).run w = .error reason w' ↔
        ∃ added c rest, cs = added ++ c :: rest ∧ (addAll s added).run w = .ok () w' ∧
          (add s c).run w' = .error reason w' := by
  intro cs
  induction cs with
  | nil =>
      intro w
      refine ⟨fun h => (nomatch h), fun ⟨added, c, rest, h, _⟩ => ?_⟩
      exact absurd h.symm (List.append_ne_nil_of_right_ne_nil added (List.cons_ne_nil c rest))
  | cons d ds ih =>
      intro w
      rw [run_addAll_cons]
      cases hadd : (add s d).run w with
      | ok a next =>
          -- the first constraint is added, and the refusal comes later
          simp only
          rw [ih next]
          constructor
          · rintro ⟨added, c, rest, rfl, hadded, hc⟩
            refine ⟨d :: added, c, rest, rfl, ?_, hc⟩
            rw [run_addAll_cons, hadd]
            exact hadded
          · rintro ⟨added, c, rest, heq, hadded, hc⟩
            cases added with
            | nil =>
                obtain ⟨rfl, rfl⟩ := List.cons.inj heq
                have hsame : w = w' := by
                  injection hadded
                subst hsame
                rw [hadd] at hc
                exact nomatch hc
            | cons e added =>
                obtain ⟨rfl, rfl⟩ := List.cons.inj heq
                rw [run_addAll_cons, hadd] at hadded
                exact ⟨added, c, rest, rfl, hadded, hc⟩
      | error e next =>
          -- the first constraint is the one that is refused
          obtain rfl := eq_of_add_error hadd
          simp only
          constructor
          · intro h
            injection h with hreason hw
            subst hreason hw
            exact ⟨[], d, ds, rfl, rfl, hadd⟩
          · rintro ⟨added, c, rest, heq, hadded, hc⟩
            cases added with
            | nil =>
                obtain ⟨rfl, rfl⟩ := List.cons.inj heq
                have hsame : next = w' := by
                  injection hadded
                subst hsame
                exact hadd.symm.trans hc
            | cons e' added =>
                obtain ⟨rfl, rfl⟩ := List.cons.inj heq
                rw [run_addAll_cons, hadd] at hadded
                exact nomatch hadded

/-! ## Histories -/

/-- Leaving a history's refused calls out changes no other step. -/
theorem steps_filter_lasts (history : List (Call α)) :
    ∀ w : World α, w.steps (((w.steps history).filter Step.lasts).map Step.call)
      = (w.steps history).filter Step.lasts := by
  induction history with
  | nil => intro w; rfl
  | cons call rest ih =>
      intro w
      rw [steps]
      by_cases hlasts : Step.lasts ⟨call, w.refusal? call, w.after call⟩ = true
      · rw [List.filter_cons_of_pos hlasts, List.map_cons, steps, ih]
      · -- a call that is left out has changed nothing
        have hdropped : (call.isSingle && (w.refusal? call).isSome) = true := by
          simpa only [Step.lasts, Bool.not_eq_true', Bool.not_eq_false] using hlasts
        obtain ⟨hsingle, hrefused⟩ := (Bool.and_eq_true ..).mp hdropped
        rw [List.filter_cons_of_neg hlasts, after_eq_self hsingle hrefused, ih]

/-- A single call that is refused leaves the whole world as it was; a list that
    is refused leaves the world in which the constraints before the refused one
    have been added; and without its refused single calls a history makes the
    same steps as with them. -/
theorem refused_leaves_no_trace (w : World α) :
    (∀ call : Call α, call.isSingle = true → (w.refusal? call).isSome = true →
        w.after call = w) ∧
      (∀ s cs reason w', (addAll s cs).run w = .error reason w' ↔
        ∃ added c rest, cs = added ++ c :: rest ∧ (addAll s added).run w = .ok () w' ∧
          (add s c).run w' = .error reason w') ∧
      ∀ history : List (Call α),
        w.steps (((w.steps history).filter Step.lasts).map Step.call)
          = (w.steps history).filter Step.lasts :=
  ⟨fun _ hsingle hrefused => after_eq_self hsingle hrefused,
    fun s cs _ _ => addAll_error_iff s cs w, fun history => steps_filter_lasts history w⟩

open Exact in
/-- The bound that cannot be met together with the others leaves no trace. -/
theorem refused_leaves_no_trace_shares :
    ((afterAll {} shares).refusal? (.add 0 3)).isSome = true ∧
      (afterAll {} shares).after (.add 0 3) = afterAll {} shares := by
  have h : ((afterAll {} shares).refusal? (.add 0 3)).isSome = true := by decide +kernel
  exact ⟨h, (refused_leaves_no_trace (afterAll {} shares)).1 (.add 0 3) rfl h⟩

end World

end LinearConstraints
