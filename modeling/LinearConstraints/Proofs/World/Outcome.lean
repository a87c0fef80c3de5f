import LinearConstraints.Proofs.Solver.Bookkeeping
import LinearConstraints.Proofs.World.Refused

/-! # What becomes of a solver in a call

    Whatever is asked of the world, a solver that is there afterwards has come
    out of the call in one of three ways: it has been started anew, it has
    given one constraint back, or it has given nothing back.  What holds of a
    solver along a history is shown by following these three. -/

namespace LinearConstraints.World

variable {α : Type} [Scalar α] {w w' : World α} {s : SolverId} {call : Call α}
  {solver solver' : Solver α}

/-- Whether a call starts a solver anew. -/
def renews (w : World α) (s : SolverId) : Call α → Bool
  | .newSolver _ => w.nextSolver = s
  | .reset s' => s' = s
  | _ => false

/-- Whether a call removes a constraint whose marker occurs nowhere. -/
def strands (w : World α) (s : SolverId) : Call α → Bool
  | .remove s' c =>
      s' = s && (w.refusal? (.remove s c)).isNone &&
        (w.solvers.get? s).any fun solver =>
          (solver.marker? c).any fun marker => !solver.tableau.mentions marker
  | _ => false

/-- Whether a call removes a constraint from a solver and severs the marker of
    another one. -/
def Severs (w : World α) (s : SolverId) : Call α → Prop
  | .remove s' c =>
      s' = s ∧ w.refusal? (.remove s c) = none ∧
        ∃ solver marker a, w.solvers.get? s = some solver ∧ solver.marker? c = some marker ∧
          a ∈ solver.constraints ∧ a.1 ≠ c ∧ solver.tableau.Severs marker a.2
  | _ => False

/-- Whether the arithmetic is steady at the epsilon of every solver. -/
def Steady (w : World α) : Prop :=
  ∀ s solver, w.solvers.get? s = some solver → Scalar.Steady solver.tableau.epsilon

/-- The ways a solver comes out of a call. -/
inductive Leaves (w : World α) (s : SolverId) (call : Call α) (solver' : Solver α) : Prop where
  /-- It is started anew. -/
  | anew (hrenews : w.renews s call = true) (hconstraints : solver'.constraints = [])
      (hsize : solver'.tableau.size = 0)
      (hepsilon : (∃ settings, call = .newSolver settings ∧
          solver'.tableau.epsilon = settings.epsilon) ∨
        ∃ solver, w.solvers.get? s = some solver ∧
          solver'.tableau.epsilon = solver.tableau.epsilon)
  /-- It gives a constraint back. -/
  | released {c : ConstraintId} {solver : Solver α} {marker : Symbol}
      (hcall : call = .remove s c) (hdone : w.refusal? (.remove s c) = none)
      (hs : w.solvers.get? s = some solver) (hmarker : solver.marker? c = some marker)
      (hreleases : solver.Releases c marker solver')
  /-- It gives nothing back. -/
  | sustained {solver : Solver α} (hrenews : w.renews s call = false)
      (hstrands : w.strands s call = false) (hsevers : ¬ w.Severs s call)
      (hs : w.solvers.get? s = some solver) (hsustains : solver.Sustains solver')

/-- Whether a solver that is there after something was there before and has
    given nothing back. -/
def Sustains (w : World α) (s : SolverId) (w' : World α) : Prop :=
  ∀ solver', w'.solvers.get? s = some solver' →
    ∃ solver, w.solvers.get? s = some solver ∧ solver.Sustains solver'

omit [Scalar α] in
theorem Sustains.of_solvers_eq (h : w'.solvers = w.solvers) : w.Sustains s w' :=
  fun solver' hs => ⟨solver', h ▸ hs, .refl solver'⟩

omit [Scalar α] in
theorem Sustains.trans {w'' : World α} (h : w.Sustains s w') (h' : w'.Sustains s w'') :
    w.Sustains s w'' := by
  intro solver'' hs''
  obtain ⟨solver', hs', hsustains'⟩ := h' solver'' hs''
  obtain ⟨solver, hs, hsustains⟩ := h solver' hs'
  exact ⟨solver, hs, hsustains.trans hsustains'⟩

omit [Scalar α] in
/-- Putting a solver in the place of the one it sustains. -/
theorem Sustains.insert {s' : SolverId} (hs : w.solvers.get? s' = some solver)
    (h : solver.Sustains solver')
    (hsolvers : w'.solvers = w.solvers.insert s' solver') : w.Sustains s w' := by
  intro solver'' hs''
  rw [hsolvers] at hs''
  by_cases hne : s = s'
  · subst hne
    rw [OrderedMap.get?_insert_self, Option.some.injEq] at hs''
    subst hs''
    exact ⟨solver, hs, h⟩
  · rw [OrderedMap.get?_insert_of_ne _ _ hne] at hs''
    exact ⟨solver'', hs'', .refl solver''⟩

theorem Steady.of_sustains (hsteady : w.Steady) (h : ∀ s, w.Sustains s w') : w'.Steady := by
  intro s solver' hs'
  obtain ⟨solver, hs, hsustains⟩ := h s solver' hs'
  rw [hsustains.epsilon_eq]
  exact hsteady s solver hs

/-- Adding gives nothing back. -/
theorem Kept.sustains_add (hw : w.Kept) (hsteady : w.Steady) {s' : SolverId} {c : ConstraintId}
    (h : (World.add s' c).run w = .ok () w') : w.Sustains s w' := by
  obtain ⟨solver, x, marker, tableau, hs, -, -, himpose, rfl⟩ := exists_of_add h
  obtain ⟨ledger, hk⟩ := hw.exists_ledger s' solver hs
  exact .insert hs (hk.arises.sustains_register (hsteady s' solver hs) himpose c) rfl

theorem Kept.sustains_addAll (s' : SolverId) :
    ∀ (cs : List ConstraintId) {w : World α}, w.Kept → w.Steady →
      w.Sustains s (left ((World.addAll s' cs).run w)) := by
  intro cs
  induction cs with
  | nil => exact fun _ _ => .of_solvers_eq rfl
  | cons c rest ih =>
      intro w hw hsteady
      rw [run_addAll_cons]
      cases hadd : (World.add s' c).run w with
      | ok a next =>
          have hnext := hsteady.of_sustains fun s => hw.sustains_add hsteady hadd (s := s)
          exact (hw.sustains_add hsteady hadd).trans (ih (hw.add hadd) hnext)
      | error reason next =>
          rw [eq_of_add_error hadd]
          exact .of_solvers_eq rfl

/-- Neither does solving. -/
theorem Kept.sustains_solve (hw : w.Kept) (hsteady : w.Steady) {s' : SolverId}
    (h : (World.solve s').run w = .ok () w') : w.Sustains s w' := by
  obtain ⟨solver, hs, ⟨-, rfl⟩ | ⟨tableau, hrepair, rfl⟩⟩ := solve_cases h
  · exact .of_solvers_eq rfl
  · obtain ⟨ledger, hk⟩ := hw.exists_ledger s' solver hs
    exact .insert hs (hk.arises.sustains_repair (hsteady s' solver hs) hrepair) rfl

/-- Any call of which the solver gives nothing back. -/
theorem Leaves.of_sustains (hrenews : w.renews s call = false)
    (hstrands : w.strands s call = false) (hsevers : ¬ w.Severs s call)
    (h : w.Sustains s (w.after call)) (hs' : (w.after call).solvers.get? s = some solver') :
    w.Leaves s call solver' := by
  obtain ⟨solver, hs, hsustains⟩ := h solver' hs'
  exact .sustained hrenews hstrands hsevers hs hsustains

omit [Scalar α] in
theorem solvers_attach (owner : Owner) (c : ConstraintId) :
    (left ((attach owner c).run w)).solvers = w.solvers := by
  rw [run_attach]
  cases w.constraints[c]? with
  | none => rfl
  | some x =>
      simp only
      cases x.owner? with
      | none => rfl
      | some other =>
          simp only
          split <;> rfl

omit [Scalar α] in
theorem solvers_detach (owner : Owner) (c : ConstraintId) :
    (left ((detach owner c).run w)).solvers = w.solvers := by
  rw [run_detach]
  cases w.constraints[c]? with
  | none => rfl
  | some x =>
      simp only
      split <;> rfl

omit [Scalar α] in
theorem solvers_newConstraint (r : Relation α) :
    (left ((newConstraint r).run w)).solvers = w.solvers := by
  rw [run_newConstraint]
  split <;> rfl

omit [Scalar α] in
/-- Changing a variable changes no solver. -/
theorem solvers_change (v : VariableId) (change : Variable α → World α → World α)
    (hchange : ∀ x, (change x w).solvers = w.solvers) :
    (left ((getVariable v >>= fun x => modify (change x) : WorldM α Unit).run w)).solvers
      = w.solvers := by
  rw [run_change]
  cases w.vars[v]? with
  | none => rfl
  | some x => exact hchange x

/-- Removing gives one constraint back, unless it is refused or another solver is
    meant. -/
theorem Kept.leaves_remove (hw : w.Kept) (hsteady : w.Steady) (s' : SolverId) (c : ConstraintId)
    (hs' : (w.after (.remove s' c)).solvers.get? s = some solver') :
    w.Leaves s (.remove s' c) solver' := by
  cases hrun : (World.remove s' c).run w with
  | ok a next =>
      rw [after_of_ok (.remove s' c) hrun] at hs'
      obtain ⟨solver, x, marker, withdrawn, tableau, hs, hx, hm, -, hwithdraw, hrepair, rfl⟩ :=
        exists_of_remove hrun
      by_cases heq : s = s'
      · subst heq
        obtain ⟨ledger, hk⟩ := hw.exists_ledger s solver hs
        obtain ⟨e, he, rfl, rfl, -⟩ := hk.entry_of_marker hx hm
        obtain rfl := Option.some.inj ((OrderedMap.get?_insert_self ..).symm.trans hs')
        exact .released rfl (refusal?_of_ok (.remove s e.constraint) hrun) hs hm
          (hk.arises.releases (hsteady s solver hs) he hwithdraw hrepair x.relation.vars)
      · have hs' := (OrderedMap.get?_insert_of_ne _ _ heq).symm.trans hs'
        refine .sustained rfl ?_ (fun h => heq h.1.symm) hs' (.refl solver')
        simp only [strands]
        rw [decide_eq_false (Ne.symm heq)]
        rfl
  | error reason next =>
      have hrefusal := refusal?_of_error (.remove s' c) hrun
      rw [after_of_error (.remove s' c) hrun, eq_of_remove_error hrun] at hs'
      refine .sustained rfl ?_ ?_ hs' (.refl solver')
      · simp only [strands]
        by_cases heq : s' = s
        · rw [← heq, hrefusal, Option.isNone_some, Bool.and_false]
          rfl
        · rw [decide_eq_false heq]
          rfl
      · rintro ⟨rfl, hnone, -⟩
        rw [hrefusal] at hnone
        exact nomatch hnone

/-- Resetting starts a solver anew. -/
theorem leaves_reset (s' : SolverId)
    (hs' : (w.after (.reset s')).solvers.get? s = some solver') :
    w.Leaves s (.reset s') solver' := by
  have hrun := run_reset s' w
  cases hget : w.solvers.get? s' with
  | none =>
      rw [hget] at hrun
      rw [after_of_error (.reset s') hrun] at hs'
      have hne : s' ≠ s := by
        rintro rfl
        rw [hget] at hs'
        exact nomatch hs'
      exact .sustained (decide_eq_false hne) rfl id hs' (.refl solver')
  | some solver =>
      rw [hget] at hrun
      rw [after_of_ok (.reset s') hrun] at hs'
      by_cases hs : s = s'
      · subst hs
        obtain rfl := Option.some.inj ((OrderedMap.get?_insert_self ..).symm.trans hs')
        exact .anew (decide_eq_true rfl) rfl rfl (Or.inr ⟨solver, hget, rfl⟩)
      · have hs' := (OrderedMap.get?_insert_of_ne _ _ hs).symm.trans hs'
        exact .sustained (decide_eq_false (Ne.symm hs)) rfl id hs' (.refl solver')

/-- Dropping a solver leaves the others. -/
theorem sustains_dropSolver (s' : SolverId) : w.Sustains s (w.after (.dropSolver s')) := by
  intro solver' hs'
  refine ⟨solver', ?_, .refl solver'⟩
  have hrun := run_dropSolver s' w
  cases hget : w.solvers.get? s' with
  | none =>
      rw [hget] at hrun
      rwa [after_of_error (.dropSolver s') hrun] at hs'
  | some solver =>
      rw [hget] at hrun
      rw [after_of_ok (.dropSolver s') hrun] at hs'
      by_cases hs : s = s'
      · subst hs
        exact nomatch (OrderedMap.get?_erase_self ..).symm.trans hs'
      · exact (OrderedMap.get?_erase_of_ne _ hs).symm.trans hs'

/-- Every call starts a solver anew, gives one of its constraints back, or gives
    nothing back. -/
theorem Kept.leaves (hw : w.Kept) (hsteady : w.Steady)
    (hs' : (w.after call).solvers.get? s = some solver') : w.Leaves s call solver' := by
  cases call with
  | newVariable name? value editable => exact .of_sustains rfl rfl id (.of_solvers_eq rfl) hs'
  | newConstraint relation =>
      refine .of_sustains rfl rfl id (.of_solvers_eq ?_) hs'
      rw [after_eq]
      exact (congrArg World.solvers (left_discard ..)).trans (solvers_newConstraint relation)
  | newKey => exact .of_sustains rfl rfl id (.of_solvers_eq rfl) hs'
  | newSolver settings =>
      have hafter : (w.after (.newSolver settings)).solvers
          = w.solvers.insert w.nextSolver (Solver.ofSettings settings) := rfl
      rw [hafter] at hs'
      by_cases hs : s = w.nextSolver
      · subst hs
        obtain rfl := Option.some.inj ((OrderedMap.get?_insert_self ..).symm.trans hs')
        exact .anew (decide_eq_true rfl) rfl rfl (Or.inl ⟨settings, rfl, rfl⟩)
      · rw [OrderedMap.get?_insert_of_ne _ _ hs] at hs'
        exact .sustained (decide_eq_false (Ne.symm hs)) rfl id hs' (.refl solver')
  | setValue v value =>
      refine .of_sustains rfl rfl id (.of_solvers_eq ?_) hs'
      rw [after_eq]
      exact solvers_change v _ fun _ => rfl
  | setEditable v editable =>
      refine .of_sustains rfl rfl id (.of_solvers_eq ?_) hs'
      rw [after_eq]
      exact solvers_change v _ fun _ => rfl
  | attach k c =>
      refine .of_sustains rfl rfl id (.of_solvers_eq ?_) hs'
      rw [after_eq]
      exact solvers_attach (.key k) c
  | detach k c =>
      refine .of_sustains rfl rfl id (.of_solvers_eq ?_) hs'
      rw [after_eq]
      exact solvers_detach (.key k) c
  | add s' c =>
      refine .of_sustains rfl rfl id ?_ hs'
      cases hrun : (World.add s' c).run w with
      | ok a next => exact after_of_ok (.add s' c) hrun ▸ hw.sustains_add hsteady hrun
      | error reason next =>
          rw [after_of_error (.add s' c) hrun, eq_of_add_error hrun]
          exact .of_solvers_eq rfl
  | addAll s' cs =>
      refine .of_sustains rfl rfl id ?_ hs'
      rw [after_eq]
      exact sustains_addAll s' cs hw hsteady
  | remove s' c => exact hw.leaves_remove hsteady s' c hs'
  | solve s' =>
      refine .of_sustains rfl rfl id ?_ hs'
      cases hrun : (World.solve s').run w with
      | ok a next => exact after_of_ok (.solve s') hrun ▸ hw.sustains_solve hsteady hrun
      | error reason next =>
          rw [after_of_error (.solve s') hrun, eq_of_solve_error hrun]
          exact .of_solvers_eq rfl
  | reset s' => exact leaves_reset s' hs'
  | dropSolver s' => exact .of_sustains rfl rfl id (sustains_dropSolver s') hs'

/-- Every solver keeps the epsilon it was set up with. -/
theorem Kept.steady_after (hw : w.Kept) (hsteady : w.Steady)
    (hsettings : ∀ settings, call = .newSolver settings → Scalar.Steady settings.epsilon) :
    (w.after call).Steady := by
  intro s solver' hs'
  cases hw.leaves hsteady hs' with
  | anew _ _ _ hepsilon =>
      rcases hepsilon with ⟨settings, hcall, heps⟩ | ⟨solver, hs, heps⟩
      · exact heps ▸ hsettings settings hcall
      · exact heps ▸ hsteady s solver hs
  | released _ _ hs _ hreleases => exact hreleases.epsilon_eq ▸ hsteady s _ hs
  | sustained _ _ _ hs hsustains => exact hsustains.epsilon_eq ▸ hsteady s _ hs

end LinearConstraints.World
