import LinearConstraints.Proofs.Form.Formulas
import LinearConstraints.Proofs.World.Holding

/-! # Who owns a constraint, who holds it, and what callers are told

    Since owners and registers keep step, a solver can tell from the owner alone
    whether it holds a constraint, and what it answers about owners is exact:
    the tableau never refuses anything for such a reason.  For the same reason
    taking a constraint and giving it back never goes wrong halfway, neither
    where a refused change is undone nor where a solver gives everything up. -/

namespace LinearConstraints

variable {α : Type}

/-! ## Reasons of the tableau -/

/-- Whether a call was refused because of the owner of a constraint. -/
def Refusal.concernsOwner : Refusal α → Bool
  | notAttached => true
  | attachedElsewhere => true
  | attachedAlready => true
  | _ => false

variable [Scalar α]

namespace Tableau

variable {t : Tableau α} {reason : Refusal α}

theorem concernsOwner_of_descend {objective : Symbol} :
    ∀ {limit : Nat} {t : Tableau α}, t.descend objective limit = .error reason →
      reason.concernsOwner = false := by
  intro limit
  induction limit with
  | zero =>
      intro t h
      rw [descend_eq] at h
      split at h
      · cases h
      · cases h
        rfl
      · cases h
        rfl
  | succ limit ih =>
      intro t h
      rw [descend_eq] at h
      split at h
      · cases h
      · cases h
        rfl
      · exact ih h

theorem concernsOwner_of_absorb {row : Row α} {cause : Refusal α}
    (hcause : cause.concernsOwner = false) (h : t.absorb cause row = .error reason) :
    reason.concernsOwner = false := by
  rw [absorb_eq] at h
  split at h
  · next e hsearch =>
      cases h
      exact concernsOwner_of_descend hsearch
  · split at h
    · cases h
      exact hcause
    · cases h

theorem concernsOwner_of_impose {editable : VariableId → Bool} {r : Relation α}
    (h : t.impose editable r = .error reason) : reason.concernsOwner = false := by
  rcases impose_error_cases h with ⟨-, -, rfl⟩ | habs
  · rfl
  · exact concernsOwner_of_absorb rfl habs

theorem concernsOwner_of_absorbAll :
    ∀ {pending : List (Symbol × Row α)} {t : Tableau α},
      absorbAll pending t = .error reason → reason.concernsOwner = false := by
  intro pending
  induction pending with
  | nil =>
      intro t h
      cases h
  | cons a rest ih =>
      intro t h
      rw [absorbAll_cons] at h
      cases habs : t.absorb (.unrepairable a.1) (t.reduce a.2).orient with
      | error e =>
          rw [habs] at h
          cases h
          exact concernsOwner_of_absorb rfl habs
      | ok u =>
          rw [habs] at h
          exact ih h

/-- Neither a withdrawal nor the repair after it is refused because of an
    owner. -/
theorem concernsOwner_of_withdraw {marker : Symbol}
    (h : t.withdraw marker >>= Tableau.repair = .error reason) : reason.concernsOwner = false := by
  cases hwithdraw : t.withdraw marker with
  | ok u =>
      rw [hwithdraw] at h
      exact concernsOwner_of_absorbAll h
  | error e =>
      rw [hwithdraw] at h
      cases h
      rw [withdraw_eq] at hwithdraw
      split at hwithdraw
      · cases hwithdraw
      · split at hwithdraw
        · split at hwithdraw
          · cases hwithdraw
          · cases hwithdraw
            rfl
        · cases hwithdraw

end Tableau

namespace World

variable {w w' : World α} {s : SolverId} {solver : Solver α} {c : ConstraintId}
  {x : Constraint α}

/-! ## Taking and giving back -/

omit [Scalar α] in
/-- What has been taken can be given back, and nothing has changed. -/
theorem detach_of_attach {owner : Owner} (h : (attach owner c).run w = .ok () w') :
    (detach owner c).run w' = .ok () w := by
  rw [run_attach] at h
  split at h
  · cases h
  · next x hx =>
      split at h
      · next hfree =>
          injection h with _ hw
          subst hw
          rw [run_detach, getElem?_give_self hx]
          simp only [if_true]
          rw [give_back hx hfree]
      · split at h <;> cases h

omit [Scalar α] in
/-- What has been given back can be taken again, and nothing has changed. -/
theorem attach_of_detach {owner : Owner} (h : (detach owner c).run w = .ok () w') :
    (attach owner c).run w' = .ok () w := by
  rw [run_detach] at h
  split at h
  · cases h
  · next x hx =>
      split at h
      · next howner =>
          injection h with _ hw
          subst hw
          rw [run_attach, getElem?_give_self hx]
          simp only
          rw [give_back hx howner]
      · cases h

omit [Scalar α] in
/-- What belongs to somebody can be given back by them. -/
theorem detach_of_owner {owner : Owner} {r : Relation α}
    (h : w.constraints[c]? = some ⟨r, some owner⟩) :
    (detach owner c).run w = .ok () (w.give c ⟨r, some owner⟩ none) := by
  rw [run_detach, h]
  exact if_pos rfl

omit [Scalar α] in
/-- What has not been released among others still belongs to the owner. -/
theorem getElem?_foldl_release_of_not_mem {owner : Owner} {ids : List ConstraintId}
    (hc : c ∉ ids) (constraints : Array (Constraint α)) :
    (ids.foldl (release owner) constraints)[c]? = constraints[c]? := by
  rw [getElem?_foldl_release]
  cases constraints[c]? with
  | none => rfl
  | some x => exact congrArg some (if_neg fun h => hc h.1)

/-! ## What solvers answer -/

/-- A solver refuses what belongs to somebody, and says whether that is the
    solver itself. -/
theorem run_add_of_owner {owner : Owner} (hs : w.solvers.get? s = some solver)
    (hx : w.constraints[c]? = some x) (howner : x.owner? = some owner) :
    (add s c).run w =
      if owner = .solver s then .error .attachedAlready w else .error .attachedElsewhere w := by
  rw [run_add, hs]
  simp only
  rw [hx]
  simp only
  rw [howner]

/-- If it refuses what is free, it does so for another reason. -/
theorem concernsOwner_of_add (hs : w.solvers.get? s = some solver)
    (hx : w.constraints[c]? = some x) (hfree : x.owner? = none) {reason : Refusal α}
    (h : (add s c).run w = .error reason w') : reason.concernsOwner = false := by
  rw [run_add, hs] at h
  simp only at h
  rw [hx] at h
  simp only at h
  rw [hfree] at h
  simp only at h
  split at h
  · cases h
  · next cause himpose =>
      injection h with hreason
      subst hreason
      exact Tableau.concernsOwner_of_impose himpose

theorem add_attachedAlready_iff (hs : w.solvers.get? s = some solver)
    (hx : w.constraints[c]? = some x) :
    (add s c).run w = .error .attachedAlready w ↔ x.owner? = some (.solver s) := by
  cases howner : x.owner? with
  | none =>
      refine ⟨fun h => ?_, fun h => (nomatch h)⟩
      exact nomatch concernsOwner_of_add hs hx howner h
  | some owner =>
      rw [run_add_of_owner hs hx howner, Option.some.injEq]
      by_cases hown : owner = .solver s
      · rw [if_pos hown]
        exact ⟨fun _ => hown, fun _ => rfl⟩
      · rw [if_neg hown]
        exact ⟨fun h => (nomatch h), fun h => absurd h hown⟩

theorem add_attachedElsewhere_iff (hs : w.solvers.get? s = some solver)
    (hx : w.constraints[c]? = some x) :
    (add s c).run w = .error .attachedElsewhere w
      ↔ ∃ owner, x.owner? = some owner ∧ owner ≠ .solver s := by
  cases howner : x.owner? with
  | none =>
      refine ⟨fun h => ?_, fun ⟨_, h, _⟩ => (nomatch h)⟩
      exact nomatch concernsOwner_of_add hs hx howner h
  | some owner =>
      rw [run_add_of_owner hs hx howner]
      by_cases hown : owner = .solver s
      · rw [if_pos hown]
        refine ⟨fun h => (nomatch h), ?_⟩
        rintro ⟨other, hother, hne⟩
        exact absurd (Option.some.inj hother ▸ hown) hne
      · rw [if_neg hown]
        exact ⟨fun _ => ⟨owner, rfl, hown⟩, fun _ => rfl⟩

/-- Removing is refused for want of an owner where the solver does not hold the
    constraint. -/
theorem remove_notAttached_iff (hs : w.solvers.get? s = some solver)
    (hx : w.constraints[c]? = some x)
    (howner : solver.holds c = true → x.owner? = some (.solver s)) :
    (remove s c).run w = .error .notAttached w ↔ solver.holds c = false := by
  rw [run_remove, hs]
  simp only
  rw [hx]
  simp only
  simp only [Solver.holds] at howner ⊢
  cases hm : solver.marker? c with
  | none => exact ⟨fun _ => rfl, fun _ => rfl⟩
  | some marker =>
      simp only
      rw [hm] at howner
      rw [if_pos (howner rfl)]
      constructor
      · intro h
        cases hwithdraw : solver.tableau.withdraw marker >>= Tableau.repair with
        | ok a =>
            rw [hwithdraw] at h
            cases h
        | error reason =>
            rw [hwithdraw] at h
            injection h with hreason
            subst hreason
            cases Tableau.concernsOwner_of_withdraw hwithdraw
      · intro h
        cases h

/-! ## Agreement -/

/-- Whether owners and registers agree in a world, with what that means to
    callers and to the calls themselves. -/
structure OwnersAgree (w : World α) : Prop where
  /-- A constraint belongs to a solver exactly if the solver holds it. -/
  owner_iff : ∀ s c, w.holds s c = true ↔ ∃ r, w.constraints[c]? = some ⟨r, some (.solver s)⟩
  /-- No two solvers hold the same constraint. -/
  unique : ∀ s s' c, w.holds s c = true → w.holds s' c = true → s = s'
  /-- Adding is refused as done already exactly if the solver holds the
      constraint. -/
  already_iff : ∀ s c solver x, w.solvers.get? s = some solver → w.constraints[c]? = some x →
    ((add s c).run w = .error .attachedAlready w ↔ w.holds s c = true)
  /-- It is refused as done elsewhere exactly if another solver holds the
      constraint or a key owns it. -/
  elsewhere_iff : ∀ s c solver x, w.solvers.get? s = some solver → w.constraints[c]? = some x →
    ((add s c).run w = .error .attachedElsewhere w ↔
      (∃ s', s' ≠ s ∧ w.holds s' c = true) ∨ ∃ k, x.owner? = some (.key k))
  /-- Removing is refused for want of an owner exactly if the solver does not
      hold the constraint. -/
  notAttached_iff : ∀ s c solver x, w.solvers.get? s = some solver →
    w.constraints[c]? = some x →
    ((remove s c).run w = .error .notAttached w ↔ w.holds s c = false)
  /-- A constraint that has just been taken can be given back. -/
  undo_attach : ∀ owner c w', (attach owner c).run w = .ok () w' →
    (detach owner c).run w' = .ok () w
  /-- A constraint that a solver holds can be given back, and taken again. -/
  undo_detach : ∀ s c, w.holds s c = true →
    ∃ w', (detach (.solver s) c).run w = .ok () w' ∧ (attach (.solver s) c).run w' = .ok () w
  /-- Where a solver gives its constraints back one after the other, none of
      them fails. -/
  give_back : ∀ s solver before c after, w.solvers.get? s = some solver →
    solver.members = before ++ c :: after →
    ∃ w₁ w₂, (detachAll (.solver s) before).run w = .ok () w₁ ∧
      (detach (.solver s) c).run w₁ = .ok () w₂

theorem holds_iff (hw : w.Kept) {log : List (SolverId × ConstraintId)} (h : w.Registered log) :
    w.holds s c = true ↔ ∃ r, w.constraints[c]? = some ⟨r, some (.solver s)⟩ := by
  constructor
  · intro hc
    simp only [holds] at hc
    split at hc
    · next solver hs =>
        obtain ⟨ledger, hk⟩ := hw.exists_ledger s solver hs
        obtain ⟨e, -, -, howned⟩ := hk.exists_entry hc
        exact ⟨e.relation, howned⟩
    · cases hc
  · rintro ⟨r, hr⟩
    obtain ⟨solver, hs, hmem⟩ := h.held c _ s hr rfl
    rw [holds_eq hs, Solver.holds_iff_mem_members]
    exact hmem

/-- The register of a solver names every constraint once. -/
theorem Kept.nodup_members (hw : w.Kept) (hs : w.solvers.get? s = some solver) :
    solver.members.Nodup := by
  obtain ⟨ledger, hk⟩ := hw.exists_ledger s solver hs
  rw [Solver.members, hk.arises.constraints_eq, List.map_map]
  exact hk.arises.nodup

theorem Kept.ownersAgree (hw : w.Kept) {log : List (SolverId × ConstraintId)}
    (h : w.Registered log) : w.OwnersAgree := by
  have hagree : ∀ {s c x}, w.constraints[c]? = some x →
      (w.holds s c = true ↔ x.owner? = some (.solver s)) := by
    intro s c x hx
    rw [holds_iff hw h, hx]
    exact ⟨fun ⟨r, hr⟩ => by rw [Option.some.inj hr], fun ho => ⟨x.relation, by rw [← ho]⟩⟩
  refine ⟨fun s c => holds_iff hw h, fun s s' c hc hc' => ?_, fun s c solver x hs hx => ?_,
    fun s c solver x hs hx => ?_, fun s c solver x hs hx => ?_, fun _ _ _ => detach_of_attach,
    fun s c hc => ?_, fun s solver before c after hs hsplit => ?_⟩
  · obtain ⟨r, hr⟩ := (holds_iff hw h).mp hc
    have hs' := (hagree hr).mp hc'
    exact Owner.solver.inj (Option.some.inj hs')
  · rw [add_attachedAlready_iff hs hx, hagree hx]
  · rw [add_attachedElsewhere_iff hs hx]
    constructor
    · rintro ⟨owner, howner, hne⟩
      cases owner with
      | solver s' =>
          exact Or.inl ⟨s', fun heq => hne (heq ▸ rfl), (hagree hx).mpr howner⟩
      | key k => exact Or.inr ⟨k, howner⟩
    · rintro (⟨s', hne, hc⟩ | ⟨k, hk⟩)
      · exact ⟨.solver s', (hagree hx).mp hc, fun heq => hne (Owner.solver.inj heq)⟩
      · exact ⟨.key k, hk, nofun⟩
  · rw [remove_notAttached_iff hs hx fun hc => (hagree hx).mp ((holds_eq hs c).trans hc),
      holds_eq hs]
  · obtain ⟨r, hr⟩ := (holds_iff hw h).mp hc
    exact ⟨_, detach_of_owner hr, attach_of_detach (detach_of_owner hr)⟩
  · have hnodup := hw.nodup_members hs
    have hmem : c ∈ solver.members :=
      hsplit ▸ List.mem_append_right _ (List.mem_cons_self ..)
    obtain ⟨r, hr⟩ := (holds_iff (s := s) hw h).mp
      ((holds_eq hs c).trans (Solver.holds_iff_mem_members.mpr hmem))
    -- it has not been given back before, since it is registered once
    have hfresh : c ∉ before := fun hc =>
      (List.nodup_append.mp (hsplit ▸ hnodup)).2.2 c hc c (List.mem_cons_self ..) rfl
    refine ⟨_, _, run_detachAll _ _ _, detach_of_owner (r := r) ?_⟩
    exact (getElem?_foldl_release_of_not_mem hfresh _).trans hr

/-! ## Giving everything up -/

/-- What it means that a world is the one before in which a solver has let its
    constraints go. -/
structure Frees (w : World α) (s : SolverId) (w' : World α) : Prop where
  /-- Those that the solver held are free, and no other constraint has changed. -/
  getElem?_constraints : ∀ c, w'.constraints[c]? =
    w.constraints[c]?.map fun x => if w.holds s c then { x with owner? := none } else x
  /-- Every other solver is as it was, -/
  others : ∀ s', s' ≠ s → w'.solvers.get? s' = w.solvers.get? s'
  /-- and so is every variable. -/
  vars_eq : w'.vars = w.vars
  /-- Of the solver itself nothing is held any more. -/
  holds_eq_false : ∀ c, w'.holds s c = false

/-- A solver releases what it holds and nothing else. -/
theorem Kept.getElem?_released (hw : w.Kept) {log : List (SolverId × ConstraintId)}
    (h : w.Registered log) (hs : w.solvers.get? s = some solver) (c : ConstraintId) :
    (w.released s solver).constraints[c]? =
      w.constraints[c]?.map fun x => if w.holds s c then { x with owner? := none } else x := by
  rw [released, getElem?_foldl_release]
  cases hx : w.constraints[c]? with
  | none => rfl
  | some x =>
      have hiff : c ∈ solver.members ∧ x.owner? = some (.solver s) ↔ w.holds s c = true := by
        rw [holds_eq hs, Solver.holds_iff_mem_members, and_iff_left_iff_imp]
        intro hmem
        obtain ⟨r, hr⟩ := (holds_iff hw h).mp
          ((holds_eq hs c).trans (Solver.holds_iff_mem_members.mpr hmem))
        rw [hx, Option.some.injEq] at hr
        rw [hr]
      exact congrArg some (if_congr hiff rfl rfl)

theorem Reachable.exists_registered (hw : w.Reachable) : ∃ log, w.Registered log := by
  obtain ⟨history, hform, rfl⟩ := hw
  exact ⟨_, .afterAll hform .empty .empty⟩

/-- Every solver that arises can be reset.  It is then as if it were new, and
    every constraint that it held is free. -/
theorem Reachable.reset_frees (hw : w.Reachable) (hs : w.solvers.get? s = some solver) :
    ∃ w', (reset s).run w = .ok () w' ∧ w.Frees s w' ∧
      w'.solvers.get? s = some (.ofSettings ⟨solver.tableau.epsilon, solver.reconcile⟩) := by
  obtain ⟨log, hregistered⟩ := hw.exists_registered
  have hrun := run_reset s w
  rw [hs] at hrun
  have hself := OrderedMap.get?_insert_self w.solvers s solver.clear
  refine ⟨_, hrun, ⟨hw.kept.getElem?_released hregistered hs,
    fun s' hne => OrderedMap.get?_insert_of_ne _ _ hne, rfl, fun c => ?_⟩, hself⟩
  simp only [holds]
  rw [hself]
  rfl

/-- Every solver that arises can be dropped, and every constraint that it held is
    then free. -/
theorem Reachable.dropSolver_frees (hw : w.Reachable) (hs : w.solvers.get? s = some solver) :
    ∃ w', (dropSolver s).run w = .ok () w' ∧ w.Frees s w' ∧ w'.solvers.get? s = none := by
  obtain ⟨log, hregistered⟩ := hw.exists_registered
  have hrun := run_dropSolver s w
  rw [hs] at hrun
  have hself := OrderedMap.get?_erase_self w.solvers s
  refine ⟨_, hrun, ⟨hw.kept.getElem?_released hregistered hs,
    fun s' hne => OrderedMap.get?_erase_of_ne _ hne, rfl, fun c => ?_⟩, hself⟩
  simp only [holds]
  rw [hself]

/-! ## After every history -/

/-- After every history owners and registers agree, and a solver lists the
    constraints it holds once each, in the order in which each was last added. -/
theorem owners_agree {history : List (Call α)} (hform : ∀ call ∈ history, call.Formulated) :
    (afterAll {} history).OwnersAgree ∧
      ∀ s solver, (afterAll {} history).solvers.get? s = some solver →
        solver.members.Nodup ∧
        solver.members = (latest s (({} : World α).allAdditions history)).filter
          ((afterAll {} history).holds s) := by
  have hkept : (afterAll {} history).Kept := Reachable.kept ⟨history, hform, rfl⟩
  have hregistered := Registered.afterAll hform .empty .empty
  refine ⟨hkept.ownersAgree hregistered, fun s solver hs => ⟨hkept.nodup_members hs, ?_⟩⟩
  refine (hregistered.ordered s solver hs).trans (List.filter_congr fun c _ => ?_)
  rw [holds_eq hs, Bool.eq_iff_iff, decide_eq_true_eq]
  exact Solver.holds_iff_mem_members.symm

open Exact

/-- Two solvers and a key ask for the same constraints, and the first solver
    lets go of one and takes it again. -/
def contested : List (Call Rat) :=
  [.newVariable none 0 false, .newConstraint (.limit 1 0 .atLeast 1),
    .newConstraint (.limit 1 0 .atLeast 2), .newConstraint (.limit 1 0 .atMost 9), .newKey,
    .newSolver ⟨0, true⟩, .newSolver ⟨0, true⟩, .attach 0 2, .addAll 0 [0, 1, 2], .add 1 0,
    .remove 0 0, .add 0 0, .detach 0 2, .add 1 2]

theorem formulated_contested : ∀ call ∈ contested, call.Formulated := by
  simp only [contested, List.forall_mem_cons]
  exact ⟨trivial, Relation.formulated_limit 1 0 .atLeast 1,
    Relation.formulated_limit 1 0 .atLeast 2, Relation.formulated_limit 1 0 .atMost 9, trivial,
    trivial, trivial, trivial, trivial, trivial, trivial, trivial, trivial, trivial, nofun⟩

/-- The constraint that was taken again comes last, and the one that the key let
    go belongs to the second solver. -/
theorem owners_agree_contested : (afterAll {} contested).OwnersAgree ∧
    (∃ solver, (afterAll {} contested).solvers.get? 0 = some solver ∧
      solver.members = [1, 0]) ∧
    (add 0 2).run (afterAll {} contested) = .error .attachedElsewhere (afterAll {} contested) := by
  obtain ⟨hagree, hordered⟩ := owners_agree formulated_contested
  have hsolver : ((afterAll {} contested).solvers.get? 0).isSome = true := by decide +kernel
  have hconstraint : ((afterAll {} contested).constraints[2]?).isSome = true := by decide +kernel
  obtain ⟨solver, hs⟩ := Option.isSome_iff_exists.mp hsolver
  obtain ⟨x, hx⟩ := Option.isSome_iff_exists.mp hconstraint
  refine ⟨hagree, ⟨solver, hs, (hordered 0 solver hs).2.trans (by decide +kernel)⟩, ?_⟩
  exact (hagree.elsewhere_iff 0 2 solver x hs hx).mpr
    (Or.inl ⟨1, by decide, by decide +kernel⟩)

end World

end LinearConstraints
