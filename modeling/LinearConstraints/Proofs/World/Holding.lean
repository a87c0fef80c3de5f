import LinearConstraints.Proofs.World.Registry
import Mathlib.Data.List.Dedup

/-! # Owners and registers keep step

    Who holds a constraint is noted twice, with the constraint and in the
    register of the solver.  Followed through every change, the two say the
    same: what belongs to a solver is in its register, and the register lists
    it in the order of the last additions that succeeded.  Solvers are numbered
    upwards, so that nothing belongs to one that is new. -/

namespace LinearConstraints

namespace Solver

variable {α : Type} {solver : Solver α} {c : ConstraintId}

/-- The constraints a solver holds, oldest first. -/
def members (solver : Solver α) : List ConstraintId := solver.constraints.map (·.1)

theorem holds_iff_mem_members [Scalar α] : solver.holds c = true ↔ c ∈ solver.members := by
  simp only [holds, marker?, members]
  induction solver.constraints with
  | nil => simp
  | cons a rest ih =>
      rw [List.lookup_cons, List.map_cons, List.mem_cons]
      by_cases hc : c = a.1
      · rw [beq_iff_eq.mpr hc]
        exact ⟨fun _ => Or.inl hc, fun _ => rfl⟩
      · rw [beq_eq_false_iff_ne.mpr hc]
        exact ih.trans (or_iff_right hc).symm

theorem members_register (marker : Symbol) (mentioned : List VariableId) (tableau : Tableau α) :
    (solver.register c marker mentioned tableau).members = solver.members ++ [c] := by
  simp only [members, register]
  rw [List.map_append]
  rfl

theorem members_unregister (mentioned : List VariableId) (tableau : Tableau α) :
    (solver.unregister c mentioned tableau).members = solver.members.filter (· ≠ c) := by
  simp only [members, unregister]
  rw [List.filter_map]
  rfl

end Solver

namespace World

/-! ## The last additions -/

/-- The constraints that were ever added to a solver, in the order in which each
    was added last. -/
def latest (s : SolverId) (log : List (SolverId × ConstraintId)) : List ConstraintId :=
  ((log.filter fun a => a.1 = s).map (·.2)).dedup

section Latest

variable {s : SolverId} {log log' : List (SolverId × ConstraintId)}

/-- What is added to other solvers does not matter. -/
theorem latest_append_of_ne (h : ∀ a ∈ log', a.1 ≠ s) : latest s (log ++ log') = latest s log := by
  have hnone : (log'.filter fun a => a.1 = s) = [] :=
    List.filter_eq_nil_iff.mpr fun a ha heq => h a ha (of_decide_eq_true heq)
  rw [latest, List.filter_append, hnone, List.append_nil, latest]

/-- What is added last comes last, and only there. -/
theorem dedup_concat (l : List ConstraintId) (c : ConstraintId) :
    (l ++ [c]).dedup = l.dedup.filter (· ≠ c) ++ [c] := by
  induction l with
  | nil => rfl
  | cons a l ih =>
      rw [List.cons_append, List.dedup_cons, List.dedup_cons, ih]
      by_cases hl : a ∈ l
      · rw [if_pos (List.mem_append_left _ hl), if_pos hl]
      · by_cases hc : a = c
        · rw [if_pos (List.mem_append_right _ (List.mem_singleton.mpr hc)), if_neg hl,
            List.filter_cons_of_neg (by simpa using hc)]
        · have hnot : a ∉ l ++ [c] := fun h =>
            (List.mem_append.mp h).elim hl fun h => hc (List.mem_singleton.mp h)
          rw [if_neg hnot, if_neg hl, List.filter_cons_of_pos (by simpa using hc),
            List.cons_append]

theorem latest_concat (c : ConstraintId) :
    latest s (log ++ [(s, c)]) = (latest s log).filter (· ≠ c) ++ [c] := by
  have hone : ([(s, c)].filter fun a => a.1 = s) = [(s, c)] :=
    List.filter_cons_of_pos (decide_eq_true rfl)
  rw [latest, List.filter_append, hone, List.map_append]
  exact dedup_concat _ c

end Latest

/-! ## What every change keeps -/

variable {α : Type}

/-- What owners and registers say of each other, given the additions so far. -/
structure Registered (w : World α) (log : List (SolverId × ConstraintId)) : Prop where
  /-- Solvers have been numbered. -/
  numbered : ∀ s solver, w.solvers.get? s = some solver → s < w.nextSolver
  /-- What belongs to a solver is in its register. -/
  held : ∀ (c : ConstraintId) x s, w.constraints[c]? = some x → x.owner? = some (.solver s) →
    ∃ solver, w.solvers.get? s = some solver ∧ c ∈ solver.members
  /-- The register is in the order of the last additions. -/
  ordered : ∀ s solver, w.solvers.get? s = some solver →
    solver.members = (latest s log).filter (· ∈ solver.members)

namespace Registered

variable {w w' : World α} {log log' : List (SolverId × ConstraintId)} {s : SolverId}
  {solver : Solver α}

theorem empty : ({} : World α).Registered [] where
  numbered _ _ h := nomatch h
  held _ _ _ h := nomatch h
  ordered _ _ h := nomatch h

/-- Solvers last while no constraint comes to belong to one. -/
theorem congr (h : w.Registered log)
    (hheld : ∀ (c : ConstraintId) x s, w'.constraints[c]? = some x →
      x.owner? = some (.solver s) → ∃ y, w.constraints[c]? = some y ∧ y.owner? = some (.solver s))
    (hsolvers : w'.solvers = w.solvers) (hnext : w'.nextSolver = w.nextSolver) :
    w'.Registered log where
  numbered s solver hs := hnext ▸ h.numbered s solver (hsolvers ▸ hs)
  held c x s hx howner := by
    obtain ⟨y, hy, hown⟩ := hheld c x s hx howner
    exact hsolvers ▸ h.held c y s hy hown
  ordered s solver hs := h.ordered s solver (hsolvers ▸ hs)

/-- One solver may change together with what belongs to it. -/
theorem setSolver (h : w.Registered log) (w' : World α) (hs : s < w'.nextSolver)
    (hnext : w.nextSolver ≤ w'.nextSolver)
    (hother : ∀ (c : ConstraintId) x s', s' ≠ s → w'.constraints[c]? = some x →
      x.owner? = some (.solver s') → ∃ y, w.constraints[c]? = some y ∧ y.owner? = some (.solver s'))
    (hheld : ∀ (c : ConstraintId) x, w'.constraints[c]? = some x →
      x.owner? = some (.solver s) → c ∈ solver.members)
    (hlog : ∀ s', s' ≠ s → latest s' log' = latest s' log)
    (hordered : solver.members = (latest s log').filter (· ∈ solver.members)) :
    Registered { w' with solvers := w.solvers.insert s solver } log' where
  numbered s' solver' hs' := by
    by_cases heq : s' = s
    · exact heq ▸ hs
    · have hold := (OrderedMap.get?_insert_of_ne w.solvers solver heq).symm.trans hs'
      exact Nat.lt_of_lt_of_le (h.numbered s' solver' hold) hnext
  held c x s' hx howner := by
    by_cases heq : s' = s
    · subst heq
      exact ⟨solver, OrderedMap.get?_insert_self .., hheld c x hx howner⟩
    · obtain ⟨y, hy, hown⟩ := hother c x s' heq hx howner
      obtain ⟨solver', hs', hmem⟩ := h.held c y s' hy hown
      exact ⟨solver', (OrderedMap.get?_insert_of_ne w.solvers solver heq).trans hs', hmem⟩
  ordered s' solver' hs' := by
    by_cases heq : s' = s
    · subst heq
      obtain rfl := Option.some.inj ((OrderedMap.get?_insert_self ..).symm.trans hs')
      exact hordered
    · have hold := (OrderedMap.get?_insert_of_ne w.solvers solver heq).symm.trans hs'
      rw [hlog s' heq]
      exact h.ordered s' solver' hold

/-! ### The changes one by one -/

theorem created (h : w.Registered log) (r : Relation α) :
    Registered { w with constraints := w.constraints.push ⟨r, none⟩ } log := by
  refine h.congr (fun c x s hx howner => ?_) rfl rfl
  rw [Array.getElem?_push] at hx
  split at hx
  · obtain rfl := Option.some.inj hx
    exact nomatch howner
  · exact ⟨x, hx, howner⟩

/-- Who does not get a constraint has no other constraints than before. -/
theorem owned_of_give {c d : ConstraintId} {x y : Constraint α} {owner? : Option Owner}
    {owner : Owner} (hx : w.constraints[c]? = some x) (hne : owner? ≠ some owner)
    (hy : (w.give c x owner?).constraints[d]? = some y) (howner : y.owner? = some owner) :
    d ≠ c ∧ w.constraints[d]? = some y := by
  have hd : d ≠ c := by
    rintro rfl
    rw [getElem?_give_self hx] at hy
    obtain rfl := Option.some.inj hy
    exact hne howner
  exact ⟨hd, by rwa [getElem?_give_of_ne w x _ hd] at hy⟩

theorem passed (h : w.Registered log) {c : ConstraintId} {x : Constraint α}
    (hx : w.constraints[c]? = some x) {owner? : Option Owner}
    (hnew : ∀ s, owner? ≠ some (.solver s)) : (w.give c x owner?).Registered log :=
  h.congr (fun _ y s hy howner => ⟨y, (owned_of_give hx (hnew s) hy howner).2, howner⟩) rfl rfl

theorem founded (h : w.Registered log) (settings : Settings α) :
    Registered { w with
      solvers := w.solvers.insert w.nextSolver (Solver.ofSettings settings)
      nextSolver := w.nextSolver + 1 } log := by
  refine h.setSolver { w with nextSolver := w.nextSolver + 1 } (Nat.lt_succ_self _)
    (Nat.le_succ _) (fun c x _ _ hx howner => ⟨x, hx, howner⟩) (fun c x hx howner => ?_)
    (fun _ _ => rfl) (List.filter_eq_nil_iff.mpr nofun).symm
  -- nothing belongs to a solver that has not been numbered
  obtain ⟨solver, hs, -⟩ := h.held c x _ hx howner
  exact absurd (h.numbered _ solver hs) (Nat.lt_irrefl _)

/-- What belongs to a solver is in the register of that solver. -/
theorem mem_members (h : w.Registered log) (hs : w.solvers.get? s = some solver)
    {c : ConstraintId} {x : Constraint α} (hx : w.constraints[c]? = some x)
    (howner : x.owner? = some (.solver s)) : c ∈ solver.members := by
  obtain ⟨other, hother, hmem⟩ := h.held c x s hx howner
  rw [hs, Option.some.injEq] at hother
  exact hother ▸ hmem

theorem mended (h : w.Registered log) (hs : w.solvers.get? s = some solver)
    (tableau : Tableau α) :
    Registered { w with solvers := w.solvers.insert s { solver with tableau := tableau } } log :=
  h.setSolver w (h.numbered s solver hs) (Nat.le_refl _)
    (fun _ x _ _ hx howner => ⟨x, hx, howner⟩) (fun _ _ => h.mem_members hs) (fun _ _ => rfl)
    (h.ordered s solver hs)

/-- What belongs to another solver is not released. -/
theorem owned_of_released {s' : SolverId} {c : ConstraintId} {x : Constraint α}
    (hx : (w.released s solver).constraints[c]? = some x) (howner : x.owner? = some (.solver s')) :
    w.constraints[c]? = some x := by
  obtain ⟨y, hy, -, hfree | rfl⟩ := exists_of_released hx
  · rw [hfree] at howner
    exact nomatch howner
  · exact hy

/-- Nothing belongs to a solver that has released what is in its register. -/
theorem not_owned_of_released (h : w.Registered log) (hs : w.solvers.get? s = some solver)
    {c : ConstraintId} {x : Constraint α} (hx : (w.released s solver).constraints[c]? = some x) :
    x.owner? ≠ some (.solver s) := by
  intro howner
  have hmem := h.mem_members hs (owned_of_released hx howner) howner
  have hold := owned_of_released hx howner
  rw [released, getElem?_foldl_release, hold, Option.map_some, if_pos ⟨hmem, howner⟩,
    Option.some.injEq] at hx
  rw [← hx] at howner
  cases howner

theorem cleared (h : w.Registered log) (hs : w.solvers.get? s = some solver) :
    Registered { w.released s solver with solvers := w.solvers.insert s solver.clear } log :=
  h.setSolver (w.released s solver) (h.numbered s solver hs) (Nat.le_refl _)
    (fun _ x _ _ hx howner => ⟨x, owned_of_released hx howner, howner⟩)
    (fun _ _ hx howner => absurd howner (h.not_owned_of_released hs hx)) (fun _ _ => rfl)
    (List.filter_eq_nil_iff.mpr nofun).symm

theorem dropped (h : w.Registered log) (hs : w.solvers.get? s = some solver) :
    Registered { w.released s solver with solvers := w.solvers.erase s } log where
  numbered s' solver' hs' := by
    have hne : s' ≠ s := by
      rintro rfl
      exact nomatch (OrderedMap.get?_erase_self ..).symm.trans hs'
    exact h.numbered s' solver' ((OrderedMap.get?_erase_of_ne w.solvers hne).symm.trans hs')
  held c x s' hx howner := by
    have hne : s' ≠ s := by
      rintro rfl
      exact h.not_owned_of_released hs hx howner
    obtain ⟨solver', hs', hmem⟩ := h.held c x s' (owned_of_released hx howner) howner
    exact ⟨solver', (OrderedMap.get?_erase_of_ne w.solvers hne).trans hs', hmem⟩
  ordered s' solver' hs' := by
    have hne : s' ≠ s := by
      rintro rfl
      exact nomatch (OrderedMap.get?_erase_self ..).symm.trans hs'
    exact h.ordered s' solver' ((OrderedMap.get?_erase_of_ne w.solvers hne).symm.trans hs')

variable [Scalar α]

theorem taken (h : w.Registered log) {c : ConstraintId} {x : Constraint α} {marker : Symbol}
    {tableau : Tableau α} (hs : w.solvers.get? s = some solver)
    (hx : w.constraints[c]? = some x) (hnew : c ∉ solver.members) :
    (w.withAdded s c solver x marker tableau).Registered (log ++ [(s, c)]) := by
  refine h.setSolver (w.give c x (some (.solver s))) (h.numbered s solver hs) (Nat.le_refl _)
    (fun d y s' hne hy howner => ⟨y, (owned_of_give hx ?_ hy howner).2, howner⟩)
    (fun d y hy howner => ?_) (fun s' hne => latest_append_of_ne ?_) ?_
  · intro heq
    exact hne (Owner.solver.inj (Option.some.inj heq)).symm
  · rw [Solver.members_register, List.mem_append, List.mem_singleton]
    by_cases hd : d = c
    · exact Or.inr hd
    · rw [getElem?_give_of_ne w x _ hd] at hy
      exact Or.inl (h.mem_members hs hy howner)
  · exact List.forall_mem_singleton.mpr hne.symm
  · have hsame : ((latest s log).filter (· ≠ c)).filter (· ∈ solver.members ++ [c])
        = solver.members := by
      rw [List.filter_filter]
      refine Eq.trans (List.filter_congr fun d _ => ?_) (h.ordered s solver hs).symm
      rw [← Bool.decide_and, decide_eq_decide, List.mem_append, List.mem_singleton]
      refine ⟨fun h => h.1.resolve_right h.2, fun h => ⟨Or.inl h, ?_⟩⟩
      rintro rfl
      exact hnew h
    rw [Solver.members_register, latest_concat, List.filter_append, hsame,
      List.filter_cons_of_pos (by simp), List.filter_nil]

theorem returned (h : w.Registered log) {c : ConstraintId} {x : Constraint α}
    {tableau : Tableau α} (hs : w.solvers.get? s = some solver)
    (hx : w.constraints[c]? = some x) :
    (w.withRemoved s c solver x tableau).Registered log := by
  have hnone : ∀ owner, (none : Option Owner) ≠ some owner := fun _ => nofun
  refine h.setSolver (w.give c x none) (h.numbered s solver hs) (Nat.le_refl _)
    (fun d y s' _ hy howner => ⟨y, (owned_of_give hx (hnone _) hy howner).2, howner⟩)
    (fun d y hy howner => ?_) (fun _ _ => rfl) ?_
  · obtain ⟨hd, hy⟩ := owned_of_give hx (hnone _) hy howner
    rw [Solver.members_unregister]
    exact List.mem_filter.mpr ⟨h.mem_members hs hy howner, decide_eq_true hd⟩
  · rw [Solver.members_unregister]
    refine (congrArg (List.filter (· ≠ c)) (h.ordered s solver hs)).trans ?_
    rw [List.filter_filter]
    refine List.filter_congr fun d _ => ?_
    rw [← Bool.decide_and, decide_eq_decide, List.mem_filter, decide_eq_true_eq]
    exact And.comm

/-- Every change keeps owners and registers in step. -/
theorem effect (h : w.Registered log) (hw : w.Kept) (heffect : Effect w log' w') :
    w'.Registered (log ++ log') := by
  induction heffect generalizing log with
  | quiet hconstraints hsolvers hnext _ =>
      rw [List.append_nil]
      exact h.congr (fun c x s hx howner => ⟨x, hconstraints ▸ hx, howner⟩) hsolvers hnext
  | created _ _ _ => exact (List.append_nil log).symm ▸ h.created _
  | founded _ settings => exact (List.append_nil log).symm ▸ h.founded settings
  | passed hx _ hnew => exact (List.append_nil log).symm ▸ h.passed hx hnew
  | taken hs hx hfree _ =>
      -- what is free is in no register
      obtain ⟨ledger, hk⟩ := hw.exists_ledger _ _ hs
      refine h.taken hs hx fun hmem => ?_
      obtain ⟨e, -, -, howned⟩ := hk.exists_entry (Solver.holds_iff_mem_members.mpr hmem)
      rw [hx, Option.some.injEq] at howned
      rw [howned] at hfree
      exact nomatch hfree
  | returned hs hx _ _ _ _ => exact (List.append_nil log).symm ▸ h.returned hs hx
  | mended hs _ => exact (List.append_nil log).symm ▸ h.mended hs _
  | cleared hs => exact (List.append_nil log).symm ▸ h.cleared hs
  | dropped hs => exact (List.append_nil log).symm ▸ h.dropped hs
  | andThen heffect _ ih ih' =>
      rw [← List.append_assoc]
      exact ih' (ih h hw) (hw.effect heffect)

/-- Every history keeps them in step. -/
theorem afterAll {history : List (Call α)} :
    ∀ {w : World α} {log : List (SolverId × ConstraintId)},
      (∀ call ∈ history, call.Formulated) → w.Registered log → w.Kept →
      (w.afterAll history).Registered (log ++ w.allAdditions history) := by
  induction history with
  | nil =>
      intro w log _ h _
      exact (List.append_nil log).symm ▸ h
  | cons call rest ih =>
      intro w log hform h hw
      have heffect := effect_after w (hform call (List.mem_cons_self ..))
      simp only [allAdditions]
      rw [← List.append_assoc]
      exact ih (fun c hc => hform c (List.mem_cons_of_mem _ hc)) (h.effect hw heffect)
        (hw.effect heffect)

end Registered

end World

end LinearConstraints
