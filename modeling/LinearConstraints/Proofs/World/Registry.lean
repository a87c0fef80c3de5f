import LinearConstraints.Proofs.Solver.Ledger
import LinearConstraints.Proofs.World.Effect

/-! # The solvers of a reachable world

    In every world that arises from calls, each solver has a ledger, and every
    constraint in it is one of the world that belongs to this solver.  A call
    changes at most one solver, and it touches no constraint that belongs to
    another one, so the ledgers of the others stay as they are.  Relations are
    only made over variables there are, and no variable ever goes. -/

namespace LinearConstraints

/-- Whether a relation can be made where there are so many variables. -/
structure Relation.Legal {α : Type} [Scalar α] (bound : Nat) (r : Relation α) : Prop where
  formulated : r.Formulated
  /-- Every variable is one there is. -/
  known : ∀ v ∈ r.vars, v < bound

namespace World

variable {α : Type} [Scalar α]

/-- Sides over known variables make a legal relation. -/
theorem legal_of_knows {w : World α} {r : Relation α} (hform : r.Formulated)
    (hlhs : w.knows r.lhs = true) (hrhs : w.knows r.rhs = true) :
    r.Legal w.vars.size where
  formulated := hform
  known v hv := by
    have hside : ∀ {e : Expression α}, w.knows e = true → e.mentions v = true →
        v < w.vars.size := by
      intro e he hm
      exact of_decide_eq_true (List.all_eq_true.mp he v (OrderedMap.mem_keys_iff.mpr hm))
    rcases LinearForm.mentions_addMultiple (OrderedMap.mem_keys_iff.mp hv) with hm | hm
    · exact hside hlhs hm
    · exact hside hrhs hm

/-- Whether a ledger is that of a solver in the world. -/
structure Keeps (w : World α) (s : SolverId) (solver : Solver α) (ledger : List (Entry α)) :
    Prop where
  arises : solver.Arises ledger
  /-- The constraints belong to the solver and say what the ledger says. -/
  owned : ∀ e ∈ ledger, w.constraints[e.constraint]? = some ⟨e.relation, some (.solver s)⟩

/-- What is true of every world that arises. -/
structure Kept (w : World α) : Prop where
  /-- Every relation is legal. -/
  legal : ∀ (c : ConstraintId) x, w.constraints[c]? = some x →
    x.relation.Legal w.vars.size
  /-- Every solver has a ledger. -/
  exists_ledger : ∀ s solver, w.solvers.get? s = some solver → ∃ ledger, w.Keeps s solver ledger

/-- A ledger lasts as long as the constraints of the solver do. -/
theorem Keeps.frame {w w' : World α} {s : SolverId} {solver : Solver α} {ledger : List (Entry α)}
    (h : w.Keeps s solver ledger)
    (hframe : ∀ (c : ConstraintId) x, w.constraints[c]? = some x → x.owner? = some (.solver s) →
      w'.constraints[c]? = some x) : w'.Keeps s solver ledger where
  arises := h.arises
  owned e he := hframe _ _ (h.owned e he) rfl

/-- What is in the ledger the solver holds. -/
theorem Keeps.holds {w : World α} {s : SolverId} {solver : Solver α} {ledger : List (Entry α)}
    (h : w.Keeps s solver ledger) {e : Entry α} (he : e ∈ ledger) :
    solver.marker? e.constraint = some e.marker ∧ solver.holds e.constraint = true := by
  have hm := h.arises.marker?_eq_some_iff.mpr ⟨e, he, rfl, rfl⟩
  exact ⟨hm, by rw [Solver.holds, hm]; rfl⟩

/-- A constraint that the solver holds is one of the ledger. -/
theorem Keeps.exists_entry {w : World α} {s : SolverId} {solver : Solver α}
    {ledger : List (Entry α)} (h : w.Keeps s solver ledger) {c : ConstraintId}
    (hc : solver.holds c = true) :
    ∃ e ∈ ledger, e.constraint = c ∧
      w.constraints[c]? = some ⟨e.relation, some (.solver s)⟩ := by
  obtain ⟨marker, hm⟩ := Option.isSome_iff_exists.mp hc
  obtain ⟨e, he, rfl, -⟩ := h.arises.marker?_eq_some_iff.mp hm
  exact ⟨e, he, rfl, h.owned e he⟩

/-- A constraint that has a marker is one of the ledger. -/
theorem Keeps.entry_of_marker {w : World α} {s : SolverId} {solver : Solver α}
    {ledger : List (Entry α)} (h : w.Keeps s solver ledger) {c : ConstraintId}
    {x : Constraint α} {marker : Symbol} (hx : w.constraints[c]? = some x)
    (hm : solver.marker? c = some marker) :
    ∃ e ∈ ledger, e.constraint = c ∧ e.marker = marker ∧
      x = ⟨e.relation, some (.solver s)⟩ := by
  obtain ⟨e, he, rfl, rfl⟩ := h.arises.marker?_eq_some_iff.mp hm
  have howned := h.owned e he
  rw [hx, Option.some.injEq] at howned
  exact ⟨e, he, rfl, rfl, howned⟩

/-- What is true of all constraints with their markers is true of the ledger. -/
theorem Keeps.forall_iff {w : World α} {s : SolverId} {solver : Solver α}
    {ledger : List (Entry α)} (h : w.Keeps s solver ledger) {P : Relation α → Symbol → Prop} :
    (∀ (c : ConstraintId) x marker, w.constraints[c]? = some x →
        solver.marker? c = some marker → P x.relation marker)
      ↔ ∀ e ∈ ledger, P e.relation e.marker := by
  constructor
  · intro hall e he
    exact hall e.constraint _ e.marker (h.owned e he) (h.holds he).1
  · intro hall c x marker hx hm
    obtain ⟨e, he, -, rfl, rfl⟩ := h.entry_of_marker hx hm
    exact hall e he

omit [Scalar α] in
theorem holds_eq {w : World α} {s : SolverId} {solver : Solver α}
    (hs : w.solvers.get? s = some solver) (c : ConstraintId) :
    w.holds s c = solver.holds c := by
  simp only [World.holds]
  rw [hs]

/-- What is true of all constraints that a solver holds is true of the ledger. -/
theorem Keeps.forall_holds_iff {w : World α} {s : SolverId} {solver : Solver α}
    {ledger : List (Entry α)} (h : w.Keeps s solver ledger)
    (hs : w.solvers.get? s = some solver) {P : Relation α → Prop} :
    (∀ (c : ConstraintId) x, w.constraints[c]? = some x → w.holds s c = true → P x.relation)
      ↔ ∀ e ∈ ledger, P e.relation := by
  constructor
  · intro hall e he
    exact hall e.constraint _ (h.owned e he) ((holds_eq hs _).trans (h.holds he).2)
  · intro hall c x hx hc
    rw [holds_eq hs] at hc
    obtain ⟨e, he, -, hx'⟩ := h.exists_entry hc
    rw [hx, Option.some.injEq] at hx'
    rw [hx']
    exact hall e he

/-! ## Changes of constraints -/

omit [Scalar α] in
theorem getElem?_give_of_ne (w : World α) {c d : ConstraintId} (x : Constraint α)
    (owner? : Option Owner) (h : d ≠ c) :
    (w.give c x owner?).constraints[d]? = w.constraints[d]? :=
  Array.getElem?_setIfInBounds_ne (Ne.symm h)

omit [Scalar α] in
/-- A constraint that changes hands is none of those who do not hold it. -/
theorem give_frame {w : World α} {c d : ConstraintId} {x y : Constraint α} {owner? : Option Owner}
    {s : SolverId} (hx : w.constraints[c]? = some x) (hs : x.owner? ≠ some (.solver s))
    (hy : w.constraints[d]? = some y) (hown : y.owner? = some (.solver s)) :
    (w.give c x owner?).constraints[d]? = some y := by
  have hne : d ≠ c := by
    rintro rfl
    rw [hx, Option.some.injEq] at hy
    exact hs (hy ▸ hown)
  rw [getElem?_give_of_ne w x owner? hne, hy]

omit [Scalar α] in
/-- Relations last when constraints change hands. -/
theorem relation_give {w : World α} {P : Relation α → Prop}
    (h : ∀ (c : ConstraintId) x, w.constraints[c]? = some x → P x.relation)
    {c : ConstraintId} {x : Constraint α} (hx : w.constraints[c]? = some x)
    (owner? : Option Owner) :
    ∀ (d : ConstraintId) y, (w.give c x owner?).constraints[d]? = some y →
      P y.relation := by
  intro d y hy
  by_cases hd : d = c
  · subst hd
    rw [getElem?_give_self hx] at hy
    obtain rfl := Option.some.inj hy
    exact h d x hx
  · rw [getElem?_give_of_ne w x owner? hd] at hy
    exact h d y hy

omit [Scalar α] in
/-- Releasing a constraint makes it free if it belonged to the owner, and leaves
    all others alone. -/
theorem getElem?_release (owner : Owner) (constraints : Array (Constraint α))
    (c d : ConstraintId) :
    (release owner constraints c)[d]? = constraints[d]?.map fun x =>
      if d = c ∧ x.owner? = some owner then { x with owner? := none } else x := by
  have hsame : c ≠ d → (constraints[d]?.map fun x =>
      if d = c ∧ x.owner? = some owner then { x with owner? := none } else x)
        = constraints[d]? := by
    intro hd
    cases constraints[d]? with
    | none => rfl
    | some y => exact congrArg some (if_neg fun h => hd h.1.symm)
  simp only [release]
  by_cases hd : c = d
  · subst hd
    cases hx : constraints[c]? with
    | none => exact hx
    | some x =>
        simp only [Option.map_some, true_and]
        by_cases hown : x.owner? = some owner
        · obtain ⟨hlt, -⟩ := Array.getElem?_eq_some_iff.mp hx
          rw [if_pos hown, if_pos hown, Array.getElem?_setIfInBounds_self_of_lt hlt]
        · rw [if_neg hown, if_neg hown, hx]
  · rw [hsame hd]
    cases constraints[c]? with
    | none => rfl
    | some x =>
        simp only
        split
        · exact Array.getElem?_setIfInBounds_ne hd
        · rfl

omit [Scalar α] in
/-- Releasing a list of constraints makes those of the owner free. -/
theorem getElem?_foldl_release {owner : Owner} (d : ConstraintId) :
    ∀ (ids : List ConstraintId) (constraints : Array (Constraint α)),
      (ids.foldl (release owner) constraints)[d]? = constraints[d]?.map fun x =>
        if d ∈ ids ∧ x.owner? = some owner then { x with owner? := none } else x := by
  intro ids
  induction ids with
  | nil =>
      intro constraints
      simp
  | cons c rest ih =>
      intro constraints
      rw [List.foldl_cons, ih, getElem?_release]
      cases constraints[d]? with
      | none => rfl
      | some x =>
          simp only [Option.map_some, List.mem_cons]
          by_cases hd : d = c ∧ x.owner? = some owner
          · rw [if_pos hd, if_neg (fun h => nomatch h.2), if_pos ⟨Or.inl hd.1, hd.2⟩]
          · rw [if_neg hd]
            refine congrArg some (if_congr (and_congr_left fun hown => ?_) rfl rfl)
            exact (or_iff_right fun heq => hd ⟨heq, hown⟩).symm

omit [Scalar α] in
/-- What is left of a constraint when a solver has given its own back. -/
theorem exists_of_released {w : World α} {s : SolverId} {solver : Solver α} {c : ConstraintId}
    {x : Constraint α} (h : (w.released s solver).constraints[c]? = some x) :
    ∃ y, w.constraints[c]? = some y ∧ y.relation = x.relation ∧
      (x.owner? = none ∨ x = y) := by
  rw [released, getElem?_foldl_release] at h
  obtain ⟨y, hy, rfl⟩ := Option.map_eq_some_iff.mp h
  refine ⟨y, hy, ?_⟩
  split
  · exact ⟨rfl, Or.inl rfl⟩
  · exact ⟨rfl, Or.inr rfl⟩

/-- The ledger of a solver grows with a constraint that is taken. -/
theorem Keeps.add {w : World α} {s : SolverId} {solver : Solver α} {ledger : List (Entry α)}
    (h : w.Keeps s solver ledger) {c : ConstraintId} {x : Constraint α}
    (hform : x.relation.Formulated) (hx : w.constraints[c]? = some x) (hfree : x.owner? = none)
    {editable : VariableId → Bool} {marker : Symbol} {tableau : Tableau α}
    (himpose : solver.tableau.impose editable x.relation = .ok (marker, tableau)) :
    (w.give c x (some (.solver s))).Keeps s (solver.register c marker x.relation.vars tableau)
      (ledger ++ [⟨c, x.relation, marker⟩]) := by
  have hnew : ∀ e ∈ ledger, e.constraint ≠ c := by
    rintro e he rfl
    have howned := h.owned e he
    rw [hx, Option.some.injEq] at howned
    rw [howned] at hfree
    exact nomatch hfree
  refine ⟨.add h.arises hform hnew himpose, List.forall_mem_append.mpr
    ⟨fun e he => ?_, List.forall_mem_singleton.mpr ?_⟩⟩
  · rw [getElem?_give_of_ne w x _ (hnew e he)]
    exact h.owned e he
  · exact getElem?_give_self hx _

/-- It shrinks with one that is given back. -/
theorem Keeps.remove {w : World α} {s : SolverId} {solver : Solver α} {ledger : List (Entry α)}
    (h : w.Keeps s solver ledger) {e : Entry α} (he : e ∈ ledger) (x : Constraint α)
    {withdrawn tableau : Tableau α}
    (hwithdraw : solver.tableau.withdraw e.marker = .ok withdrawn)
    (hrepair : withdrawn.repair = .ok tableau) :
    (w.give e.constraint x none).Keeps s
      (solver.unregister e.constraint e.relation.vars tableau)
      (ledger.filter fun d => d.constraint ≠ e.constraint) := by
  refine ⟨.remove h.arises he hwithdraw hrepair, fun d hd => ?_⟩
  obtain ⟨hd, hne⟩ := List.mem_filter.mp hd
  rw [getElem?_give_of_ne w x _ (of_decide_eq_true hne)]
  exact h.owned d hd

/-! ## What every call keeps -/

namespace Kept

variable {w w' : World α}

theorem formulated (h : w.Kept) (c : ConstraintId) (x : Constraint α)
    (hx : w.constraints[c]? = some x) : x.relation.Formulated :=
  (h.legal c x hx).formulated

theorem empty : ({} : World α).Kept where
  legal _ _ h := nomatch h
  exists_ledger _ _ h := nomatch h

/-- What variables are worth does not matter, nor do the numbers to be given
    next. -/
theorem congr (h : w.Kept) (hvars : w.vars.size ≤ w'.vars.size)
    (hconstraints : w'.constraints = w.constraints) (hsolvers : w'.solvers = w.solvers) :
    w'.Kept where
  legal c x hx := by
    obtain ⟨hform, hknown⟩ := h.legal c x (hconstraints ▸ hx)
    exact ⟨hform, fun v hv => Nat.lt_of_lt_of_le (hknown v hv) hvars⟩
  exists_ledger s solver hs := by
    obtain ⟨ledger, hk⟩ := h.exists_ledger s solver (hsolvers ▸ hs)
    exact ⟨ledger, hk.frame fun c x hx _ => hconstraints ▸ hx⟩

theorem created (h : w.Kept) {relation : Relation α}
    (hlegal : relation.Legal w.vars.size) :
    Kept { w with constraints := w.constraints.push ⟨relation, none⟩ } where
  legal c x hx := by
    rw [Array.getElem?_push] at hx
    split at hx
    · obtain rfl := Option.some.inj hx
      exact hlegal
    · exact h.legal c x hx
  exists_ledger s solver hs := by
    obtain ⟨ledger, hk⟩ := h.exists_ledger s solver hs
    refine ⟨ledger, hk.frame fun c x hx _ => ?_⟩
    obtain ⟨hlt, -⟩ := Array.getElem?_eq_some_iff.mp hx
    rw [Array.getElem?_push, if_neg (Nat.ne_of_lt hlt), hx]

/-- A constraint that no solver holds may change hands between the others. -/
theorem passed (h : w.Kept) {c : ConstraintId} {x : Constraint α}
    (hx : w.constraints[c]? = some x) (hnone : ∀ s, x.owner? ≠ some (.solver s))
    (owner? : Option Owner) : (w.give c x owner?).Kept where
  legal := relation_give h.legal hx owner?
  exists_ledger s solver hs := by
    obtain ⟨ledger, hk⟩ := h.exists_ledger s solver hs
    exact ⟨ledger, hk.frame fun _ _ hy hown => give_frame hx (hnone s) hy hown⟩

/-- One solver may change together with what belongs to it. -/
theorem setSolver (h : w.Kept) (w' : World α)
    (hlegal : ∀ (c : ConstraintId) x, w'.constraints[c]? = some x →
      x.relation.Legal w'.vars.size)
    {s : SolverId} (hframe : ∀ s', s' ≠ s → ∀ (c : ConstraintId) x, w.constraints[c]? = some x →
      x.owner? = some (.solver s') → w'.constraints[c]? = some x)
    {solver : Solver α} {ledger : List (Entry α)} (hk : w'.Keeps s solver ledger) :
    Kept { w' with solvers := w.solvers.insert s solver } where
  legal := hlegal
  exists_ledger s' solver' hs' := by
    by_cases hs : s' = s
    · subst hs
      have hsame := (OrderedMap.get?_insert_self ..).symm.trans hs'
      obtain rfl := Option.some.inj hsame
      exact ⟨ledger, hk.frame fun _ _ hx _ => hx⟩
    · have hold := (OrderedMap.get?_insert_of_ne w.solvers solver hs).symm.trans hs'
      obtain ⟨ledger', hk'⟩ := h.exists_ledger s' solver' hold
      exact ⟨ledger', hk'.frame (hframe s' hs)⟩

theorem founded (h : w.Kept) (settings : Settings α) :
    Kept { w with
      solvers := w.solvers.insert w.nextSolver (Solver.ofSettings settings)
      nextSolver := w.nextSolver + 1 } :=
  (h.setSolver w h.legal (fun _ _ _ _ hx _ => hx)
    ⟨.new settings, fun _ he => nomatch he⟩).congr (Nat.le_refl _) rfl rfl

theorem taken (h : w.Kept) {s : SolverId} {c : ConstraintId} {solver : Solver α}
    {x : Constraint α} {marker : Symbol} {tableau : Tableau α}
    (hs : w.solvers.get? s = some solver) (hx : w.constraints[c]? = some x)
    (hfree : x.owner? = none)
    (himpose : solver.tableau.impose w.isEditable x.relation = .ok (marker, tableau)) :
    (w.withAdded s c solver x marker tableau).Kept := by
  obtain ⟨ledger, hk⟩ := h.exists_ledger s solver hs
  have hnone : ∀ s', x.owner? ≠ some (.solver s') := by
    intro s' howner
    rw [hfree] at howner
    exact nomatch howner
  exact h.setSolver (w.give c x (some (.solver s))) (relation_give h.legal hx _)
    (fun s' _ d y hy hown => give_frame hx (hnone s') hy hown)
    (hk.add (h.formulated c x hx) hx hfree himpose)

theorem returned (h : w.Kept) {s : SolverId} {c : ConstraintId} {solver : Solver α}
    {x : Constraint α} {marker : Symbol} {withdrawn tableau : Tableau α}
    (hs : w.solvers.get? s = some solver) (hx : w.constraints[c]? = some x)
    (hm : solver.marker? c = some marker) (howner : x.owner? = some (.solver s))
    (hwithdraw : solver.tableau.withdraw marker = .ok withdrawn)
    (hrepair : withdrawn.repair = .ok tableau) : (w.withRemoved s c solver x tableau).Kept := by
  obtain ⟨ledger, hk⟩ := h.exists_ledger s solver hs
  obtain ⟨e, he, rfl, rfl, hentry⟩ := hk.entry_of_marker hx hm
  have hrelation : x.relation = e.relation := by rw [hentry]
  simp only [withRemoved]
  rw [hrelation]
  refine h.setSolver (w.give e.constraint x none) (relation_give h.legal hx _)
    (fun s' hne d y hy hown => give_frame hx ?_ hy hown) (hk.remove he x hwithdraw hrepair)
  rw [howner]
  intro heq
  exact hne (Owner.solver.inj (Option.some.inj heq)).symm

theorem mended (h : w.Kept) {s : SolverId} {solver : Solver α} {tableau : Tableau α}
    (hs : w.solvers.get? s = some solver) (hrepair : solver.tableau.repair = .ok tableau) :
    Kept { w with solvers := w.solvers.insert s { solver with tableau := tableau } } := by
  obtain ⟨ledger, hk⟩ := h.exists_ledger s solver hs
  exact h.setSolver w h.legal (fun _ _ _ _ hx _ => hx) ⟨.repair hk.arises hrepair, hk.owned⟩

omit [Scalar α] in
/-- What is released was no other solver's. -/
theorem released_frame {s s' : SolverId} (solver : Solver α) (hne : s' ≠ s) :
    ∀ (c : ConstraintId) x, w.constraints[c]? = some x → x.owner? = some (.solver s') →
      (w.released s solver).constraints[c]? = some x := by
  intro c x hx hown
  rw [released, getElem?_foldl_release, hx, Option.map_some, if_neg]
  rintro ⟨-, heq⟩
  rw [hown] at heq
  exact hne (Owner.solver.inj (Option.some.inj heq))

theorem legal_released (h : w.Kept) (s : SolverId) (solver : Solver α) :
    ∀ (c : ConstraintId) x, (w.released s solver).constraints[c]? = some x →
      x.relation.Legal w.vars.size := by
  intro c x hx
  obtain ⟨y, hy, hrelation, -⟩ := exists_of_released hx
  rw [← hrelation]
  exact h.legal c y hy

theorem cleared (h : w.Kept) {s : SolverId} {solver : Solver α}
    (hs : w.solvers.get? s = some solver) :
    Kept { w.released s solver with solvers := w.solvers.insert s solver.clear } := by
  obtain ⟨ledger, hk⟩ := h.exists_ledger s solver hs
  exact h.setSolver _ (h.legal_released s solver)
    (fun s' hne => released_frame solver hne) ⟨.clear hk.arises, fun _ he => nomatch he⟩

theorem dropped (h : w.Kept) (s : SolverId) (solver : Solver α) :
    Kept { w.released s solver with solvers := w.solvers.erase s } where
  legal := h.legal_released s solver
  exists_ledger s' solver' hs' := by
    have hne : s' ≠ s := by
      rintro rfl
      exact nomatch (OrderedMap.get?_erase_self ..).symm.trans hs'
    have hold := (OrderedMap.get?_erase_of_ne w.solvers hne).symm.trans hs'
    obtain ⟨ledger', hk'⟩ := h.exists_ledger s' solver' hold
    exact ⟨ledger', hk'.frame (released_frame solver hne)⟩

/-- Every change keeps what is true of every world that arises. -/
theorem effect {log : List (SolverId × ConstraintId)} (h : w.Kept) (heffect : Effect w log w') :
    w'.Kept := by
  induction heffect with
  | quiet hconstraints hsolvers _ hvars => exact h.congr hvars hconstraints hsolvers
  | created hform hlhs hrhs => exact h.created (legal_of_knows hform hlhs hrhs)
  | founded _ settings => exact h.founded settings
  | passed hx hold _ => exact h.passed hx hold _
  | taken hs hx hfree himpose => exact h.taken hs hx hfree himpose
  | returned hs hx hm howner hwithdraw hrepair =>
      exact h.returned hs hx hm howner hwithdraw hrepair
  | mended hs hrepair => exact h.mended hs hrepair
  | cleared hs => exact h.cleared hs
  | dropped _ => exact h.dropped _ _
  | andThen _ _ ih ih' => exact ih' (ih h)

theorem add (h : w.Kept) {s : SolverId} {c : ConstraintId}
    (hadd : (add s c).run w = .ok () w') : w'.Kept :=
  h.effect (effect_add hadd)

/-- So does every call. -/
theorem after (h : w.Kept) {call : Call α} (hcall : call.Formulated) : (w.after call).Kept :=
  h.effect (effect_after w hcall)

end Kept

/-- A call leads from a world that arises to another one. -/
theorem Reachable.after {w : World α} (h : w.Reachable) {call : Call α}
    (hcall : call.Formulated) : (w.after call).Reachable := by
  obtain ⟨history, hform, rfl⟩ := h
  refine ⟨history ++ [call], ?_, ?_⟩
  · exact List.forall_mem_append.mpr ⟨hform, List.forall_mem_singleton.mpr hcall⟩
  · simp only [afterAll]
    rw [List.foldl_append]
    rfl

theorem Reachable.afterAll {w : World α} (h : w.Reachable) {history : List (Call α)}
    (hform : ∀ call ∈ history, call.Formulated) : (w.afterAll history).Reachable :=
  List.foldlRecOn (motive := Reachable) history World.after h
    fun _ hw call hmem => hw.after (hform call hmem)

/-- A call that succeeds leaves the world it says. -/
theorem after_of_ok {w w' : World α} (call : Call α) (h : call.make.run w = .ok () w') :
    w.after call = w' := by
  simp only [World.after]
  rw [h]

theorem after_of_error {w w' : World α} (call : Call α) {reason : Refusal α}
    (h : call.make.run w = .error reason w') : w.after call = w' := by
  simp only [World.after]
  rw [h]

/-- Every world that arises has ledgers for its solvers. -/
theorem Reachable.kept {w : World α} (h : w.Reachable) : w.Kept := by
  obtain ⟨history, hform, rfl⟩ := h
  refine List.foldlRecOn (motive := Kept) history World.after Kept.empty ?_
  intro w hw call hmem
  exact hw.after (hform call hmem)

end World

end LinearConstraints
