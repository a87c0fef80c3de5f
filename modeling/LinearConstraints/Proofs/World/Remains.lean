import LinearConstraints.Proofs.World.Outcome

/-! # What remains of the constraints of a solver

    Along a history a solver stays complete, with the marker of each of its
    constraints in the tableau and one row for each, up to the first removal
    that severs the marker of another constraint.  When that constraint is
    removed in its turn its marker occurs nowhere, nothing is taken away, and
    a row stays behind that belongs to nobody: a stray.  The rows of a solver
    are always those of its constraints and the strays, so an emptied solver
    is empty if and only if there is none.

    At the tolerance of double precision removals do sever markers. -/

namespace LinearConstraints.World

variable {α : Type} [Scalar α] {w w' : World α} {s : SolverId} {call : Call α}
  {solver solver' : Solver α}

/-- Whether a solver, if it exists, has the marker of each of its constraints in
    its tableau and one row for each. -/
def Complete (w : World α) (s : SolverId) : Prop :=
  ∀ solver, w.solvers.get? s = some solver → solver.Complete

/-- The number of strays after a call, given the number before it. -/
def stray (w : World α) (s : SolverId) (n : Nat) (call : Call α) : Nat :=
  if w.renews s call then 0 else if w.strands s call then n + 1 else n

/-- The number of strays after a history, given the number before it. -/
def strays (s : SolverId) (w : World α) (n : Nat) : List (Call α) → Nat
  | [] => n
  | call :: rest => strays s (w.after call) (w.stray s n call) rest

/-! ## One call -/

/-- A solver of which a marker is severed is there before and after, and is not
    started anew. -/
theorem exists_of_severs (h : w.Severs s call) :
    w.renews s call = false ∧ ∃ solver', (w.after call).solvers.get? s = some solver' := by
  cases call with
  | remove s' c =>
      obtain ⟨rfl, hdone, -⟩ := h
      obtain ⟨next, hrun, hafter⟩ := exists_of_refusal?_eq_none hdone
      obtain ⟨solver, x, marker, withdrawn, tableau, -, -, -, -, -, -, rfl⟩ :=
        exists_of_remove hrun
      rw [hafter]
      exact ⟨rfl, _, OrderedMap.get?_insert_self ..⟩
  | _ => exact h.elim

/-- A complete solver stays complete unless the call severs a marker. -/
theorem Kept.complete_after_iff (hw : w.Kept) (hsteady : w.Steady) (hc : w.Complete s) :
    (w.after call).Complete s ↔ ¬ w.Severs s call := by
  constructor
  · intro hc' hsevers
    obtain ⟨hgoes, solver', hs'⟩ := exists_of_severs hsevers
    cases hw.leaves hsteady hs' with
    | anew hrenews _ _ _ =>
        exact absurd (hgoes.symm.trans hrenews) Bool.false_ne_true
    | sustained _ _ hnot _ _ => exact hnot hsevers
    | released hcall _ hs hm hreleases =>
        subst hcall
        obtain ⟨-, -, solver, marker, a, hs₁, hm₁, ha, hne, hlost⟩ := hsevers
        obtain rfl := Option.some.inj (hs.symm.trans hs₁)
        obtain rfl := Option.some.inj (hm.symm.trans hm₁)
        exact (hreleases.complete_iff (hc _ hs)).mp (hc' _ hs') ⟨a, ha, hne, hlost⟩
  · intro hnot solver' hs'
    cases hw.leaves hsteady hs' with
    | anew _ hconstraints hsize _ =>
        refine ⟨fun a ha => ?_, ?_⟩
        · rw [hconstraints] at ha
          exact absurd ha List.not_mem_nil
        · rw [hsize, Solver.size, hconstraints]
          rfl
    | released hcall hdone hs hm hreleases =>
        subst hcall
        refine (hreleases.complete_iff (hc _ hs)).mpr ?_
        rintro ⟨a, ha, hne, hlost⟩
        apply hnot
        exact ⟨rfl, hdone, _, _, a, hs, hm, ha, hne, hlost⟩
    | sustained _ _ _ hs hsustains => exact hsustains.complete (hc _ hs)

/-- The rows of a solver are those of its constraints and the strays. -/
theorem Kept.size_after (hw : w.Kept) (hsteady : w.Steady) {n : Nat}
    (hn : ∀ solver, w.solvers.get? s = some solver → solver.tableau.size = solver.size + n) :
    ∀ solver', (w.after call).solvers.get? s = some solver' →
      solver'.tableau.size = solver'.size + w.stray s n call := by
  intro solver' hs'
  cases hw.leaves hsteady hs' with
  | anew hrenews hconstraints hsize _ =>
      rw [stray, if_pos hrenews, hsize, Solver.size, hconstraints]
      rfl
  | @released c solver marker hcall hdone hs hm hreleases =>
      subst hcall
      have hstrands : w.strands s (.remove s c) = !solver.tableau.mentions marker := by
        rw [strands, decide_eq_true (rfl : s = s), hdone, hs, Option.any_some, hm, Option.any_some]
        rfl
      have hrenews : ¬ w.renews s (.remove s c) = true := Bool.false_ne_true
      rw [stray, if_neg hrenews, hstrands]
      have := hn _ hs
      have := hreleases.size_eq
      cases hmentions : solver.tableau.mentions marker with
      | true =>
          have := hreleases.size_of_mentions hmentions
          rw [Bool.not_true, if_neg Bool.false_ne_true]
          omega
      | false =>
          have := hreleases.size_of_not_mentions (Bool.eq_false_iff.mp hmentions)
          rw [Bool.not_false, if_pos rfl]
          omega
  | sustained hrenews hstrands _ hs hsustains =>
      rw [stray, if_neg (Bool.eq_false_iff.mp hrenews), if_neg (Bool.eq_false_iff.mp hstrands)]
      have := hn _ hs
      have := hsustains.size_eq
      omega

/-! ## Histories -/

theorem steady_afterAll {history : List (Call α)} :
    ∀ {w : World α}, w.Kept → w.Steady → (∀ call ∈ history, call.Formulated) →
      (∀ settings, Call.newSolver settings ∈ history → Scalar.Steady settings.epsilon) →
      (afterAll w history).Steady := by
  induction history with
  | nil => exact fun _ hsteady _ _ => hsteady
  | cons call rest ih =>
      intro w hw hsteady hform hsettings
      refine ih (hw.after (hform call (List.mem_cons_self ..))) ?_
        (fun c hc => hform c (List.mem_cons_of_mem _ hc))
        fun settings hc => hsettings settings (List.mem_cons_of_mem _ hc)
      exact hw.steady_after hsteady fun settings hc =>
        hsettings settings (hc ▸ List.mem_cons_self ..)

theorem size_afterAll {history : List (Call α)} :
    ∀ {w : World α} {n : Nat}, w.Kept → w.Steady → (∀ call ∈ history, call.Formulated) →
      (∀ settings, Call.newSolver settings ∈ history → Scalar.Steady settings.epsilon) →
      (∀ solver, w.solvers.get? s = some solver → solver.tableau.size = solver.size + n) →
      ∀ solver, (afterAll w history).solvers.get? s = some solver →
        solver.tableau.size = solver.size + strays s w n history := by
  induction history with
  | nil => exact fun _ _ _ _ hn => hn
  | cons call rest ih =>
      intro w n hw hsteady hform hsettings hn
      refine ih (hw.after (hform call (List.mem_cons_self ..))) ?_
        (fun c hc => hform c (List.mem_cons_of_mem _ hc))
        (fun settings hc => hsettings settings (List.mem_cons_of_mem _ hc))
        (hw.size_after hsteady hn)
      exact hw.steady_after hsteady fun settings hc =>
        hsettings settings (hc ▸ List.mem_cons_self ..)

theorem afterAll_append (w : World α) (past : List (Call α)) (call : Call α) :
    afterAll w (past ++ [call]) = (afterAll w past).after call :=
  List.foldl_append

/-- A solver is complete all along a history if and only if no removal severs a
    marker; its rows are those of its constraints and the strays; and once it
    has no constraints left it is empty if and only if there are no strays. -/
theorem complete_iff_not_severs {history : List (Call α)}
    (hform : ∀ call ∈ history, call.Formulated)
    (hsettings : ∀ settings, Call.newSolver settings ∈ history →
      Scalar.Steady settings.epsilon) (s : SolverId) :
    ((∀ past, past <+: history → (afterAll {} past).Complete s) ↔
        ∀ past call, past ++ [call] <+: history → ¬ (afterAll {} past).Severs s call) ∧
      ∀ solver, (afterAll {} history).solvers.get? s = some solver →
        solver.tableau.size = solver.size + strays s {} 0 history ∧
          (solver.size = 0 → (solver.tableau.isEmpty = true ↔ strays s {} 0 history = 0)) := by
  have hstart : ∀ {s : SolverId} {solver : Solver α},
      ¬ ({} : World α).solvers.get? s = some solver := fun h => nomatch h
  have hsteady : ({} : World α).Steady := fun _ _ h => absurd h hstart
  have hpast : ∀ {past}, past <+: history →
      (afterAll {} past : World α).Kept ∧ (afterAll {} past : World α).Steady := by
    intro past hbegins
    have hpastform : ∀ call ∈ past, call.Formulated :=
      fun call hc => hform call (hbegins.subset hc)
    exact ⟨Reachable.kept ⟨past, hpastform, rfl⟩,
      steady_afterAll .empty hsteady hpastform fun settings hc =>
        hsettings settings (hbegins.subset hc)⟩
  refine ⟨⟨fun hall past call hbegins => ?_, fun hnot past => ?_⟩, fun solver hs => ?_⟩
  · have hbefore : past <+: history := (List.prefix_append past [call]).trans hbegins
    obtain ⟨hkept, hsteady⟩ := hpast hbefore
    refine (hkept.complete_after_iff hsteady (hall past hbefore)).mp ?_
    rw [← afterAll_append]
    exact hall _ hbegins
  · -- by induction on the past, one call after the other
    induction past using List.reverseRecOn with
    | nil => exact fun _ _ h => absurd h hstart
    | append_singleton past call ih =>
        intro hbegins
        have hbefore : past <+: history := (List.prefix_append past [call]).trans hbegins
        obtain ⟨hkept, hsteady⟩ := hpast hbefore
        rw [afterAll_append]
        exact (hkept.complete_after_iff hsteady (ih hbefore)).mpr (hnot past call hbegins)
  · have hsize : solver.tableau.size = solver.size + strays s {} 0 history :=
      size_afterAll .empty hsteady hform hsettings (fun _ h => absurd h hstart) solver hs
    refine ⟨hsize, fun hempty => ?_⟩
    have hrows : solver.tableau.isEmpty = true ↔ solver.tableau.size = 0 :=
      List.isEmpty_iff_length_eq_zero
    rw [hrows, hsize, hempty, Nat.zero_add]

/-! ## A marker below the tolerance -/

section AnyTolerance

variable [Tolerance]

/-- Fractions are steady where one is no rounding noise. -/
theorem steady_of_tolerance (htol : (Scalar.tolerance : Rat) ≤ 1) {epsilon : Rat}
    (heps : 0 ≤ epsilon) : Scalar.Steady epsilon := by
  have hone : (Scalar.tolerance : Rat) ≤ |1| := by rwa [abs_one]
  have hneg : (Scalar.tolerance : Rat) ≤ |(-1)| := by rwa [abs_neg, abs_one]
  refine ⟨Tableau.negligible_eq_false one_ne_zero hone,
    Tableau.negligible_eq_false (neg_ne_zero.mpr one_ne_zero) hneg, fun direction hlt => ?_⟩
  cases direction with
  | up => exact absurd hlt (not_lt.mpr (neg_nonpos.mpr heps))
  | down =>
      have hlt : -(0 : Rat) < -epsilon := hlt
      linarith

end AnyTolerance

open Thresholded

/-- Two variables are opposite, which is said in large units. -/
def opposite : Relation Rat :=
  ⟨Expression.plus (Expression.scale 1000000000 (Expression.ofVariable 0))
      (Expression.scale 1000000000 (Expression.ofVariable 1)), .equal, Expression.ofNumber 0⟩

theorem formulated_opposite : opposite.Formulated :=
  ⟨⟨.plus (.scale 1000000000 (.var 0)) (.scale 1000000000 (.var 1)), rfl⟩, ⟨.number 0, rfl⟩⟩

/-- The second of two opposite variables is fixed at zero, and set free again. -/
def faint : List (Call Rat) :=
  [.newVariable none 0 false, .newVariable none 0 false, .newConstraint opposite,
    .newConstraint (.limit 1 1 .equal 0), .newSolver Settings.standard, .add 0 0, .add 0 1,
    .remove 0 1]

theorem formulated_faint : ∀ call ∈ faint ++ [.remove 0 0], call.Formulated := by
  simp only [faint, List.cons_append, List.nil_append, List.forall_mem_cons]
  exact ⟨trivial, trivial, formulated_opposite, Relation.formulated_limit 1 1 _ 0, trivial, trivial,
    trivial, trivial, trivial, nofun⟩

/-- Then the marker of the first constraint occurs nowhere. -/
theorem exists_lost_faint : ∃ solver, (afterAll {} faint).solvers.get? 0 = some solver ∧
    solver.tableau.epsilon = 1 / 100000000 ∧
    ∃ a ∈ solver.constraints, solver.tableau.mentions a.2 = false := by
  have h : ((afterAll {} faint).solvers.get? 0).any (fun solver =>
      solver.tableau.epsilon = 1 / 100000000 ∧
        (solver.constraints.any fun a => !solver.tableau.mentions a.2) = true) = true := by
    decide +kernel
  obtain ⟨solver, hs, htest⟩ := (Option.any_eq_true ..).mp h
  obtain ⟨heps, hany⟩ := of_decide_eq_true htest
  obtain ⟨a, ha, hlost⟩ := List.any_eq_true.mp hany
  exact ⟨solver, hs, heps, a, ha, (Bool.not_eq_true' _).mp hlost⟩

/-- Once that constraint is removed too, a row is left. -/
theorem exists_stray_faint : ∃ solver,
    (afterAll {} (faint ++ [.remove 0 0])).solvers.get? 0 = some solver ∧
      solver.size = 0 ∧ solver.tableau.isEmpty = false := by
  have h : ((afterAll {} (faint ++ [.remove 0 0])).solvers.get? 0).any (fun solver =>
      solver.size = 0 ∧ solver.tableau.isEmpty = false) = true := by decide +kernel
  obtain ⟨solver, hs, htest⟩ := (Option.any_eq_true ..).mp h
  exact ⟨solver, hs, of_decide_eq_true htest⟩

/-- At the tolerance of double precision, a constraint that is held can lose its
    marker, and a solver without constraints can hold a row. -/
theorem not_isEmpty_faint :
    ((afterAll {} faint).Reachable ∧
      ∃ solver, (afterAll {} faint).solvers.get? 0 = some solver ∧
        solver.tableau.epsilon = 1 / 100000000 ∧
        ∃ a ∈ solver.constraints, solver.tableau.mentions a.2 = false) ∧
    (afterAll {} (faint ++ [.remove 0 0])).Reachable ∧
      ∃ solver, (afterAll {} (faint ++ [.remove 0 0])).solvers.get? 0 = some solver ∧
        solver.size = 0 ∧ solver.tableau.isEmpty = false :=
  ⟨⟨⟨faint, fun call hc => formulated_faint call (List.mem_append_left _ hc), rfl⟩,
      exists_lost_faint⟩, ⟨_, formulated_faint, rfl⟩, exists_stray_faint⟩

/-- A removal has severed the marker, and the row is a stray. -/
theorem severs_faint :
    (∃ past call, past ++ [call] <+: faint ++ [.remove 0 0] ∧
      (afterAll {} past).Severs 0 call) ∧ strays 0 {} 0 (faint ++ [.remove 0 0]) ≠ 0 := by
  have hsettings : ∀ settings, Call.newSolver settings ∈ faint ++ [.remove 0 0] →
      Scalar.Steady settings.epsilon := by
    intro settings hc
    obtain rfl : settings = Settings.standard := by simpa [faint] using hc
    exact steady_of_tolerance (by decide +kernel) (by decide +kernel)
  obtain ⟨hiff, hend⟩ := complete_iff_not_severs formulated_faint hsettings 0
  constructor
  · by_contra hnone
    obtain ⟨solver, hs, -, a, ha, hlost⟩ := exists_lost_faint
    have hall := hiff.mpr fun past call hbegins hsevers => hnone ⟨past, call, hbegins, hsevers⟩
    have hm := (hall faint (List.prefix_append ..) solver hs).mentions a ha
    rw [hlost] at hm
    exact nomatch hm
  · obtain ⟨solver, hs, hempty, hrow⟩ := exists_stray_faint
    intro hzero
    have hnone := ((hend solver hs).2 hempty).mpr hzero
    rw [hrow] at hnone
    exact nomatch hnone

end LinearConstraints.World
