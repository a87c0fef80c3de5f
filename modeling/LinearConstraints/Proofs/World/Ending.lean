import LinearConstraints.Proofs.World.Consistency
import Mathlib.Dynamics.PeriodicPts.Defs

/-! # Every call comes to an end

    With exact numbers phase one comes to an end on every tableau it can be
    started on, however many of its exchanges move nothing, and the limit that
    it is given is never used up.  No zero has to be pruned for that, and the
    artificial need not be the only one, as long as none is negative.  So
    adding, removing and solving come to an end in every world that arises.

    That none is negative cannot be asked of the artificial alone that is
    lowered: beside a negative one it can be exchanged around for ever. -/

namespace LinearConstraints

open Exact

namespace Tableau

/-- Whether phase one can be started on an artificial. -/
structure Startable (t : Tableau Rat) (objective : Symbol) : Prop where
  /-- Basic symbols are mentioned in no row. -/
  separated : t.Separated
  /-- There is no tolerance. -/
  epsilon_eq : t.epsilon = 0
  /-- It is an artificial that is to be lowered. -/
  isArtificial : objective.isArtificial = true
  /-- No basic slack is negative. -/
  slack_nonneg : ∀ i row, t.row? (.slack i) = some row → 0 ≤ row.constant
  /-- Nor is the artificial, or another one if there is any. -/
  artificial_nonneg : ∀ i row, t.row? (.artificial i) = some row → 0 ≤ row.constant

/-- Whether phase one can be started can be told from the entries. -/
theorem startable_iff {t : Tableau Rat} {objective : Symbol} :
    t.Startable objective ↔ t.Separated ∧ t.epsilon = 0 ∧ objective.isArtificial = true ∧
      (t.rows.all fun s row => !s.isRestricted || decide (0 ≤ row.constant)) = true := by
  rw [OrderedMap.all_iff]
  constructor
  · rintro ⟨hsep, heps, hart, hslack, hartificial⟩
    refine ⟨hsep, heps, hart, fun s row hrow => ?_⟩
    cases s with
    | external v => rfl
    | slack i => exact decide_eq_true (hslack i row hrow)
    | dummy i => rfl
    | artificial i => exact decide_eq_true (hartificial i row hrow)
  · rintro ⟨hsep, heps, hart, hall⟩
    exact ⟨hsep, heps, hart, fun i row hrow => of_decide_eq_true (hall _ row hrow),
      fun i row hrow => of_decide_eq_true (hall _ row hrow)⟩

instance (t : Tableau Rat) (objective : Symbol) : Decidable (t.Startable objective) :=
  decidable_of_iff _ startable_iff.symm

/-- Whether the search for the least value of a symbol ends after finitely many
    exchanges, and so with every limit from there on. -/
def Ends (t : Tableau Rat) (objective : Symbol) : Prop :=
  ∃ k, (∀ j, j < k → (t.stage objective j).Moves objective) ∧
    (t.stage objective k).nextMove objective = .done ∧
    t.minimize objective = .ok (t.stage objective k) ∧
    ∀ limit, k ≤ limit → t.descend objective limit = .ok (t.stage objective k)

variable {t : Tableau Rat} {objective : Symbol}

theorem Startable.searchable (h : t.Startable objective) : t.Searchable where
  separated := h.separated
  epsilon_eq := h.epsilon_eq
  nonnegative s hs := by
    by_cases hb : t.isBasic s = true
    · obtain ⟨row, hrow⟩ := isBasic_iff.mp hb
      rw [valueOf_of_row? hrow]
      cases s with
      | external v => exact nomatch hs
      | slack i => exact h.slack_nonneg i row hrow
      | dummy i => exact nomatch hs
      | artificial i => exact h.artificial_nonneg i row hrow
    · rw [valueOf_of_not_isBasic hb]

theorem Searchable.ends (h : t.Searchable) (hobj : objective.isRestricted = true) :
    t.Ends objective := by
  obtain ⟨k, hle, hmoves, hdone⟩ := h.exists_end hobj
  exact ⟨k, hmoves, hdone, descend_eq_ok hmoves hdone hle,
    fun _ hlimit => descend_eq_ok hmoves hdone hlimit⟩

/-- An artificial to be lowered beside two others, one of which is negative. -/
def sunken : Tableau Rat where
  rows := (((∅ : OrderedMap Symbol (Row Rat)).insert (.artificial 4)
      ⟨-1, (((∅ : OrderedMap Symbol Rat).insert (.slack 0) (-1)).insert
        (.slack 1) (-1)).insert (.slack 2) (-1)⟩).insert (.artificial 5)
      ⟨1, ((((∅ : OrderedMap Symbol Rat).insert (.slack 0) 3).insert
        (.slack 1) (-1)).insert (.slack 2) 2).insert (.slack 3) 1⟩).insert (.artificial 6)
      ⟨1, ((((∅ : OrderedMap Symbol Rat).insert (.slack 0) (-1)).insert
        (.slack 1) 3).insert (.slack 2) (-2)).insert (.slack 3) (-2)⟩
  nextIndex := 7
  epsilon := 0

/-- Where a row below zero blocks a move, the exchange moves backwards and raises
    the objective.  Neither a slack nor the artificial to be lowered is negative
    here, and after six exchanges the search is back where it started. -/
theorem not_ends_sunken : sunken.Separated ∧ sunken.epsilon = 0 ∧
    (∀ i row, sunken.row? (.slack i) = some row → 0 ≤ row.constant) ∧
    (∃ row, sunken.row? (.artificial 6) = some row ∧ 0 ≤ row.constant) ∧
    ¬ sunken.Ends (.artificial 6) ∧
    ∀ limit, sunken.descend (.artificial 6) limit = .error .endlessSearch := by
  have hslack : (sunken.rows.all fun s row => !s.isSlack || decide (0 ≤ row.constant)) = true := by
    decide +kernel
  have hperiod : Function.IsPeriodicPt (advance (.artificial 6)) 6 sunken := by decide +kernel
  have hround : ∀ k < 6, (sunken.stage (.artificial 6) k).Moves (.artificial 6) := by
    decide +kernel
  -- the stages repeat themselves, so what six of them do all do
  have hmoves : ∀ k, (sunken.stage (.artificial 6) k).Moves (.artificial 6) := by
    intro k
    rw [stage, ← hperiod.iterate_mod_apply]
    exact hround (k % 6) (Nat.mod_lt k (by decide))
  refine ⟨by decide +kernel, rfl, fun i row hrow => ?_, ⟨_, rfl, by decide +kernel⟩, ?_,
    fun limit => descend_eq_endlessSearch hmoves⟩
  · exact of_decide_eq_true (OrderedMap.all_iff.mp hslack (.slack i) row hrow)
  · rintro ⟨k, -, hdone, -⟩
    exact (moves_iff.mp (hmoves k)).1 hdone

end Tableau

namespace World

/-- Whether a call never gives a search up. -/
def ComesToEnd (x : WorldM Rat Unit) (w : World Rat) : Prop :=
  ∀ next, x.run w ≠ .error .endlessSearch next

variable {w : World Rat} {s : SolverId} {solver : Solver Rat}

/-- A constraint that is not added is refused for its owner or as
    unsatisfiable. -/
theorem Reachable.add_comesToEnd (hw : w.Reachable) (hs : w.solvers.get? s = some solver)
    (heps : solver.tableau.epsilon = 0) (c : ConstraintId) : ComesToEnd (add s c) w := by
  intro next h
  obtain ⟨ledger, hk⟩ := hw.kept.exists_ledger s solver hs
  rw [run_add, hs] at h
  simp only at h
  split at h
  · cases h
  · next x hx =>
      split at h
      · split at h <;> cases h
      · split at h
        · cases h
        · next reason himpose =>
            have hpruned := (hw.kept.formulated c x hx).pruned_normal
            have hreason := ((hk.arises.faithful heps).impose_iff hpruned w.isEditable).2
              reason himpose
            subst hreason
            cases h

/-- A constraint that the solver holds is always removed. -/
theorem Reachable.remove_comesToEnd (hw : w.Reachable) (hs : w.solvers.get? s = some solver)
    (heps : solver.tableau.epsilon = 0) (c : ConstraintId) : ComesToEnd (remove s c) w := by
  intro next h
  obtain ⟨ledger, hk⟩ := hw.kept.exists_ledger s solver hs
  rw [run_remove, hs] at h
  simp only at h
  split at h
  · cases h
  · next x hx =>
      split at h
      · cases h
      · next marker hm =>
          split at h
          · obtain ⟨e, he, -, rfl, -⟩ := hk.entry_of_marker hx hm
            obtain ⟨t, hwithdraw, hfreed⟩ := (hk.arises.faithful heps).exists_withdraw
              (List.mem_map_of_mem he)
            have hdone : solver.tableau.withdraw e.marker >>= Tableau.repair = .ok t := by
              rw [hwithdraw]
              exact hfreed.ready.repair_eq
            rw [hdone] at h
            cases h
          · cases h

/-- A solver is always solved. -/
theorem Reachable.solve_comesToEnd (hw : w.Reachable) (hs : w.solvers.get? s = some solver)
    (heps : solver.tableau.epsilon = 0) : ComesToEnd (solve s) w := by
  intro next h
  obtain ⟨ledger, hk⟩ := hw.kept.exists_ledger s solver hs
  rw [run_solve_of_isFeasible hs (hk.arises.faithful heps).ready.isFeasible] at h
  cases h

/-- Phase one ends on every tableau that it can be started on, and so does every
    call on a solver without tolerance in a world that arises. -/
theorem phase_one_ends :
    (∀ (t : Tableau Rat) (objective : Symbol), t.Startable objective → t.Ends objective) ∧
      ∀ (w : World Rat) (s : SolverId) (solver : Solver Rat), w.Reachable →
        w.solvers.get? s = some solver → solver.tableau.epsilon = 0 →
        (∀ c, ComesToEnd (add s c) w) ∧ (∀ c, ComesToEnd (remove s c) w) ∧
          ComesToEnd (solve s) w := by
  refine ⟨fun t objective h => ?_, fun w s solver hw hs heps => ?_⟩
  · have hobj : objective.isRestricted = true := by
      rw [Symbol.isRestricted, h.isArtificial, Bool.or_true]
    exact h.searchable.ends hobj
  · exact ⟨hw.add_comesToEnd hs heps, hw.remove_comesToEnd hs heps, hw.solve_comesToEnd hs heps⟩

/-- An artificial that cannot be lowered, but for two slacks at zero that have to
    give way first. -/
def degenerate : Tableau Rat where
  rows := (((∅ : OrderedMap Symbol (Row Rat)).insert (.slack 0)
      ⟨0, ((∅ : OrderedMap Symbol Rat).insert (.slack 2) (-1)).insert (.slack 3) 1⟩).insert
      (.slack 1)
      ⟨0, ((∅ : OrderedMap Symbol Rat).insert (.slack 2) (1 / 2)).insert (.slack 3) (-1)⟩).insert
      (.artificial 4)
      ⟨1, ((∅ : OrderedMap Symbol Rat).insert (.slack 2) (-1)).insert (.slack 3) (-1 / 3)⟩
  nextIndex := 5
  epsilon := 0

/-- Phase one ends on a degenerate tableau, and on one that shares ten. -/
theorem phase_one_ends_degenerate : degenerate.Startable (.artificial 4) ∧
    degenerate.Ends (.artificial 4) ∧ ComesToEnd (add 0 3) (afterAll {} shares) := by
  have hstart : degenerate.Startable (.artificial 4) := by decide +kernel
  obtain ⟨solver, hs, heps⟩ := offers_shares.exists_solver
  exact ⟨hstart, phase_one_ends.1 degenerate (.artificial 4) hstart,
    (phase_one_ends.2 _ 0 solver reachable_shares hs heps).1 3⟩

end World

end LinearConstraints
