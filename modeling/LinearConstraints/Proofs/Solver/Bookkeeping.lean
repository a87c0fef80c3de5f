import LinearConstraints.Proofs.Solver.Ledger
import LinearConstraints.Proofs.Tableau.Representation
import LinearConstraints.Proofs.Tableau.Severance

/-! # Rows and constraints of a solver

    A solver is complete if its tableau mentions the marker of every
    constraint and has as many rows as there are constraints.  Taking a
    constraint adds a row with its marker and a repair changes neither rows
    nor symbols, so both keep a solver complete.  Giving a constraint back
    takes a row away if its marker is still to be found, and none otherwise;
    and it may sever the markers of others. -/

namespace LinearConstraints.Solver

variable {α : Type} [Scalar α] {solver solver' solver'' : Solver α}

/-- Whether every marker occurs and there is one row for each constraint. -/
structure Complete (solver : Solver α) : Prop where
  mentions : ∀ a ∈ solver.constraints, solver.tableau.mentions a.2 = true
  size_eq : solver.tableau.size = solver.size

/-! ## Taking constraints -/

/-- What stays true of a solver as long as it gives nothing back. -/
structure Sustains (solver solver' : Solver α) : Prop where
  epsilon_eq : solver'.tableau.epsilon = solver.tableau.epsilon
  /-- There are as many rows more or less than constraints as before. -/
  size_eq : solver'.tableau.size + solver.size = solver.tableau.size + solver'.size
  /-- No symbol is lost, -/
  mentions : ∀ s, solver.tableau.mentions s = true → solver'.tableau.mentions s = true
  /-- and the markers of new constraints occur. -/
  marked : ∀ a ∈ solver'.constraints,
    a ∈ solver.constraints ∨ solver'.tableau.mentions a.2 = true

namespace Sustains

omit [Scalar α] in
theorem refl (solver : Solver α) : solver.Sustains solver :=
  ⟨rfl, rfl, fun _ h => h, fun _ h => Or.inl h⟩

omit [Scalar α] in
theorem trans (h : solver.Sustains solver') (h' : solver'.Sustains solver'') :
    solver.Sustains solver'' where
  epsilon_eq := h'.epsilon_eq.trans h.epsilon_eq
  size_eq := by
    have := h.size_eq
    have := h'.size_eq
    omega
  mentions s hs := h'.mentions s (h.mentions s hs)
  marked a ha := by
    rcases h'.marked a ha with ha | ha
    · exact (h.marked a ha).imp_right (h'.mentions a.2)
    · exact Or.inr ha

omit [Scalar α] in
theorem complete (h : solver.Sustains solver') (hc : solver.Complete) : solver'.Complete where
  mentions a ha := (h.marked a ha).elim (fun ha => h.mentions a.2 (hc.mentions a ha)) id
  size_eq := by
    have := h.size_eq
    have := hc.size_eq
    omega

end Sustains

variable {ledger : List (Entry α)}

theorem Arises.sustains_register (h : solver.Arises ledger)
    (hsteady : Scalar.Steady solver.tableau.epsilon) {editable : VariableId → Bool}
    {r : Relation α} {marker : Symbol} {tableau : Tableau α}
    (himpose : solver.tableau.impose editable r = .ok (marker, tableau)) (c : ConstraintId) :
    solver.Sustains (solver.register c marker r.vars tableau) := by
  obtain ⟨hextends, hmarker⟩ := h.wellFormed.extends_impose hsteady himpose
  refine ⟨(h.wellFormed.impose himpose).2.2, ?_, hextends.mentions, fun a ha => ?_⟩
  · have hsize : (solver.register c marker r.vars tableau).size = solver.size + 1 :=
      List.length_append
    have htableau : (solver.register c marker r.vars tableau).tableau.size
        = solver.tableau.size + 1 := hextends.size_eq
    omega
  · rcases List.mem_append.mp ha with ha | ha
    · exact Or.inl ha
    · rw [List.mem_singleton.mp ha]
      exact Or.inr hmarker

theorem Arises.sustains_repair (h : solver.Arises ledger)
    (hsteady : Scalar.Steady solver.tableau.epsilon) {tableau : Tableau α}
    (hrepair : solver.tableau.repair = .ok tableau) :
    solver.Sustains { solver with tableau := tableau } := by
  obtain ⟨hsize, hiff⟩ := h.wellFormed.extends_repair hsteady hrepair
  refine ⟨(h.wellFormed.repair hrepair).2.2, ?_, fun s hs => (hiff s).mpr hs, fun a ha => Or.inl ha⟩
  show tableau.size + solver.size = solver.tableau.size + solver.size
  rw [hsize]

/-! ## Giving constraints back -/

/-- What becomes of a solver that gives the constraint with some marker back. -/
structure Releases (solver : Solver α) (c : ConstraintId) (marker : Symbol)
    (solver' : Solver α) : Prop where
  epsilon_eq : solver'.tableau.epsilon = solver.tableau.epsilon
  mem : (c, marker) ∈ solver.constraints
  /-- All other constraints stay. -/
  constraints_iff : ∀ a, a ∈ solver'.constraints ↔ a ∈ solver.constraints ∧ a.1 ≠ c
  size_eq : solver'.size + 1 = solver.size
  /-- A row goes if the marker occurs, -/
  size_of_mentions : solver.tableau.mentions marker = true →
    solver'.tableau.size + 1 = solver.tableau.size
  /-- and none if it does not. -/
  size_of_not_mentions : ¬ solver.tableau.mentions marker = true →
    solver'.tableau.size = solver.tableau.size
  /-- Of the other markers those are lost that are severed. -/
  severs_iff : ∀ a ∈ solver'.constraints, solver.tableau.mentions a.2 = true →
    (solver.tableau.Severs marker a.2 ↔ ¬ solver'.tableau.mentions a.2 = true)

theorem Arises.releases (h : solver.Arises ledger)
    (hsteady : Scalar.Steady solver.tableau.epsilon) {e : Entry α} (he : e ∈ ledger)
    {withdrawn tableau : Tableau α}
    (hwithdraw : solver.tableau.withdraw e.marker = .ok withdrawn)
    (hrepair : withdrawn.repair = .ok tableau) (vars : List VariableId) :
    solver.Releases e.constraint e.marker (solver.unregister e.constraint vars tableau) := by
  obtain ⟨hwf, -, hsame⟩ := h.wellFormed.withdraw hwithdraw
  obtain ⟨hrows, hiff⟩ := hwf.extends_repair (hsame.symm ▸ hsteady) hrepair
  have hconstraints := h.constraints_eq
  have hmem : (e.constraint, e.marker) ∈ solver.constraints := by
    rw [hconstraints]
    exact List.mem_map_of_mem he
  have hleft : ∀ a, a ∈ (solver.unregister e.constraint vars tableau).constraints
      ↔ a ∈ solver.constraints ∧ a.1 ≠ e.constraint := by
    intro a
    simp only [unregister]
    rw [List.mem_filter, decide_eq_true_eq]
  refine ⟨(hwf.repair hrepair).2.2.trans hsame, hmem, hleft, ?_, fun hm => ?_, fun hm => ?_,
    fun a ha hm => ?_⟩
  · refine length_filter_ne (·.1) ?_ hmem
    rw [hconstraints, List.map_map]
    exact h.nodup
  · show tableau.size + 1 = _
    rw [hrows]
    exact Tableau.size_withdraw hm hwithdraw
  · show tableau.size = _
    obtain rfl := Except.ok.inj ((Tableau.withdraw_of_not_mentions hm).symm.trans hwithdraw)
    exact hrows
  · -- another constraint has another marker
    have hne : a.2 ≠ e.marker := by
      obtain ⟨ha, hc⟩ := (hleft a).mp ha
      rw [hconstraints] at ha
      obtain ⟨d, hd, rfl⟩ := List.mem_map.mp ha
      intro hmarker
      exact hc (congrArg Entry.constraint (List.inj_on_of_nodup_map h.markers_nodup hd he hmarker))
    rw [Tableau.severs_iff hwithdraw hne hm]
    exact not_congr (hiff a.2).symm

/-- Giving a constraint back keeps a solver complete unless it severs a marker. -/
theorem Releases.complete_iff {c : ConstraintId} {marker : Symbol}
    (h : solver.Releases c marker solver') (hc : solver.Complete) :
    solver'.Complete ↔
      ¬ ∃ a ∈ solver.constraints, a.1 ≠ c ∧ solver.tableau.Severs marker a.2 := by
  constructor
  · rintro hc' ⟨a, ha, hne, hsevers⟩
    have ha' := (h.constraints_iff a).mpr ⟨ha, hne⟩
    exact (h.severs_iff a ha' (hc.mentions a ha)).mp hsevers (hc'.mentions a ha')
  · intro hnot
    refine ⟨fun a ha => ?_, ?_⟩
    · obtain ⟨hold, hne⟩ := (h.constraints_iff a).mp ha
      by_contra hlost
      exact hnot ⟨a, hold, hne, (h.severs_iff a ha (hc.mentions a hold)).mpr hlost⟩
    · have hrows := h.size_of_mentions (hc.mentions _ h.mem)
      have := hc.size_eq
      have := h.size_eq
      omega

end LinearConstraints.Solver
