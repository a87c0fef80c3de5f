import LinearConstraints.Proofs.Form.Formulas
import LinearConstraints.Proofs.Tableau.Provenance
import LinearConstraints.Proofs.World.Registry

/-! # Every marker belongs to one constraint

    A solver tells its constraints apart by their markers, and a marker may
    move: an exchange makes it basic, a repair takes its row out and puts it
    back, the withdrawal of another relation passes its row on.  Whatever the
    arithmetic makes of the numbers, no marker is ever shared, none is left
    over from a constraint that is gone, and the next one is new. -/

namespace LinearConstraints

variable {α : Type} [Scalar α]

namespace Solver.Arises

variable {solver : Solver α} {ledger : List (Entry α)}

/-- Of an entry that leaves the ledger only the marker is lost. -/
theorem mem_markers_filter (h : solver.Arises ledger) {e : Entry α} (he : e ∈ ledger)
    {u : Symbol} (hu : u ∈ ledger.map (·.marker)) (hne : u ≠ e.marker) :
    u ∈ (ledger.filter fun d => d.constraint ≠ e.constraint).map (·.marker) := by
  obtain ⟨d, hd, rfl⟩ := List.mem_map.mp hu
  refine List.mem_map.mpr ⟨d, List.mem_filter.mpr ⟨hd, decide_eq_true fun heq => hne ?_⟩, rfl⟩
  rw [List.inj_on_of_nodup_map h.nodup hd he heq]

/-- Every made-up symbol of the tableau is the marker of an entry. -/
theorem accountedBy (h : solver.Arises ledger) :
    solver.tableau.AccountedBy (ledger.map (·.marker)) := by
  induction h with
  | new settings => exact Tableau.accountedBy_empty _
  | add h _ _ himpose ih =>
      rw [List.map_append]
      exact ih.impose h.wellFormed himpose
  | remove h he hwithdraw hrepair ih =>
      intro u hu
      have hwf := (h.wellFormed.withdraw hwithdraw).1
      have hu := hwf.mentions_of_repair hrepair hu
      obtain ⟨hne, hm⟩ := h.wellFormed.mentions_of_withdraw hwithdraw hu
      exact (ih u hm).imp_right fun hmem => h.mem_markers_filter he hmem hne
  | repair h hrepair ih => exact ih.mono fun _ => h.wellFormed.mentions_of_repair hrepair
  | clear _ _ => exact Tableau.accountedBy_empty _

end Solver.Arises

namespace World

variable {w : World α} {s : SolverId} {solver : Solver α}

/-- The discipline that the markers of a solver are under. -/
structure MarkersInOrder (w : World α) (s : SolverId) (solver : Solver α) : Prop where
  /-- No two constraints share a marker. -/
  distinct : ∀ (c d : ConstraintId) marker, solver.marker? c = some marker →
    solver.marker? d = some marker → c = d
  /-- The marker of a constraint is a dummy if it is an equation, and a slack
      otherwise. -/
  kind : ∀ (c : ConstraintId) marker, solver.marker? c = some marker →
    ∃ r, w.constraints[c]? = some ⟨r, some (.solver s)⟩ ∧
      (r.comparison = .equal → marker.isDummy = true) ∧
      (r.comparison ≠ .equal → marker.isSlack = true)
  /-- Every symbol of the tableau that is not a variable is the marker of a
      constraint. -/
  accounted : ∀ u, solver.tableau.mentions u = true → u.isExternal = false →
    ∃ c, solver.marker? c = some u
  /-- The next number is above those of all such symbols and markers. -/
  numbered : ∀ u, u.isExternal = false →
    (solver.tableau.mentions u = true ∨ ∃ c, solver.marker? c = some u) →
    u.index < solver.tableau.nextIndex

/-- The ledger of a solver keeps its markers in order. -/
theorem Keeps.markersInOrder {ledger : List (Entry α)} (hk : w.Keeps s solver ledger) :
    w.MarkersInOrder s solver where
  distinct c d marker hc hd := by
    obtain ⟨e, he, rfl, hmarker⟩ := hk.arises.marker?_eq_some_iff.mp hc
    obtain ⟨f, hf, rfl, rfl⟩ := hk.arises.marker?_eq_some_iff.mp hd
    rw [List.inj_on_of_nodup_map hk.arises.markers_nodup he hf hmarker]
  kind c marker hc := by
    obtain ⟨e, he, rfl, rfl⟩ := hk.arises.marker?_eq_some_iff.mp hc
    refine ⟨e.relation, hk.owned e he, fun hequal => ?_, fun hne => ?_⟩
    · rw [hk.arises.marker_eq e he, hequal]
      rfl
    · rw [hk.arises.marker_eq e he]
      exact Comparison.mark_isSlack hne _
  accounted u hu hext := by
    rcases hk.arises.accountedBy u hu with h | h
    · rw [hext] at h
      exact nomatch h
    · obtain ⟨e, he, rfl⟩ := List.mem_map.mp h
      exact ⟨e.constraint, (hk.holds he).1⟩
  numbered u hext h := by
    rcases h with hu | ⟨c, hc⟩
    · refine (hk.arises.wellFormed.numbered u hu).resolve_left fun h => ?_
      rw [hext] at h
      exact nomatch h
    · obtain ⟨e, he, -, rfl⟩ := hk.arises.marker?_eq_some_iff.mp hc
      exact hk.arises.marker_lt e he

/-- A constraint that is added gets a marker that occurred nowhere. -/
theorem Reachable.marker_of_add (hw : w.Reachable) (hs : w.solvers.get? s = some solver)
    {c : ConstraintId} {w' : World α} (hadd : (add s c).run w = .ok () w') :
    ∃ marker solver', w'.solvers.get? s = some solver' ∧ solver'.marker? c = some marker ∧
      ¬ solver.tableau.mentions marker = true ∧ ∀ d, solver.marker? d ≠ some marker := by
  obtain ⟨old, x, marker, tableau, hold, hx, hfree, himpose, rfl⟩ := exists_of_add hadd
  rw [hs, Option.some.injEq] at hold
  subst hold
  obtain ⟨ledger, hk⟩ := hw.kept.exists_ledger s solver hs
  have hk' := hk.add (hw.kept.formulated c x hx) hx hfree himpose
  have hmarker := (Tableau.impose_cases himpose).1
  have hext : marker.isExternal = false := hmarker ▸ (solver.tableau.marker_kind _).1
  have hindex : marker.index = solver.tableau.nextIndex := hmarker ▸ solver.tableau.marker_index _
  -- all old symbols and markers have lower numbers
  have hnew := hk.markersInOrder.numbered marker hext
  refine ⟨marker, _, OrderedMap.get?_insert_self ..,
    (hk'.holds (List.mem_append_right _ (List.mem_singleton.mpr rfl))).1, fun hm => ?_,
    fun d hd => ?_⟩
  · exact Nat.lt_irrefl _ (hindex ▸ hnew (Or.inl hm))
  · exact Nat.lt_irrefl _ (hindex ▸ hnew (Or.inr ⟨d, hd⟩))

/-- Nothing of the marker of a constraint that is removed is left. -/
theorem Reachable.marker_of_remove (hw : w.Reachable) (hs : w.solvers.get? s = some solver)
    {c : ConstraintId} {w' : World α} (hremove : (remove s c).run w = .ok () w') :
    ∃ marker solver', solver.marker? c = some marker ∧ w'.solvers.get? s = some solver' ∧
      ¬ solver'.tableau.mentions marker = true ∧ ∀ d, solver'.marker? d ≠ some marker := by
  obtain ⟨old, x, marker, withdrawn, tableau, hold, hx, hm, -, hwithdraw, hrepair, rfl⟩ :=
    exists_of_remove hremove
  rw [hs, Option.some.injEq] at hold
  subst hold
  obtain ⟨ledger, hk⟩ := hw.kept.exists_ledger s solver hs
  obtain ⟨e, he, rfl, rfl, rfl⟩ := hk.entry_of_marker hx hm
  have hk' := hk.remove he ⟨e.relation, some (.solver s)⟩ hwithdraw hrepair
  have hwf := hk.arises.wellFormed
  refine ⟨e.marker, _, hm, OrderedMap.get?_insert_self .., fun hmentions => ?_, fun d hd => ?_⟩
  · have hleft := (hwf.withdraw hwithdraw).1.mentions_of_repair hrepair hmentions
    exact (hwf.mentions_of_withdraw hwithdraw hleft).1 rfl
  · obtain ⟨f, hf, -, hmarker⟩ := hk'.arises.marker?_eq_some_iff.mp hd
    obtain ⟨hf, hne⟩ := List.mem_filter.mp hf
    refine of_decide_eq_true hne (congrArg Entry.constraint ?_)
    exact List.inj_on_of_nodup_map hk.arises.markers_nodup hf he hmarker

/-- The markers of every solver that arises are in order: they are distinct,
    they are of the kind of their constraints, no made-up symbol of the tableau
    is anything else than one of them, and the next number is above them all.
    So a constraint that is removed leaves nothing of its marker behind, one
    that is added gets a marker that was not there, and one that is refused has
    used up no number. -/
theorem markers_in_order (hw : w.Reachable) (hs : w.solvers.get? s = some solver) :
    w.MarkersInOrder s solver ∧
    (∀ (c : ConstraintId) w', (remove s c).run w = .ok () w' →
      ∃ marker solver', solver.marker? c = some marker ∧ w'.solvers.get? s = some solver' ∧
        ¬ solver'.tableau.mentions marker = true ∧ ∀ d, solver'.marker? d ≠ some marker) ∧
    (∀ (c : ConstraintId) w', (add s c).run w = .ok () w' →
      ∃ marker solver', w'.solvers.get? s = some solver' ∧ solver'.marker? c = some marker ∧
        ¬ solver.tableau.mentions marker = true ∧ ∀ d, solver.marker? d ≠ some marker) ∧
    ∀ (c : ConstraintId) reason w', (add s c).run w = .error reason w' →
      w'.solvers.get? s = some solver := by
  obtain ⟨ledger, hk⟩ := hw.kept.exists_ledger s solver hs
  refine ⟨hk.markersInOrder, fun c w' => hw.marker_of_remove hs, fun c w' => hw.marker_of_add hs,
    fun c reason w' hadd => ?_⟩
  rw [eq_of_add_error hadd]
  exact hs

open Exact

/-- A variable is fixed twice, so that the second equation is kept for its
    marker only. -/
def twins : List (Call Rat) :=
  [.newVariable none 0 false, .newConstraint (.limit 1 0 .equal 2),
    .newConstraint (.limit 2 0 .equal 4), .newSolver ⟨0, true⟩, .add 0 0, .add 0 1]

theorem reachable_twins : (afterAll {} twins).Reachable := by
  refine ⟨twins, ?_, rfl⟩
  simp only [twins, List.forall_mem_cons]
  exact ⟨trivial, Relation.formulated_limit 1 0 .equal 2, Relation.formulated_limit 2 0 .equal 4,
    trivial, trivial, trivial, nofun⟩

/-- The row of the second equation mentions the marker of the first, which is
    gone all the same once the first is removed. -/
theorem markers_in_order_twins : (afterAll {} twins).Reachable ∧
    ∃ solver, (afterAll {} twins).solvers.get? 0 = some solver ∧
      (afterAll {} twins).MarkersInOrder 0 solver ∧
      ∃ w', (remove 0 0).run (afterAll {} twins) = .ok () w' ∧
        ∃ marker solver', solver.marker? 0 = some marker ∧ w'.solvers.get? 0 = some solver' ∧
          ¬ solver'.tableau.mentions marker = true := by
  have h : ((afterAll {} twins).solvers.get? 0).isSome = true := by decide +kernel
  obtain ⟨solver, hs⟩ := Option.isSome_iff_exists.mp h
  obtain ⟨hinorder, hremove, -, -⟩ := markers_in_order reachable_twins hs
  have hpasses : passes (remove 0 0) (fun _ => true) (afterAll {} twins) = true := by
    decide +kernel
  obtain ⟨w', hrun, -⟩ := exists_of_passes hpasses
  obtain ⟨marker, solver', hm, hs', hgone, -⟩ := hremove 0 w' hrun
  exact ⟨reachable_twins, solver, hs, hinorder, w', hrun, marker, solver', hm, hs', hgone⟩

end World

end LinearConstraints
