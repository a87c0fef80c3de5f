import LinearConstraints.Proofs.Tableau.Upkeep
import LinearConstraints.Solver
import LinearConstraints.World.History
import Mathlib.Data.List.Nodup

/-! # How solvers arise

    A solver starts without constraints and changes in four ways: it takes a
    constraint, gives one back, has its tableau repaired, or is cleared.  The
    ledger says which constraints it has taken and not given back, with their
    relations and markers.  `Arises` derives a solver together with its ledger,
    so that what is always true of solvers is shown by following one of these
    four ways, for whatever arithmetic it holds. -/

namespace LinearConstraints

variable {α : Type}

/-- A constraint that a solver holds. -/
structure Entry (α : Type) where
  /-- The number of the constraint. -/
  constraint : ConstraintId
  /-- What it says. -/
  relation : Relation α
  /-- The marker it was given. -/
  marker : Symbol

variable [Scalar α]

/-- The solvers that can arise, with their ledgers. -/
inductive Solver.Arises : Solver α → List (Entry α) → Prop where
  /-- A new solver holds nothing. -/
  | new (settings : Settings α) : Arises (.ofSettings settings) []
  /-- A solver takes a constraint that it does not hold. -/
  | add {solver : Solver α} {ledger : List (Entry α)} (h : Arises solver ledger)
      {c : ConstraintId} {relation : Relation α} (hform : relation.Formulated)
      (hnew : ∀ e ∈ ledger, e.constraint ≠ c) {editable : VariableId → Bool} {marker : Symbol}
      {tableau : Tableau α}
      (himpose : solver.tableau.impose editable relation = .ok (marker, tableau)) :
      Arises (solver.register c marker relation.vars tableau) (ledger ++ [⟨c, relation, marker⟩])
  /-- A solver gives a constraint back. -/
  | remove {solver : Solver α} {ledger : List (Entry α)} (h : Arises solver ledger)
      {e : Entry α} (he : e ∈ ledger) {withdrawn tableau : Tableau α}
      (hwithdraw : solver.tableau.withdraw e.marker = .ok withdrawn)
      (hrepair : withdrawn.repair = .ok tableau) :
      Arises (solver.unregister e.constraint e.relation.vars tableau)
        (ledger.filter fun d => d.constraint ≠ e.constraint)
  /-- The tableau is repaired. -/
  | repair {solver : Solver α} {ledger : List (Entry α)} (h : Arises solver ledger)
      {tableau : Tableau α} (hrepair : solver.tableau.repair = .ok tableau) :
      Arises { solver with tableau := tableau } ledger
  /-- All constraints are given back. -/
  | clear {solver : Solver α} {ledger : List (Entry α)} (h : Arises solver ledger) :
      Arises solver.clear []

namespace Solver.Arises

variable {solver : Solver α} {ledger : List (Entry α)}

/-- The registered constraints are those of the ledger, in its order. -/
theorem constraints_eq (h : solver.Arises ledger) :
    solver.constraints = ledger.map fun e => (e.constraint, e.marker) := by
  induction h with
  | new settings => rfl
  | add _ _ _ _ ih =>
      rw [List.map_append, ← ih]
      rfl
  | remove _ _ _ _ ih =>
      rw [Solver.unregister, ih, List.filter_map]
      rfl
  | repair _ _ ih => exact ih
  | clear _ _ => rfl

/-- No constraint is held twice. -/
theorem nodup (h : solver.Arises ledger) : (ledger.map (·.constraint)).Nodup := by
  induction h with
  | new settings => exact List.nodup_nil
  | add _ _ hnew _ ih =>
      rw [List.map_append, List.nodup_append]
      refine ⟨ih, List.nodup_singleton _, ?_⟩
      rintro c hc d hd rfl
      obtain ⟨e, he, rfl⟩ := List.mem_map.mp hc
      exact hnew e he (List.mem_singleton.mp hd)
  | remove _ _ _ _ ih => exact ih.sublist (List.filter_sublist.map _)
  | repair _ _ ih => exact ih
  | clear _ _ => exact List.nodup_nil

theorem formulated (h : solver.Arises ledger) : ∀ e ∈ ledger, e.relation.Formulated := by
  induction h with
  | new settings => exact fun _ he => nomatch he
  | add _ hform _ _ ih =>
      exact List.forall_mem_append.mpr ⟨ih, List.forall_mem_singleton.mpr hform⟩
  | remove _ _ _ _ ih => exact fun e he => ih e (List.mem_filter.mp he).1
  | repair _ _ ih => exact ih
  | clear _ _ => exact fun _ he => nomatch he

/-- Every marker is of the kind of its relation. -/
theorem marker_eq (h : solver.Arises ledger) :
    ∀ e ∈ ledger, e.marker = e.relation.comparison.mark e.marker.index := by
  induction h with
  | new settings => exact fun _ he => nomatch he
  | add _ _ _ himpose ih =>
      refine List.forall_mem_append.mpr ⟨ih, List.forall_mem_singleton.mpr ?_⟩
      simp only
      rw [(Tableau.impose_cases himpose).1, Tableau.marker_eq_mark, Comparison.mark_index]
  | remove _ _ _ _ ih => exact fun e he => ih e (List.mem_filter.mp he).1
  | repair _ _ ih => exact ih
  | clear _ _ => exact fun _ he => nomatch he

/-- Every tableau that arises is well formed. -/
theorem wellFormed (h : solver.Arises ledger) : solver.tableau.WellFormed := by
  induction h with
  | new settings => exact Tableau.wellFormed_empty _
  | add _ _ _ himpose ih => exact (ih.impose himpose).1
  | remove _ _ hwithdraw hrepair ih => exact ((ih.withdraw hwithdraw).1.repair hrepair).1
  | repair _ hrepair ih => exact (ih.repair hrepair).1
  | clear _ _ => exact Tableau.wellFormed_empty _

/-- Every marker has been numbered. -/
theorem marker_lt (h : solver.Arises ledger) :
    ∀ e ∈ ledger, e.marker.index < solver.tableau.nextIndex := by
  induction h with
  | new settings => exact fun _ he => nomatch he
  | add h _ _ himpose ih =>
      have hnext := (h.wellFormed.impose himpose).2.1
      refine List.forall_mem_append.mpr
        ⟨fun e he => Nat.lt_trans (ih e he) hnext, List.forall_mem_singleton.mpr ?_⟩
      simp only
      rw [(Tableau.impose_cases himpose).1, Tableau.marker_index]
      exact hnext
  | remove h _ hwithdraw hrepair ih =>
      obtain ⟨hwf, hsame, -⟩ := h.wellFormed.withdraw hwithdraw
      intro e he
      refine Nat.lt_of_lt_of_le (ih e (List.mem_filter.mp he).1) ?_
      rw [← hsame]
      exact (hwf.repair hrepair).2.1
  | repair h hrepair ih =>
      exact fun e he => Nat.lt_of_lt_of_le (ih e he) (h.wellFormed.repair hrepair).2.1
  | clear _ _ => exact fun _ he => nomatch he

/-- No marker is given twice. -/
theorem markers_nodup (h : solver.Arises ledger) : (ledger.map (·.marker)).Nodup := by
  induction h with
  | new settings => exact List.nodup_nil
  | add h _ _ himpose ih =>
      rw [List.map_append, List.nodup_append]
      refine ⟨ih, List.nodup_singleton _, ?_⟩
      rintro m hm m' hm' rfl
      obtain ⟨e, he, rfl⟩ := List.mem_map.mp hm
      have hlt := h.marker_lt e he
      rw [List.mem_singleton.mp hm', (Tableau.impose_cases himpose).1, Tableau.marker_index] at hlt
      exact Nat.lt_irrefl _ hlt
  | remove _ _ _ _ ih => exact ih.sublist (List.filter_sublist.map _)
  | repair _ _ ih => exact ih
  | clear _ _ => exact List.nodup_nil

/-- The marker of a held constraint is the one in the ledger. -/
theorem marker?_eq_some_iff (h : solver.Arises ledger) {c : ConstraintId} {marker : Symbol} :
    solver.marker? c = some marker ↔
      ∃ e ∈ ledger, e.constraint = c ∧ e.marker = marker := by
  have hnodup := h.nodup
  simp only [Solver.marker?]
  rw [h.constraints_eq]
  clear h
  induction ledger with
  | nil => exact ⟨fun h => (nomatch h), fun ⟨_, he, _⟩ => (nomatch he)⟩
  | cons d rest ih =>
      obtain ⟨hfresh, hrest⟩ := List.nodup_cons.mp hnodup
      rw [List.map_cons, List.lookup_cons]
      by_cases hc : c = d.constraint
      · subst hc
        rw [beq_self_eq_true]
        constructor
        · intro hm
          exact ⟨d, List.mem_cons_self .., rfl, Option.some.inj hm⟩
        · rintro ⟨e, he, heq, rfl⟩
          rcases List.mem_cons.mp he with rfl | he
          · rfl
          · exact absurd (List.mem_map.mpr ⟨e, he, heq⟩) hfresh
      · rw [beq_eq_false_iff_ne.mpr hc]
        refine (ih hrest).trans ⟨?_, ?_⟩
        · rintro ⟨e, he, heq⟩
          exact ⟨e, List.mem_cons_of_mem _ he, heq⟩
        · rintro ⟨e, he, heq, hm⟩
          rcases List.mem_cons.mp he with rfl | he
          · exact absurd heq.symm hc
          · exact ⟨e, he, heq, hm⟩

end Solver.Arises

end LinearConstraints
