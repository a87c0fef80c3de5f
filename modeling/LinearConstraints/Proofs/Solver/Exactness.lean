import LinearConstraints.Proofs.Form.Formulas
import LinearConstraints.Proofs.Solver.Ledger
import LinearConstraints.Proofs.Tableau.Satisfiability

/-! # Every solver that arises stands for its ledger

    Over fractions dummies stand at zero and no cell is zero in every solver
    that arises.  With no tolerance anywhere its tableau moreover stands for
    the relations of its ledger: taking a constraint and giving one back are
    faithful, and there is never anything to repair. -/

namespace LinearConstraints.Solver.Arises

section AnyTolerance

variable [Tolerance] {solver : Solver Rat} {ledger : List (Entry Rat)}

theorem grounded (h : solver.Arises ledger) : solver.tableau.Grounded := by
  induction h with
  | new settings => exact Tableau.grounded_empty _
  | add h _ _ himpose ih => exact ih.impose h.wellFormed himpose
  | remove h _ hwithdraw hrepair ih =>
      exact (ih.withdraw hwithdraw).repair (h.wellFormed.withdraw hwithdraw).1 hrepair
  | repair h hrepair ih => exact ih.repair h.wellFormed hrepair
  | clear _ _ => exact Tableau.grounded_empty _

/-- No tableau that arises has a zero cell. -/
theorem pruned (h : solver.Arises ledger) : solver.tableau.Pruned := by
  induction h with
  | new settings => exact Tableau.pruned_empty _
  | add _ _ _ himpose ih => exact ih.impose himpose
  | remove _ _ hwithdraw hrepair ih => exact (ih.withdraw hwithdraw).repair hrepair
  | repair _ hrepair ih => exact ih.repair hrepair
  | clear _ _ => exact Tableau.pruned_empty _

end AnyTolerance

open Exact

variable {solver : Solver Rat} {ledger : List (Entry Rat)}

/-- Among the entries of a ledger, another constraint is another marker. -/
theorem map_filter_entries (h : solver.Arises ledger) {e : Entry Rat} (he : e ∈ ledger) :
    (ledger.filter fun d => d.constraint ≠ e.constraint).map (fun e => (e.relation, e.marker))
      = (ledger.map fun e => (e.relation, e.marker)).filter fun a => a.2 ≠ e.marker := by
  rw [List.filter_map]
  congr 1
  refine List.filter_congr fun d hd => ?_
  have hiff : d.constraint = e.constraint ↔ d.marker = e.marker :=
    ⟨fun heq => congrArg Entry.marker (List.inj_on_of_nodup_map h.nodup hd he heq),
      fun heq => congrArg Entry.constraint (List.inj_on_of_nodup_map h.markers_nodup hd he heq)⟩
  show decide (¬ d.constraint = e.constraint) = decide (¬ d.marker = e.marker)
  rw [decide_eq_decide, hiff]

/-- With no tolerance the tableau of a solver stands for its ledger. -/
theorem faithful (h : solver.Arises ledger) (heps : solver.tableau.epsilon = 0) :
    solver.tableau.Faithful (ledger.map fun e => (e.relation, e.marker)) := by
  induction h with
  | new settings =>
      have hsettings : settings.epsilon = 0 := heps
      show (Tableau.empty settings.epsilon).Faithful []
      rw [hsettings]
      exact Tableau.Faithful.empty
  | add h hform _ himpose ih =>
      have hsame := (h.wellFormed.impose himpose).2.2
      rw [List.map_append]
      exact (ih (hsame.symm.trans heps)).impose hform.pruned_normal himpose
  | remove h he hwithdraw hrepair ih =>
      obtain ⟨hwf, -, hsame⟩ := h.wellFormed.withdraw hwithdraw
      have hfaithful := ih (hsame.symm.trans ((hwf.repair hrepair).2.2.symm.trans heps))
      obtain ⟨t, ht, hfreed⟩ := hfaithful.exists_withdraw (List.mem_map_of_mem he)
      obtain rfl := Except.ok.inj (hwithdraw.symm.trans ht)
      obtain rfl := Except.ok.inj (hrepair.symm.trans hfreed.ready.repair_eq)
      rw [map_filter_entries h he]
      exact hfreed
  | repair h hrepair ih =>
      have hfaithful := ih ((h.wellFormed.repair hrepair).2.2.symm.trans heps)
      obtain rfl := Except.ok.inj (hrepair.symm.trans hfaithful.ready.repair_eq)
      exact hfaithful
  | @clear solver ledger _ _ =>
      have hsame : solver.tableau.epsilon = 0 := heps
      show (Tableau.empty solver.tableau.epsilon).Faithful []
      rw [hsame]
      exact Tableau.Faithful.empty

end LinearConstraints.Solver.Arises
