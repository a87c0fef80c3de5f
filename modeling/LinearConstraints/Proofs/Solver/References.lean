import LinearConstraints.Proofs.Solver.Ledger

/-! # The register of references counts mentions

    For every variable the register says how many constraints of the ledger
    mention it, and it has no entry where that is none.  So a variable is
    registered exactly as long as the solver holds a constraint that mentions
    it, whatever the numbers are. -/

namespace LinearConstraints.Solver

/-- The entry of a number in a register; zero has none. -/
def entry? : Nat → Option Nat
  | 0 => none
  | n + 1 => some (n + 1)

theorem entry?_eq_some_iff {n m : Nat} : entry? n = some m ↔ n = m ∧ 0 < m := by
  cases n with
  | zero =>
      constructor
      · intro h
        cases h
      · rintro ⟨rfl, h⟩
        exact absurd h (Nat.lt_irrefl 0)
  | succ n =>
      constructor
      · intro h
        cases h
        exact ⟨rfl, Nat.succ_pos n⟩
      · rintro ⟨rfl, -⟩
        rfl

/-- Whether a register holds the given numbers. -/
def Counts (references : OrderedMap VariableId Nat) (number : VariableId → Nat) : Prop :=
  ∀ v, references.get? v = entry? (number v)

/-! ## Counting up and down -/

namespace Counts

variable {references : OrderedMap VariableId Nat} {number : VariableId → Nat}

theorem empty : Counts ∅ fun _ => 0 := fun _ => rfl

theorem getD_eq (h : Counts references number) (v : VariableId) :
    references.getD v 0 = number v := by
  show (references.get? v).getD 0 = number v
  rw [h v]
  cases number v with
  | zero => rfl
  | succ n => rfl

theorem addReference (h : Counts references number) (k : VariableId) :
    Counts (addReference references k) fun v => number v + if k = v then 1 else 0 := by
  intro v
  dsimp only [Solver.addReference]
  by_cases hv : v = k
  · subst hv
    rw [OrderedMap.get?_insert_self, h.getD_eq, if_pos rfl]
    rfl
  · rw [OrderedMap.get?_insert_of_ne _ _ hv, if_neg (Ne.symm hv)]
    exact h v

theorem dropReference (h : Counts references number) (k : VariableId) :
    Counts (dropReference references k) fun v => number v - if k = v then 1 else 0 := by
  intro v
  dsimp only [Solver.dropReference]
  by_cases hv : v = k
  · subst hv
    have hentry := h v
    rw [if_pos rfl, hentry]
    cases hn : number v with
    | zero =>
        rw [hn] at hentry
        exact hentry
    | succ n =>
        cases n with
        | zero => exact OrderedMap.get?_erase_self ..
        | succ n => exact OrderedMap.get?_insert_self ..
  · rw [if_neg (Ne.symm hv), Nat.sub_zero, ← h v]
    split
    · split
      · exact OrderedMap.get?_erase_of_ne _ hv
      · exact OrderedMap.get?_insert_of_ne _ _ hv
    · rfl

theorem foldl_addReference (l : List VariableId) (h : Counts references number) :
    Counts (l.foldl Solver.addReference references) fun v => number v + l.count v := by
  induction l generalizing references number with
  | nil => exact h
  | cons k rest ih =>
      intro v
      rw [List.foldl_cons, ih (h.addReference k) v]
      simp only [List.count_cons, beq_iff_eq, Nat.add_assoc, Nat.add_comm (rest.count v)]

theorem foldl_dropReference (l : List VariableId) (h : Counts references number) :
    Counts (l.foldl Solver.dropReference references) fun v => number v - l.count v := by
  induction l generalizing references number with
  | nil => exact h
  | cons k rest ih =>
      intro v
      rw [List.foldl_cons, ih (h.dropReference k) v]
      simp only [List.count_cons, beq_iff_eq, Nat.sub_sub, Nat.add_comm (rest.count v)]

end Counts

/-! ## Mentions in a ledger -/

variable {α : Type} [Scalar α]

/-- How many constraints of a ledger mention a variable. -/
def mentioning (ledger : List (Entry α)) (v : VariableId) : Nat :=
  ledger.countP fun e => v ∈ e.relation.vars

theorem mentioning_pos_iff {ledger : List (Entry α)} {v : VariableId} :
    0 < mentioning ledger v ↔ ∃ e ∈ ledger, v ∈ e.relation.vars := by
  rw [mentioning, List.countP_pos_iff]
  simp only [decide_eq_true_eq]

/-- A relation has each of its variables once. -/
theorem count_vars (r : Relation α) (v : VariableId) :
    r.vars.count v = if v ∈ r.vars then 1 else 0 :=
  (OrderedMap.nodup_keys r.normal.terms).count

theorem mentioning_append (ledger : List (Entry α)) (e : Entry α) (v : VariableId) :
    mentioning (ledger ++ [e]) v = mentioning ledger v + e.relation.vars.count v := by
  rw [mentioning, List.countP_append, List.countP_singleton, count_vars]
  simp only [decide_eq_true_eq]
  rfl

/-- A constraint that is given back leaves the mentions of the others. -/
theorem mentioning_filter {ledger : List (Entry α)} (hnodup : (ledger.map (·.constraint)).Nodup)
    {e : Entry α} (he : e ∈ ledger) (v : VariableId) :
    mentioning ledger v
      = mentioning (ledger.filter fun d => d.constraint ≠ e.constraint) v
        + e.relation.vars.count v := by
  induction ledger with
  | nil => exact nomatch he
  | cons d rest ih =>
      obtain ⟨hfresh, hrest⟩ := List.nodup_cons.mp hnodup
      simp only [mentioning] at ih ⊢
      rw [List.countP_cons]
      rcases List.mem_cons.mp he with rfl | he
      · have hkeep : rest.filter (fun d => d.constraint ≠ e.constraint) = rest := by
          refine List.filter_eq_self.mpr fun d hd => decide_eq_true ?_
          intro heq
          exact hfresh (List.mem_map.mpr ⟨d, hd, heq⟩)
        rw [List.filter_cons_of_neg (by simp), hkeep, count_vars]
        simp only [decide_eq_true_eq]
      · have hne : d.constraint ≠ e.constraint := by
          intro heq
          exact hfresh (List.mem_map.mpr ⟨e, he, heq.symm⟩)
        rw [List.filter_cons_of_pos (by simpa using hne), List.countP_cons, ih hrest he]
        omega

namespace Arises

variable {solver : Solver α} {ledger : List (Entry α)}

/-- The register of a solver counts the constraints that mention a variable. -/
theorem counts (h : solver.Arises ledger) : Counts solver.references (mentioning ledger) := by
  induction h with
  | new settings => exact Counts.empty
  | @add solver ledger _ c relation _ _ _ marker _ _ ih =>
      intro v
      rw [mentioning_append]
      exact ih.foldl_addReference relation.vars v
  | @remove solver ledger h e he _ _ _ _ ih =>
      intro v
      have hsplit := mentioning_filter h.nodup he v
      have hdrop := ih.foldl_dropReference e.relation.vars v
      simp only at hdrop
      rw [hsplit, Nat.add_sub_cancel] at hdrop
      exact hdrop
  | repair _ _ ih => exact ih
  | clear _ _ => exact Counts.empty

/-- A variable is registered as long as some constraint mentions it. -/
theorem references_contains_iff (h : solver.Arises ledger) {v : VariableId} :
    solver.references.contains v = true ↔ ∃ e ∈ ledger, v ∈ e.relation.vars := by
  rw [OrderedMap.contains_iff, h.counts v, ← mentioning_pos_iff]
  constructor
  · rintro ⟨n, hn⟩
    obtain ⟨rfl, hpos⟩ := entry?_eq_some_iff.mp hn
    exact hpos
  · intro hpos
    exact ⟨_, entry?_eq_some_iff.mpr ⟨rfl, hpos⟩⟩

end Arises

end LinearConstraints.Solver
