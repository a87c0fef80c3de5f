import LinearConstraints.Proofs.PhaseOne.Moves
import Mathlib.Logic.Function.Iterate

/-! # The search of phase one, step by step

    The search makes one exchange after the other.  Its stages are the
    tableaux it passes through, whatever limit it is given.  A search that
    succeeds ends at a stage that allows no further move, and where the stages
    come to such an end, every limit beyond it is enough. -/

namespace LinearConstraints.Tableau

variable {α : Type} [Scalar α]

/-- The tableau after the next exchange, or the same one where there is none. -/
def advance (objective : Symbol) (t : Tableau α) : Tableau α :=
  match t.nextMove objective with
  | .exchange leaving entering => t.exchange leaving entering
  | _ => t

/-- The tableau after a number of exchanges. -/
def stage (objective : Symbol) (k : Nat) (t : Tableau α) : Tableau α :=
  (advance objective)^[k] t

/-- Whether the search exchanges two symbols next. -/
def Moves (objective : Symbol) (t : Tableau α) : Prop :=
  ∃ leaving entering, t.nextMove objective = .exchange leaving entering

theorem moves_iff {objective : Symbol} {t : Tableau α} :
    t.Moves objective ↔ t.nextMove objective ≠ .done ∧ t.nextMove objective ≠ .unbounded := by
  constructor
  · rintro ⟨leaving, entering, h⟩
    rw [h]
    exact ⟨nofun, nofun⟩
  · rintro ⟨hdone, hunbounded⟩
    cases h : t.nextMove objective with
    | done => exact absurd h hdone
    | unbounded => exact absurd h hunbounded
    | exchange leaving entering => exact ⟨leaving, entering, h⟩

instance (objective : Symbol) (t : Tableau α) : Decidable (t.Moves objective) :=
  decidable_of_iff _ moves_iff.symm

theorem advance_of_nextMove {objective leaving entering : Symbol} {t : Tableau α}
    (h : t.nextMove objective = .exchange leaving entering) :
    t.advance objective = t.exchange leaving entering := by
  simp only [advance]
  rw [h]

/-- A stage is reached from the one before. -/
theorem stage_succ (objective : Symbol) (k : Nat) (t : Tableau α) :
    t.stage objective (k + 1) = (t.stage objective k).advance objective :=
  Function.iterate_succ_apply' ..

/-- Whatever every exchange keeps holds at every stage. -/
theorem stage_induction {objective : Symbol} {P : Tableau α → Prop}
    (hstep : ∀ t leaving entering, P t → t.nextMove objective = .exchange leaving entering →
      P (t.exchange leaving entering)) {t : Tableau α} (ht : P t) :
    ∀ k, P (t.stage objective k) := by
  intro k
  induction k with
  | zero => exact ht
  | succ k ih =>
      rw [stage_succ]
      simp only [advance]
      split
      · next leaving entering hmove => exact hstep _ leaving entering ih hmove
      · exact ih

/-- A search brings no new symbols in. -/
theorem mentions_of_stage {objective : Symbol} {t : Tableau α} (k : Nat) {s : Symbol}
    (h : (t.stage objective k).mentions s = true) : t.mentions s = true := by
  refine stage_induction (P := fun u => ∀ s, u.mentions s = true → t.mentions s = true)
    ?_ (fun _ h => h) k s h
  intro u leaving entering hu hmove s hs
  obtain ⟨⟨row, hrow⟩, -, hent, -⟩ := kinds_of_nextMove hmove
  rcases mentions_of_exchange hrow hs with rfl | hs
  · exact hu _ hent
  · exact hu _ hs

/-- How a search ends that succeeds. -/
theorem exists_stage_of_descend {objective : Symbol} :
    ∀ {limit : Nat} {t u : Tableau α}, t.descend objective limit = .ok u →
      ∃ k, u = t.stage objective k ∧ u.nextMove objective = .done ∧
        ∀ j, j < k → (t.stage objective j).Moves objective := by
  -- by induction on the limit; after an exchange all stages are one further on
  intro limit
  induction limit with
  | zero =>
      intro t u h
      rw [descend_eq] at h
      split at h
      · next hdone =>
          obtain rfl := Except.ok.inj h
          exact ⟨0, rfl, hdone, fun j hj => absurd hj (Nat.not_lt_zero j)⟩
      · exact nomatch h
      · exact nomatch h
  | succ limit ih =>
      intro t u h
      rw [descend_eq] at h
      split at h
      · next hdone =>
          obtain rfl := Except.ok.inj h
          exact ⟨0, rfl, hdone, fun j hj => absurd hj (Nat.not_lt_zero j)⟩
      · exact nomatch h
      · next leaving entering hmove =>
          rw [← advance_of_nextMove hmove] at h
          obtain ⟨k, rfl, hdone, hmoves⟩ := ih h
          refine ⟨k + 1, rfl, hdone, fun j hj => ?_⟩
          cases j with
          | zero => exact ⟨leaving, entering, hmove⟩
          | succ j => exact hmoves j (Nat.lt_of_succ_lt_succ hj)

/-- A search that ends has come to the end of its moves, and whatever every
    exchange keeps holds there. -/
theorem descend_induction {objective : Symbol} {P : Tableau α → Prop}
    (hstep : ∀ t leaving entering, P t → t.nextMove objective = .exchange leaving entering →
      P (t.exchange leaving entering)) {limit : Nat} {t u : Tableau α} (ht : P t)
    (h : t.descend objective limit = .ok u) : P u ∧ u.nextMove objective = .done := by
  obtain ⟨k, rfl, hdone, -⟩ := exists_stage_of_descend h
  exact ⟨stage_induction hstep ht k, hdone⟩

/-- A search whose moves come to an end ends there, whatever limit it is given
    beyond that. -/
theorem descend_eq_ok {objective : Symbol} {k : Nat} :
    ∀ {t : Tableau α}, (∀ j, j < k → (t.stage objective j).Moves objective) →
      (t.stage objective k).nextMove objective = .done →
      ∀ {limit : Nat}, k ≤ limit → t.descend objective limit = .ok (t.stage objective k) := by
  induction k with
  | zero =>
      intro t _ hdone limit _
      have hdone : t.nextMove objective = .done := hdone
      rw [descend_eq]
      rw [hdone]
      rfl
  | succ k ih =>
      intro t hmoves hdone limit hlimit
      obtain ⟨leaving, entering, hmove⟩ : t.Moves objective := hmoves 0 (Nat.succ_pos k)
      obtain ⟨limit, rfl⟩ : ∃ n, limit = n + 1 := ⟨limit - 1, by omega⟩
      rw [descend_eq]
      rw [hmove]
      simp only
      rw [← advance_of_nextMove hmove]
      exact ih (fun j hj => hmoves (j + 1) (Nat.succ_lt_succ hj)) hdone
        (Nat.le_of_succ_le_succ hlimit)

/-- A search whose moves never come to an end is given up, whatever limit it is
    given. -/
theorem descend_eq_endlessSearch {objective : Symbol} {limit : Nat} :
    ∀ {t : Tableau α}, (∀ j, (t.stage objective j).Moves objective) →
      t.descend objective limit = .error .endlessSearch := by
  induction limit with
  | zero =>
      intro t hmoves
      obtain ⟨leaving, entering, hmove⟩ : t.Moves objective := hmoves 0
      rw [descend_eq]
      rw [hmove]
  | succ limit ih =>
      intro t hmoves
      obtain ⟨leaving, entering, hmove⟩ : t.Moves objective := hmoves 0
      rw [descend_eq]
      rw [hmove]
      simp only
      rw [← advance_of_nextMove hmove]
      exact ih fun j => hmoves (j + 1)

/-! ## Moves that are blocked -/

/-- A move that lowers a restricted objective is blocked at least by the
    objective itself. -/
theorem nextMove_ne_unbounded {objective : Symbol} {t : Tableau α}
    (hrate : ∀ {s c direction}, t.Lowers s c direction → direction.rate c < -t.epsilon)
    (hobj : objective.isRestricted = true) : t.nextMove objective ≠ .unbounded := by
  intro h
  unfold nextMove at h
  split at h
  · exact nomatch h
  · next row hrow =>
      split at h
      · exact nomatch h
      · split at h
        · exact nomatch h
        · next entering direction hent =>
            split at h
            · next hnone =>
                -- the row of the objective itself passes the ratio test
                obtain ⟨c, hc, hlow⟩ := lowers_of_entering? hent
                have hempty := leastBy?_eq_none_iff.mp hnone
                have hmem := mem_ratios_iff.mpr ⟨row, hrow, hobj,
                  LinearForm.coefficient_of_get? hc ▸ hrate hlow, rfl⟩
                rw [hempty] at hmem
                exact nomatch hmem
            · exact nomatch h

/-- Where a search ends, the objective is gone, has come to zero, or has no
    cell left that lowers it. -/
theorem nextMove_eq_done {objective : Symbol} {t : Tableau α}
    (h : t.nextMove objective = .done) {row : Row α} (hrow : t.row? objective = some row)
    (hpos : ¬ row.constant ≤ t.epsilon) {s : Symbol} {c : α} (hc : row.terms.get? s = some c)
    (direction : Direction) : ¬ t.Lowers s c direction := by
  intro hlow
  unfold nextMove at h
  rw [hrow] at h
  simp only [if_neg hpos] at h
  cases hent : t.entering? row with
  | some a =>
      rw [hent] at h
      obtain ⟨entering, d⟩ := a
      simp only at h
      split at h
      · exact nomatch h
      · exact nomatch h
  | none =>
      have hnone := List.findSome?_eq_none_iff.mp hent (s, c) (OrderedMap.mem_entries_iff.mpr hc)
      simp only at hnone
      rcases hlow with ⟨hs, hlt, -⟩ | ⟨hs, hlt, -⟩
      · rw [if_pos ⟨hs, hlt⟩] at hnone
        exact nomatch hnone
      · split at hnone
        · exact nomatch hnone
        · rw [if_pos ⟨hs, hlt⟩] at hnone
          exact nomatch hnone

end LinearConstraints.Tableau
