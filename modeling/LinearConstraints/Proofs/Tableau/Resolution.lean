import LinearConstraints.Proofs.Tableau.Upkeep

/-! # Basic symbols follow from parametric ones

    In a resolved tableau no row mentions a basic symbol.  A row can then be
    read without reading another one first: whatever the parametric symbols
    are worth, the basic ones are determined.  And basic symbols are replaced
    in one pass: what a row brings in has not to be replaced in its turn.

    Repairing takes rows out and absorbs them again, and every exchange on the
    way changes which symbols are basic.  The tableaux that it goes through
    are resolved all the same, so that each row is reduced in one pass when
    its turn comes. -/

namespace LinearConstraints.Tableau

variable {α : Type} [Scalar α] {t : Tableau α}

/-- What it means that basic and parametric symbols stay apart. -/
structure Resolved (t : Tableau α) : Prop where
  /-- No row has a cell of a basic symbol, be it its own or another one. -/
  apart : ∀ s row u, t.row? s = some row → t.isBasic u = true → row.terms.get? u = none
  /-- Once the parametric symbols have values, those of the basic ones follow
      in exactly one way. -/
  determined : ∀ point : Symbol → α, ∃! value : Symbol → α,
    t.Satisfies value ∧ ∀ u, ¬ t.isBasic u = true → value u = point u
  /-- Whatever a row mentions is worth zero in the tableau, so that its constant
      is the value of its symbol. -/
  valueOf_eq_zero : ∀ s row u, t.row? s = some row → row.mentions u = true → t.valueOf u = 0
  /-- No basic symbol is left in a row that has been reduced, -/
  reduced : ∀ row u, t.isBasic u = true → (t.reduce row).terms.get? u = none
  /-- a second pass over it changes nothing, -/
  reduce_reduce : ∀ row, t.reduce (t.reduce row) = t.reduce row
  /-- and none is left in the row of a relation. -/
  expressed : ∀ r u, t.isBasic u = true → (t.rowOf r).terms.get? u = none

/-- Values of the parametric symbols leave the basic ones one value each. -/
theorem Separated.existsUnique_satisfies (ht : t.Separated) (point : Symbol → α) :
    ∃! value : Symbol → α, t.Satisfies value ∧ ∀ u, ¬ t.isBasic u = true → value u = point u := by
  have hpoint : ∀ u, ¬ t.isBasic u = true →
      (t.row? u).elim (point u) (fun row => row.evaluate point) = point u := by
    intro u hu
    rw [row?_eq_none_of_not_isBasic hu]
    rfl
  refine ⟨fun s => (t.row? s).elim (point s) fun row => row.evaluate point, ⟨?_, hpoint⟩, ?_⟩
  · intro s row hrow
    rw [ht.evaluate_congr hpoint hrow]
    show (t.row? s).elim (point s) _ = _
    rw [hrow]
    rfl
  · rintro value ⟨hsat, hvalue⟩
    funext s
    cases hrow : t.row? s with
    | some row => exact (hsat s row hrow).trans (ht.evaluate_congr hvalue hrow)
    | none => exact hvalue s (not_isBasic_of_row? hrow)

/-- A row without basic symbols is reduced already. -/
theorem reduce_eq_self {row : Row α} (h : ∀ u, row.mentions u = true → ¬ t.isBasic u = true) :
    t.reduce row = row := by
  have hnone : row.terms.keys.filter t.isBasic = [] :=
    List.filter_eq_nil_iff.mpr fun u hu => h u (OrderedMap.mem_keys_iff.mp hu)
  rw [reduce_eq, hnone, List.foldl_nil]

/-- A well-formed tableau is resolved. -/
theorem WellFormed.resolved (ht : t.WellFormed) : t.Resolved where
  apart _ _ _ hrow hu :=
    LinearForm.get?_eq_none_of_not_mentions (ht.separated.not_mentions hrow hu)
  determined := ht.separated.existsUnique_satisfies
  valueOf_eq_zero _ _ _ hrow hu :=
    valueOf_of_not_isBasic fun hb => ht.separated.not_mentions hrow hb hu
  reduced _ _ hu :=
    LinearForm.get?_eq_none_of_not_mentions fun hm => (mentions_of_reduce ht.separated hm).1 hu
  reduce_reduce _ := reduce_eq_self fun _ hm => (mentions_of_reduce ht.separated hm).1
  expressed r u hu :=
    LinearForm.get?_eq_none_of_not_mentions fun hm => (ht.fits_rowOf r u hm).1 hu

/-- Whether a repair comes to a tableau into which it has still to absorb a
    row. -/
def MendsThrough (t u : Tableau α) : Prop :=
  ∃ front a back, t.negativeRows = front ++ a :: back ∧
    absorbAll front { t with rows := t.rows.filter fun s row => !t.isNegative s row } = .ok u

/-- Repairing a well-formed tableau goes through well-formed ones. -/
theorem WellFormed.mendsThrough (ht : t.WellFormed) {u : Tableau α} (h : t.MendsThrough u) :
    u.WellFormed := by
  obtain ⟨front, a, back, hrows, habs⟩ := h
  refine (absorbAll_induction (P := fun _ => True) (Q := fun s => t.mentions s = true)
    (fun _ _ _ _ _ _ _ _ _ => trivial) trivial (ht.filter _) (fun b hb s hs => ?_)
    (fun s hs => ⟨ht.numbered s hs, ht.settled s hs⟩) habs).2
  exact mentions_of_negativeRows (hrows ▸ List.mem_append_left _ hb) hs

end LinearConstraints.Tableau
