import LinearConstraints.Proofs.Tableau.Solutions
import LinearConstraints.Proofs.Tableau.Upkeep

/-! # No row has a zero cell

    A cell is stored only if it is not negligible, and zero always is.  An
    exchange rescales a whole row without looking at its cells again, but the
    factor is minus one over a cell that is stored, so that no cell becomes
    zero.  Hence no call on a tableau ever makes a zero cell, whatever the
    tolerance, and every symbol that a row mentions can be solved for. -/

namespace LinearConstraints.Tableau

variable [Tolerance] {t t' : Tableau Rat}

omit [Tolerance] in
theorem pruned_empty (epsilon : Rat) : (empty epsilon).Pruned := by
  intro s row h
  exact nomatch h

omit [Tolerance] in
theorem Pruned.insertRow (ht : t.Pruned) (s : Symbol) {row : Row Rat} (hrow : row.Pruned)
    (next : Nat) : Pruned { t with rows := t.rows.insert s row, nextIndex := next } := by
  intro u r hr
  rcases row?_of_insertRow hr with ⟨-, rfl⟩ | ⟨-, hr⟩
  · exact hrow
  · exact ht u r hr

omit [Tolerance] in
theorem Pruned.filter (ht : t.Pruned) (p : Symbol → Row Rat → Bool) :
    Pruned { t with rows := t.rows.filter p } :=
  fun s row hrow => ht s row (row?_of_filter hrow)

/-! ## Absorbing -/

theorem Pruned.retire (ht : t.Pruned) (artificial : Symbol) : (t.retire artificial).Pruned := by
  rw [retire_eq]
  refine Pruned.eraseColumn ?_ artificial
  rcases vacate_cases t artificial with ⟨-, h⟩ | ⟨_, -, -, h⟩ | ⟨row, entering, hrow, -, h⟩
  · rw [h]
    exact ht
  · rw [h]
    exact ht.eraseRow artificial
  · rw [h]
    have hzero : LinearForm.Pruned { row with constant := 0 } := ht artificial row hrow
    exact (ht.eraseRow artificial).define entering (Row.pruned_exchange hzero artificial entering)

theorem Pruned.descend (ht : t.Pruned) {objective : Symbol} {limit : Nat}
    (h : t.descend objective limit = .ok t') : t'.Pruned :=
  (descend_induction (P := Pruned)
    (fun _ leaving entering hu _ => hu.exchange leaving entering) ht h).1

theorem Pruned.absorb (ht : t.Pruned) {row : Row Rat} (hrow : row.Pruned)
    {reason : Refusal Rat} (h : t.absorb reason row = .ok t') : t'.Pruned := by
  obtain ⟨u, hu, -, rfl⟩ := exists_of_absorb h
  exact (Pruned.descend (ht.insertRow _ hrow _) hu).retire _

/-! ## Imposing -/

theorem pruned_express (t : Tableau Rat) (e : Expression Rat) (factor : Rat) :
    (t.express e factor).Pruned := by
  refine OrderedMap.foldl_induction (P := LinearForm.Pruned)
    (LinearForm.pruned_ofConstant _) fun row v c _ hrow => ?_
  split
  · exact Row.pruned_addMultiple hrow _ _
  · exact Row.pruned_addTerm hrow _ _

theorem pruned_rowOf (t : Tableau Rat) (r : Relation Rat) : (t.rowOf r).Pruned :=
  Row.pruned_orient (Row.pruned_setTerm (t.pruned_express _ _) _ _)

/-- A subject is a symbol that the row can be solved for. -/
theorem coefficient_subject_ne_zero {editable : VariableId → Bool} {r : Relation Rat}
    {subject : Symbol} (h : t.subject? editable r (t.rowOf r) = some subject) :
    (t.rowOf r).coefficient subject ≠ 0 := by
  rcases subject?_spec h with ⟨-, hm, -⟩ | ⟨-, -, hneg⟩
  · exact (t.pruned_rowOf r).coefficient_ne_zero hm
  · exact ne_of_lt hneg

theorem Pruned.impose (ht : t.Pruned) {editable : VariableId → Bool} {r : Relation Rat}
    {m : Symbol} (h : t.impose editable r = .ok (m, t')) : t'.Pruned := by
  have hrow := t.pruned_rowOf r
  have hnext : Pruned { t with nextIndex := t.nextIndex + 1 } := ht
  obtain ⟨rfl, ⟨subject, -, rfl⟩ | ⟨-, -, -, rfl⟩ | ⟨-, -, habs⟩⟩ := impose_cases h
  · exact hnext.define subject (Row.pruned_isolate hrow subject)
  · have hzero : LinearForm.Pruned { t.rowOf r with constant := 0 } := hrow
    exact ht.insertRow _ (Row.pruned_isolate hzero _) _
  · exact hnext.absorb hrow habs

/-! ## Withdrawing and repairing -/

theorem Pruned.withdraw (ht : t.Pruned) {marker : Symbol} (h : t.withdraw marker = .ok t') :
    t'.Pruned := by
  rcases withdraw_cases h with ⟨-, rfl⟩ | ⟨-, leaving, row, -, rfl⟩ | ⟨-, rfl⟩
  · exact ht.eraseRow marker
  · intro s r hr
    rw [row?_substitute] at hr
    obtain ⟨old, hold, rfl⟩ := Option.map_eq_some_iff.mp hr
    exact Row.pruned_substitute (ht.eraseRow leaving s old hold) _ _
  · exact ht

theorem pruned_reduce (t : Tableau Rat) {row : Row Rat} (hrow : row.Pruned) :
    (t.reduce row).Pruned := by
  rw [reduce_eq]
  refine List.foldlRecOn (motive := LinearForm.Pruned) _ t.replace hrow fun r hr s _ => ?_
  unfold replace
  split
  · exact Row.pruned_substitute hr _ _
  · exact hr

theorem Pruned.negativeRows (ht : t.Pruned) {a : Symbol × Row Rat} (ha : a ∈ t.negativeRows) :
    a.2.Pruned := by
  obtain ⟨row, hrow, -, heq⟩ := mem_negativeRows_iff.mp ha
  rw [heq]
  exact Row.pruned_setTerm (ht a.1 row hrow) _ _

theorem Pruned.absorbAll {pending : List (Symbol × Row Rat)} (ht : t.Pruned)
    (hpending : ∀ a ∈ pending, a.2.Pruned) (h : absorbAll pending t = .ok t') : t'.Pruned := by
  induction pending generalizing t with
  | nil =>
      obtain rfl := Except.ok.inj h
      exact ht
  | cons a pending ih =>
      obtain ⟨ha, hrest⟩ := List.forall_mem_cons.mp hpending
      rw [absorbAll_cons] at h
      split at h
      · exact nomatch h
      · next u habs =>
          exact ih (ht.absorb (Row.pruned_orient (t.pruned_reduce ha)) habs) hrest h

theorem Pruned.repair (ht : t.Pruned) (h : t.repair = .ok t') : t'.Pruned :=
  (ht.filter _).absorbAll (fun _ ha => ht.negativeRows ha) h

end LinearConstraints.Tableau
