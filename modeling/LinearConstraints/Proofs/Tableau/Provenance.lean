import LinearConstraints.Proofs.Tableau.Upkeep

/-! # Where the made-up symbols of a tableau come from

    A tableau holds no made-up symbol of its own accord: each of them is the
    marker of a relation that has been imposed and not withdrawn.  Imposing
    brings one marker in, and withdrawing takes one out, wherever the marker
    has been moved in the meantime.  A repair takes rows out and absorbs them
    again, over the same symbols.  Which cells are dropped on the way is left
    to the arithmetic, so nothing is said about the markers that are not
    mentioned. -/

namespace LinearConstraints.Tableau

variable {α : Type} {t t' : Tableau α} {marker : Symbol} {markers : List Symbol}

/-- Whether every made-up symbol of a tableau is one of the markers. -/
def AccountedBy (t : Tableau α) (markers : List Symbol) : Prop :=
  ∀ u, t.mentions u = true → u.isExternal = true ∨ u ∈ markers

theorem accountedBy_empty (epsilon : α) : (empty epsilon).AccountedBy [] :=
  fun _ h => nomatch h

/-- Fewer symbols are accounted for by the same markers. -/
theorem AccountedBy.mono (h : t.AccountedBy markers)
    (hsub : ∀ u, t'.mentions u = true → t.mentions u = true) : t'.AccountedBy markers :=
  fun u hu => h u (hsub u hu)

variable [Scalar α]

/-! ## Imposing -/

/-- Imposing brings in variables and the marker of the relation. -/
theorem WellFormed.mentions_of_impose (ht : t.WellFormed) {editable : VariableId → Bool}
    {r : Relation α} (h : t.impose editable r = .ok (marker, t')) {u : Symbol}
    (hu : t'.mentions u = true) : u.isExternal = true ∨ u = marker ∨ t.mentions u = true := by
  have hrow : ∀ {u}, (t.rowOf r).mentions u = true →
      u.isExternal = true ∨ u = t.marker r.comparison ∨ t.mentions u = true := by
    intro u hm
    rcases mentions_of_rowOf ht.separated hm with rfl | ⟨-, hext | hm⟩
    · exact Or.inr (Or.inl rfl)
    · exact Or.inl hext
    · exact Or.inr (Or.inr hm)
  obtain ⟨rfl, ⟨subject, hsub, rfl⟩ | ⟨-, -, -, rfl⟩ | ⟨-, -, habs⟩⟩ := impose_cases h
  · rcases mentions_of_define hu with rfl | hm | hm
    · exact (subject?_spec hsub).imp (·.1) fun h => Or.inl h.1
    · exact Or.inr (Or.inr hm)
    · exact hrow (Row.mentions_isolate.mp hm).2
  · rcases mentions_of_insertRow hu with rfl | hm | hm
    · exact Or.inr (Or.inl rfl)
    · exact Or.inr (Or.inr hm)
    · exact hrow (Row.mentions_isolate.mp hm).2
  · rcases ht.next.tidy.mentions_of_absorb (ht.fits_rowOf r).suits habs hu with hm | hm
    · exact Or.inr (Or.inr hm)
    · exact hrow hm

theorem AccountedBy.impose (hacc : t.AccountedBy markers) (ht : t.WellFormed)
    {editable : VariableId → Bool} {r : Relation α}
    (h : t.impose editable r = .ok (marker, t')) : t'.AccountedBy (markers ++ [marker]) := by
  intro u hu
  rcases ht.mentions_of_impose h hu with hext | rfl | hm
  · exact Or.inl hext
  · exact Or.inr (List.mem_append_right _ (List.mem_singleton.mpr rfl))
  · exact (hacc u hm).imp_right (List.mem_append_left _)

/-! ## Withdrawing -/

/-- Withdrawing brings nothing in and leaves nothing of the marker. -/
theorem WellFormed.mentions_of_withdraw (ht : t.WellFormed) (h : t.withdraw marker = .ok t')
    {u : Symbol} (hu : t'.mentions u = true) : u ≠ marker ∧ t.mentions u = true := by
  rcases withdraw_cases h with ⟨hb, rfl⟩ | ⟨hb, leaving, row, hdonor, rfl⟩ | ⟨hm, rfl⟩
  · refine ⟨?_, mentions_of_eraseRow hu⟩
    rintro rfl
    -- a basic marker has no cell, so nothing of it is left once its row is gone
    rcases mentions_iff.mp hu with hbasic | ⟨s, row, hrow, hm⟩
    · exact (isBasic_eraseRow_iff.mp hbasic).1 rfl
    · exact ht.separated.not_mentions (row?_of_eraseRow hrow).2 hb hm
  · have hrow := (donor?_spec hdonor).1
    refine ⟨?_, mentions_of_substitute_donor hrow hu⟩
    rintro rfl
    -- a parametric marker is replaced by a row that is solved for it
    rcases mentions_iff.mp hu with hbasic | ⟨s, r, hr, hm⟩
    · exact hb (isBasic_eraseRow_iff.mp (OrderedMap.mem_mapValues_iff.mp hbasic)).2
    · rw [row?_substitute] at hr
      obtain ⟨old, -, rfl⟩ := Option.map_eq_some_iff.mp hr
      rcases Row.mentions_substitute hm with ⟨hne, -⟩ | ⟨-, hm⟩
      · exact hne rfl
      · exact (Row.mentions_exchange hm).1 rfl
  · refine ⟨?_, hu⟩
    rintro rfl
    exact hm hu

end LinearConstraints.Tableau
