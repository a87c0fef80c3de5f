import LinearConstraints.Proofs.Tableau.Persistence

/-! # Which symbols a withdrawal severs

    Withdrawing a relation takes one row away, the one of its marker or the
    one of the donor that the marker is replaced through, unless the marker
    occurs nowhere; then nothing is taken away.  A symbol that had its last
    cells in that row, or in cells that become negligible when the marker is
    replaced, is severed: it occurs nowhere any more.  If it was the marker
    of another relation, the row of that relation has lost its owner. -/

namespace LinearConstraints.Tableau

variable {α : Type} [Scalar α] {t t' : Tableau α} {marker s : Symbol}

/-- Whether withdrawing a marker leaves another symbol without a cell. -/
inductive Severs (t : Tableau α) (marker s : Symbol) : Prop where
  /-- The marker is basic, and the symbol occurs in its row alone. -/
  | row (hmentions : t.mentions s = true) (hmarker : t.isBasic marker = true)
      (hparametric : ¬ t.isBasic s = true)
      (halone : ∀ u row, t.row? u = some row → u ≠ marker → ¬ row.mentions s = true)
  /-- The marker is replaced through a donor, whose row goes, and no other row
      mentions the symbol after that. -/
  | donor (hmentions : t.mentions s = true) (hmarker : t.mentions marker = true)
      (hparametric : ¬ t.isBasic marker = true) {leaving : Symbol} {definition : Row α}
      (hdonor : t.donor? marker = some (leaving, definition))
      (hs : s = leaving ∨ ¬ t.isBasic s = true)
      (hlacks : ∀ u row, t.row? u = some row → u ≠ leaving →
        row.Lacks marker (definition.exchange leaving marker) s)

/-- A marker that occurs nowhere is withdrawn without a trace. -/
theorem withdraw_of_not_mentions (h : ¬ t.mentions marker = true) :
    t.withdraw marker = .ok t := by
  rw [withdraw_eq, if_neg fun hb => h (mentions_of_isBasic hb), if_neg h]

/-- Otherwise one row goes. -/
theorem size_withdraw (hmarker : t.mentions marker = true)
    (h : t.withdraw marker = .ok t') : t'.size + 1 = t.size := by
  rcases withdraw_cases h with ⟨hb, rfl⟩ | ⟨-, leaving, row, hdonor, rfl⟩ | ⟨hno, -⟩
  · exact size_eraseRow hb
  · rw [size_substitute]
    exact size_eraseRow (isBasic_of_row? (donor?_spec hdonor).1)
  · exact absurd hmarker hno

omit [Scalar α] in
/-- Where a symbol occurs once a row is gone. -/
theorem mentions_eraseRow_iff {leaving : Symbol} :
    (t.eraseRow leaving).mentions s = true ↔
      (s ≠ leaving ∧ t.isBasic s = true) ∨
        ∃ u row, u ≠ leaving ∧ t.row? u = some row ∧ row.mentions s = true := by
  rw [mentions_iff, isBasic_eraseRow_iff]
  refine or_congr_right (exists_congr fun u => exists_congr fun row => ?_)
  constructor
  · rintro ⟨hrow, hm⟩
    obtain ⟨hu, hrow⟩ := row?_of_eraseRow hrow
    exact ⟨hu, hrow, hm⟩
  · rintro ⟨hu, hrow, hm⟩
    exact ⟨(row?_eraseRow_of_ne t hu).trans hrow, hm⟩

/-- Where a symbol occurs once another one has been replaced in every row. -/
theorem mentions_substitute_iff {definition : Row α} (hne : s ≠ marker) :
    (t.substitute marker definition).mentions s = true ↔
      t.isBasic s = true ∨ ∃ u row, t.row? u = some row ∧ ¬ row.Lacks marker definition s := by
  rw [mentions_iff]
  refine or_congr OrderedMap.mem_mapValues_iff (exists_congr fun u => ?_)
  constructor
  · rintro ⟨row, hrow, hm⟩
    rw [row?_substitute] at hrow
    obtain ⟨old, hold, rfl⟩ := Option.map_eq_some_iff.mp hrow
    exact ⟨old, hold, (Row.mentions_substitute_iff hne).mp hm⟩
  · rintro ⟨row, hrow, hkept⟩
    refine ⟨row.substitute marker definition, ?_, (Row.mentions_substitute_iff hne).mpr hkept⟩
    rw [row?_substitute, hrow]
    rfl

/-- A withdrawal severs exactly the symbols that do not occur any more. -/
theorem severs_iff (h : t.withdraw marker = .ok t') (hne : s ≠ marker)
    (hs : t.mentions s = true) : t.Severs marker s ↔ ¬ t'.mentions s = true := by
  by_cases hmarker : t.mentions marker = true
  swap
  · -- nothing is withdrawn
    obtain rfl := Except.ok.inj ((withdraw_of_not_mentions hmarker).symm.trans h)
    refine ⟨fun hsevers => ?_, fun hlost => absurd hs hlost⟩
    cases hsevers with
    | row _ hb => exact absurd (mentions_of_isBasic hb) hmarker
    | donor _ hm => exact absurd hm hmarker
  rcases withdraw_cases h with ⟨hb, rfl⟩ | ⟨hb, leaving, definition, hdonor, rfl⟩ | ⟨hno, -⟩
  · rw [mentions_eraseRow_iff, not_or]
    constructor
    · rintro (⟨-, -, hparametric, halone⟩ | ⟨-, -, hparametric, -, -, -⟩)
      · exact ⟨fun hbasic => hparametric hbasic.2,
          fun ⟨u, row, hu, hrow, hm⟩ => halone u row hrow hu hm⟩
      · exact absurd hb hparametric
    · rintro ⟨hbasic, hcells⟩
      exact .row hs hb (fun h => hbasic ⟨hne, h⟩)
        fun u row hrow hu hm => hcells ⟨u, row, hu, hrow, hm⟩
  · rw [mentions_substitute_iff hne, isBasic_eraseRow_iff, not_or]
    constructor
    · rintro (⟨-, hbasic, -, -⟩ | ⟨-, -, -, hdonor', hleaving, hlacks⟩)
      · exact absurd hbasic hb
      · obtain ⟨rfl, rfl⟩ := Prod.mk.inj (Option.some.inj (hdonor.symm.trans hdonor'))
        refine ⟨fun hbasic => hleaving.elim hbasic.1 fun h => h hbasic.2, ?_⟩
        rintro ⟨u, row, hrow, hkept⟩
        obtain ⟨hu, hrow⟩ := row?_of_eraseRow hrow
        exact hkept (hlacks u row hrow hu)
    · rintro ⟨hbasic, hcells⟩
      refine .donor hs hmarker hb hdonor ?_ fun u row hrow hu => ?_
      · exact Decidable.or_iff_not_imp_left.mpr fun hl h => hbasic ⟨hl, h⟩
      · by_contra hkept
        exact hcells ⟨u, row, (row?_eraseRow_of_ne t hu).trans hrow, hkept⟩
  · exact absurd hmarker hno

end LinearConstraints.Tableau
