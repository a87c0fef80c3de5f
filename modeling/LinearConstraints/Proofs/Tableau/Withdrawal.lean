import LinearConstraints.Proofs.Tableau.Grounded
import LinearConstraints.Proofs.Tableau.Imposition

/-! # What withdrawing a relation does

    Whatever the tolerance is, every marker that occurs can be withdrawn.  One
    that is parametric first takes over the row of its donor.  The donor is
    chosen so that the exchange makes no restricted symbol negative: it is a
    dummy, which stands at zero, or the first restricted symbol to reach zero
    as the marker moves, or else no restricted symbol moves at all.  So a
    tableau that needs no repair needs none afterwards.

    With exact numbers the exchange keeps the solutions, and those of the
    result are the ones of before with the marker left free. -/

namespace LinearConstraints.Tableau

variable {t t' : Tableau Rat} {marker leaving : Symbol} {row : Row Rat}

section AnyTolerance

variable [Tolerance]

/-! ## The donor -/

/-- Where the marker lowers no row, its cells are not negative. -/
theorem coefficient_nonneg_of_lowered {s : Symbol} {r : Row Rat} (hs : t.row? s = some r)
    (hext : s.isExternal = false) (hnone : t.lowered marker = []) :
    0 ≤ r.coefficient marker := by
  by_contra hneg
  have hlt := not_le.mp hneg
  have hmem := mem_lowered_iff.mpr ⟨OrderedMap.mem_entries_iff.mpr hs,
    by simpa using ne_of_lt hlt, by rw [hext]; rfl, hlt, rfl⟩
  rw [hnone] at hmem
  cases hmem

/-- Where the marker raises no row, its cells are not positive. -/
theorem coefficient_nonpos_of_raised {s : Symbol} {r : Row Rat} (hs : t.row? s = some r)
    (hext : s.isExternal = false) (hnone : t.raised marker = []) :
    r.coefficient marker ≤ 0 := by
  by_contra hpos
  have hlt := not_le.mp hpos
  have hmem := mem_raised_iff.mpr ⟨OrderedMap.mem_entries_iff.mpr hs,
    by simpa using ne_of_gt hlt, by rw [hext]; rfl, not_lt.mpr hlt.le, rfl⟩
  rw [hnone] at hmem
  cases hmem

/-- A parametric marker always finds a donor. -/
theorem Pruned.exists_donor (hp : t.Pruned) (ht : t.WellFormed)
    (hm : t.mentions marker = true) (hb : ¬ t.isBasic marker = true) :
    ∃ leaving row, t.donor? marker = some (leaving, row) := by
  obtain ⟨s, r, hs, hcell⟩ := (mentions_iff.mp hm).resolve_left hb
  have hcoeff := (hp s r hs).coefficient_ne_zero hcell
  cases hdonor : t.donor? marker with
  | some a => exact ⟨a.1, a.2, rfl⟩
  | none =>
      exfalso
      obtain ⟨hnone, hexternal⟩ := Option.or_eq_none_iff.mp hdonor
      obtain ⟨hnone, hraised⟩ := Option.or_eq_none_iff.mp hnone
      obtain ⟨hdummy, hlowered⟩ := Option.or_eq_none_iff.mp hnone
      -- the row that mentions the marker would have been taken
      cases s with
      | dummy i =>
          have := OrderedMap.find?_eq_none_iff.mp hdummy _ r hs
          rw [hcell] at this
          exact nomatch this
      | external v =>
          have hkept := OrderedMap.find?_eq_none_iff.mp hexternal _ r hs
          have hbeq : (!(r.coefficient marker == 0)) = true := by simpa using hcoeff
          rw [hbeq] at hkept
          cases hkept
      | artificial i =>
          exact nomatch ht.settled _ (mentions_of_isBasic (isBasic_of_row? hs))
      | slack i =>
          exact hcoeff (le_antisymm
            (coefficient_nonpos_of_raised hs rfl (leastBy?_eq_none_iff.mp hraised))
            (coefficient_nonneg_of_lowered hs rfl (leastBy?_eq_none_iff.mp hlowered)))

/-- The row of a donor can be solved for the marker. -/
theorem Pruned.coefficient_donor (hp : t.Pruned) (h : t.donor? marker = some (leaving, row)) :
    row.coefficient marker ≠ 0 := by
  rcases donor?_cases h with ⟨-, hm, hrow⟩ | ⟨-, hlow | ⟨-, hraised⟩ | ⟨-, -, -, hne, -⟩⟩
  · exact (hp leaving row hrow).coefficient_ne_zero hm
  · obtain ⟨x, hx⟩ := mem_of_leastBy? hlow
    exact ne_of_lt (mem_lowered_iff.mp hx).2.2.2.1
  · obtain ⟨x, hx⟩ := mem_of_leastBy? hraised
    simpa using (mem_raised_iff.mp hx).2.1
  · simpa using hne

/-- Only variables may be negative. -/
theorem Nonnegative.constant_nonneg (hn : t.Nonnegative) (hg : t.Grounded) {s : Symbol} {r : Row Rat}
    (hs : t.row? s = some r) (hext : (!s.isExternal) = true) : 0 ≤ r.constant := by
  cases s with
  | external v => exact nomatch hext
  | dummy i => rw [hg (.dummy i) r hs rfl]
  | slack i | artificial i =>
      rw [← valueOf_of_row? hs]
      exact hn _ rfl

/-- As the marker moves to where the donor reaches zero, no restricted symbol
    becomes negative. -/
theorem Nonnegative.nonneg_of_donor (hn : t.Nonnegative) (hg : t.Grounded)
    (h : t.donor? marker = some (leaving, row)) {s : Symbol} {r : Row Rat}
    (hs : t.row? s = some r) (hres : s.isRestricted = true) :
    0 ≤ r.constant + r.coefficient marker * (-row.constant / row.coefficient marker) := by
  have hrow := (donor?_spec h).1
  have hentry := OrderedMap.mem_entries_iff.mpr hs
  have hext : (!s.isExternal) = true := by rw [Symbol.not_isExternal_of_isRestricted hres]; rfl
  have hconst := hn.constant_nonneg hg hs hext
  rcases donor?_cases h with ⟨hdum, -, -⟩ | ⟨-, hlow | ⟨hnone, hraised⟩ | ⟨hlow, hraised, -⟩⟩
  · -- a dummy stands at zero, so nothing moves
    rw [hg leaving row hrow hdum, neg_zero, zero_div, mul_zero, add_zero]
    exact hconst
  · -- the marker moves upwards, and the rows that it lowers reach zero no sooner
    obtain ⟨x, hx, hmin⟩ := leastBy?_least hlow
    obtain ⟨-, -, hl, hneg, rfl⟩ := mem_lowered_iff.mp hx
    have hmove : 0 ≤ -row.constant / row.coefficient marker :=
      div_nonneg_of_nonpos (neg_nonpos.mpr (hn.constant_nonneg hg hrow hl)) (le_of_lt hneg)
    by_cases hc : r.coefficient marker < 0
    · have hle := hmin (s, r) _ (mem_lowered_iff.mpr
        ⟨hentry, by simpa using ne_of_lt hc, hext, hc, rfl⟩)
      have := mul_le_mul_of_nonpos_left hle (le_of_lt hc)
      rw [mul_div_cancel₀ _ (ne_of_lt hc)] at this
      linarith
    · have := mul_nonneg (not_lt.mp hc) hmove
      linarith
  · -- the marker moves downwards, and lowers the rows whose cells are positive
    obtain ⟨x, hx, hmin⟩ := leastBy?_least hraised
    obtain ⟨-, hne, hl, hpos, rfl⟩ := mem_raised_iff.mp hx
    by_cases hc : r.coefficient marker = 0
    · rw [hc, zero_mul, add_zero]
      exact hconst
    · have hcpos := coefficient_nonneg_of_lowered hs (by simpa using hext) hnone
      have hle := hmin (s, r) _ (mem_raised_iff.mpr
        ⟨hentry, by simpa using hc, hext, not_lt.mpr hcpos, rfl⟩)
      have := mul_le_mul_of_nonneg_left hle hcpos
      rw [mul_div_cancel₀ _ hc] at this
      rw [neg_div, mul_neg]
      linarith
  · -- no restricted symbol moves with the marker
    have hc : r.coefficient marker = 0 :=
      le_antisymm (coefficient_nonpos_of_raised hs (by simpa using hext) hraised)
        (coefficient_nonneg_of_lowered hs (by simpa using hext) hlow)
    rw [hc, zero_mul, add_zero]
    exact hconst

/-! ## Withdrawing -/

/-- A marker is set free through its donor in an exchange, after which its row
    goes. -/
theorem substitute_donor_eq (hrow : t.row? leaving = some row)
    (hb : ¬ t.isBasic marker = true) :
    (t.eraseRow leaving).substitute marker (row.exchange leaving marker)
      = (t.exchange leaving marker).eraseRow marker := by
  rw [exchange_of_row? hrow, eraseRow_define]
  intro hb'
  exact hb (isBasic_eraseRow_iff.mp hb').2

/-- Every marker that has not been lost can be withdrawn. -/
theorem Pruned.exists_withdraw (hp : t.Pruned) (ht : t.WellFormed) (marker : Symbol) :
    ∃ t', t.withdraw marker = .ok t' := by
  rw [withdraw_eq]
  by_cases hb : t.isBasic marker = true
  · rw [if_pos hb]
    exact ⟨_, rfl⟩
  · rw [if_neg hb]
    by_cases hm : t.mentions marker = true
    · obtain ⟨leaving, row, hdonor⟩ := hp.exists_donor ht hm hb
      rw [if_pos hm, hdonor]
      exact ⟨_, rfl⟩
    · rw [if_neg hm]
      exact ⟨_, rfl⟩

theorem Nonnegative.eraseRow (hn : t.Nonnegative) (marker : Symbol) :
    (t.eraseRow marker).Nonnegative := by
  intro s hs
  by_cases hne : s = marker
  · subst hne
    simp only [valueOf]
    rw [row?_eraseRow_self]
  · simp only [valueOf]
    rw [row?_eraseRow_of_ne t hne]
    exact hn s hs

/-- The exchange with its donor makes no restricted symbol but the marker
    negative. -/
theorem Nonnegative.exchange_donor (hn : t.Nonnegative) (hp : t.Pruned) (hg : t.Grounded)
    (hb : ¬ t.isBasic marker = true) (h : t.donor? marker = some (leaving, row)) :
    ((t.exchange leaving marker).eraseRow marker).Nonnegative := by
  have hrow := (donor?_spec h).1
  have hne : leaving ≠ marker := by
    rintro rfl
    exact hb (isBasic_of_row? hrow)
  intro s hs
  by_cases hbs : ((t.exchange leaving marker).eraseRow marker).isBasic s = true
  · obtain ⟨hsm, hbs⟩ := isBasic_eraseRow_iff.mp hbs
    obtain ⟨r, hsr⟩ := isBasic_iff.mp (((isBasic_exchange_iff hrow).mp hbs).resolve_left hsm).2
    have hvalue : ((t.exchange leaving marker).eraseRow marker).valueOf s
        = (t.exchange leaving marker).valueOf s := by
      simp only [valueOf]
      rw [row?_eraseRow_of_ne _ hsm]
    have hslope : t.slope marker leaving ≠ 0 := by
      rw [slope_of_row? hrow hne]
      exact hp.coefficient_donor h
    rw [hvalue, valueOf_exchange (isBasic_of_row? hrow) hb hslope, slope_of_row? hrow hne,
      slope_of_row? hsr hsm, valueOf_of_row? hrow, valueOf_of_row? hsr]
    exact hn.nonneg_of_donor hg h hsr hs
  · rw [valueOf_of_not_isBasic hbs]

/-- Withdrawing makes no restricted symbol negative. -/
theorem Nonnegative.withdraw (hn : t.Nonnegative) (hp : t.Pruned) (hg : t.Grounded)
    (h : t.withdraw marker = .ok t') : t'.Nonnegative := by
  rcases withdraw_cases h with ⟨-, rfl⟩ | ⟨hb, leaving, row, hdonor, rfl⟩ | ⟨-, rfl⟩
  · exact hn.eraseRow marker
  · rw [substitute_donor_eq (donor?_spec hdonor).1 hb]
    exact hn.exchange_donor hp hg hb hdonor
  · exact hn

/-! ## Repairing -/

omit [Tolerance] in
/-- Whether no basic slack is negative, with no tolerance. -/
def InBounds (t : Tableau Rat) : Prop :=
  ∀ i row, t.row? (.slack i) = some row → 0 ≤ row.constant

/-- Without artificials, slacks are all that is restricted. -/
theorem Tidy.nonnegative_iff (ht : t.Tidy) : t.Nonnegative ↔ t.InBounds := by
  constructor
  · intro hn i row hrow
    rw [← valueOf_of_row? hrow]
    exact hn (.slack i) rfl
  · intro hbounds s hs
    by_cases hb : t.isBasic s = true
    · obtain ⟨row, hrow⟩ := isBasic_iff.mp hb
      rw [valueOf_of_row? hrow]
      cases s with
      | external v => exact nomatch hs
      | slack i => exact hbounds i row hrow
      | dummy i => exact nomatch hs
      | artificial i => exact absurd (mentions_of_isBasic hb) (ht.not_mentions_artificial i)
    · rw [valueOf_of_not_isBasic hb]

theorem Nonnegative.isFeasible (hn : t.Nonnegative) (heps : 0 ≤ t.epsilon) :
    t.isFeasible = true := by
  refine OrderedMap.all_iff.mpr fun s row hs => ?_
  cases hres : s.isRestricted with
  | false => rfl
  | true =>
      have hnonneg := hn s hres
      rw [valueOf_of_row? hs] at hnonneg
      exact decide_eq_true (le_trans (neg_nonpos.mpr heps) hnonneg)

/-- A tableau in which no restricted symbol is negative needs no repair. -/
theorem Nonnegative.repair_eq (hn : t.Nonnegative) (heps : 0 ≤ t.epsilon) :
    t.repair = .ok t := by
  have hkeep : ∀ s row, t.row? s = some row → t.isNegative s row = false := by
    intro s row hs
    simp only [isNegative]
    cases hres : s.isRestricted with
    | false => rfl
    | true =>
        have hnonneg := hn s hres
        rw [valueOf_of_row? hs] at hnonneg
        rw [Bool.true_and, decide_eq_false_iff_not, not_lt]
        exact le_trans (neg_nonpos.mpr heps) hnonneg
  have hnone : t.negativeRows = [] := by
    refine List.map_eq_nil_iff.mpr (List.filter_eq_nil_iff.mpr fun a ha => ?_)
    rw [hkeep a.1 a.2 (OrderedMap.mem_entries_iff.mp ha)]
    exact Bool.false_ne_true
  have hrows : t.rows.filter (fun s row => !t.isNegative s row) = t.rows := by
    refine OrderedMap.ext_entries (List.filter_eq_self.mpr fun a ha => ?_)
    show (!t.isNegative a.1 a.2) = true
    rw [hkeep a.1 a.2 (OrderedMap.mem_entries_iff.mp ha)]
    rfl
  rw [repair_eq_absorbAll, hnone, hrows]
  rfl

end AnyTolerance

/-! ## With exact numbers -/

open Exact

/-- What becomes of a tableau when a marker is set free. -/
structure Freed (t : Tableau Rat) (marker : Symbol) (t' : Tableau Rat) : Prop where
  /-- The result is ready for the next call. -/
  ready : t'.Ready
  /-- There is one row less. -/
  size_eq : t'.size + 1 = t.size
  /-- The marker may have any value. -/
  satisfies_iff : ∀ value, t'.Satisfies value
    ↔ ∃ x, t.Satisfies (Function.update value marker x)

theorem Ready.freed_basic (hr : t.Ready) (hb : t.isBasic marker = true) :
    t.Freed marker (t.eraseRow marker) where
  ready := ⟨hr.separated.eraseRow marker, hr.pruned.eraseRow marker, hr.epsilon_eq,
    hr.nonnegative.eraseRow marker⟩
  size_eq := size_eraseRow hb
  satisfies_iff := hr.separated.satisfies_eraseRow hb

/-- A parametric marker is set free through its donor. -/
theorem Ready.freed_donor (hr : t.Ready) (hg : t.Grounded)
    (hb : ¬ t.isBasic marker = true) (h : t.donor? marker = some (leaving, row)) :
    t.Freed marker ((t.eraseRow leaving).substitute marker (row.exchange leaving marker)) := by
  have hrow := (donor?_spec h).1
  have hcoeff := hr.pruned.coefficient_donor h
  have hbasic : (t.exchange leaving marker).isBasic marker = true :=
    (isBasic_exchange_iff hrow).mpr (Or.inl rfl)
  have hsep : (t.exchange leaving marker).Separated := hr.separated.exchange hrow
  rw [substitute_donor_eq hrow hb]
  -- an exchange keeps the solutions, and the row of the marker is all that fixes its value
  refine ⟨⟨hsep.eraseRow marker, (hr.pruned.exchange leaving marker).eraseRow marker,
    (epsilon_exchange ..).trans hr.epsilon_eq,
    hr.nonnegative.exchange_donor hr.pruned hg hb h⟩, ?_, fun value => ?_⟩
  · rw [size_eraseRow hbasic, size_exchange hrow hb]
  · rw [hsep.satisfies_eraseRow hbasic]
    exact exists_congr fun x => hr.separated.satisfies_exchange hrow hcoeff

/-- A marker that occurs is always set free. -/
theorem Ready.exists_withdraw (hr : t.Ready) (ht : t.WellFormed) (hg : t.Grounded)
    (hm : t.mentions marker = true) :
    ∃ t', t.withdraw marker = .ok t' ∧ t.Freed marker t' := by
  obtain ⟨t', h⟩ := hr.pruned.exists_withdraw ht marker
  refine ⟨t', h, ?_⟩
  rcases withdraw_cases h with ⟨hb, rfl⟩ | ⟨hb, leaving, row, hdonor, rfl⟩ | ⟨hnot, -⟩
  · exact hr.freed_basic hb
  · exact hr.freed_donor hg hb hdonor
  · exact absurd hm hnot

theorem Ready.isFeasible (hr : t.Ready) : t.isFeasible = true :=
  hr.nonnegative.isFeasible hr.epsilon_eq.ge

/-- A feasible tableau needs no repair. -/
theorem Ready.repair_eq (hr : t.Ready) : t.repair = .ok t :=
  hr.nonnegative.repair_eq hr.epsilon_eq.ge

end LinearConstraints.Tableau
