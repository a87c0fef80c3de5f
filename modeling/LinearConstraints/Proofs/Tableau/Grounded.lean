import LinearConstraints.Proofs.Tableau.Solutions
import LinearConstraints.Proofs.Tableau.Upkeep

/-! # Dummies stand at zero

    The mark of an equation is worth nothing.  A dummy gets a row only where
    its constant is set to zero, and since rows of dummies hold nothing but
    dummies, no later exchange puts anything else into it.  This holds whatever
    the tolerance is. -/

namespace LinearConstraints.Tableau

variable [Tolerance]

/-- Whether every basic dummy stands at zero. -/
def Grounded (t : Tableau Rat) : Prop :=
  ∀ s row, t.row? s = some row → s.isDummy = true → row.constant = 0

omit [Tolerance] in
theorem grounded_empty (epsilon : Rat) : (empty epsilon).Grounded := by
  intro s row h
  exact nomatch h

theorem Grounded.valueOf_eq_zero {t : Tableau Rat} (ht : t.Grounded) {s : Symbol}
    (hs : s.isDummy = true) : t.valueOf s = 0 := by
  by_cases hb : t.isBasic s = true
  · obtain ⟨row, hrow⟩ := isBasic_iff.mp hb
    rw [valueOf_of_row? hrow, ht s row hrow hs]
  · exact valueOf_of_not_isBasic hb

/-- Whatever variables and slacks are worth, dummies are worth nothing as long
    as the parametric ones are. -/
theorem Grounded.extend_eq_zero {t : Tableau Rat} (ht : t.Grounded) (hsep : t.Separated)
    (hlayered : t.Layered) {point : Symbol → Rat}
    (hpoint : ∀ u, u.isDummy = true → ¬ t.isBasic u = true → point u = 0) {s : Symbol}
    (hs : s.isDummy = true) : t.extend point s = 0 := by
  by_cases hb : t.isBasic s = true
  · obtain ⟨row, hrow⟩ := isBasic_iff.mp hb
    have honly := Row.onlyDummies_iff.mp (hlayered s row hrow hs)
    rw [extend_of_row? hrow, LinearForm.evaluate_eq_constant, ht s row hrow hs]
    exact fun u hu => hpoint u (honly u hu) fun hub => hsep.not_mentions hrow hub hu
  · rw [extend_of_not_isBasic hb, hpoint s hs hb]

/-- A row without a constant has none when it is solved for another symbol. -/
theorem constant_exchange_of_zero {row : Row Rat} (h : row.constant = 0)
    (leaving entering : Symbol) : (row.exchange leaving entering).constant = 0 := by
  show (row.setTerm leaving (-1)).constant * _ = 0
  rw [show (row.setTerm leaving (-1)).constant = row.constant from rfl, h, zero_mul]

/-- Exchanges for a symbol that is no dummy do not reach the rows of dummies. -/
theorem Grounded.exchange {t : Tableau Rat} (ht : t.Grounded) (hlayered : t.Layered)
    {leaving entering : Symbol} {row : Row Rat} (hrow : t.row? leaving = some row)
    (hent : entering.isDummy = false) : (t.exchange leaving entering).Grounded := by
  intro s r hr hs
  rw [exchange_of_row? hrow] at hr
  rcases row?_of_define hr with ⟨rfl, -⟩ | ⟨-, old, hold, rfl⟩
  · rw [hent] at hs
    exact nomatch hs
  · have hold := (row?_of_eraseRow hold).2
    rw [Row.substitute_of_not_mentions (hlayered.not_mentions_of_dummy hold hs hent)]
    exact ht s old hold hs

theorem Grounded.retire {t : Tableau Rat} (ht : t.Grounded) (artificial : Symbol) :
    (t.retire artificial).Grounded := by
  intro s retired hretired hs
  rw [retire_eq, row?_eraseColumn] at hretired
  obtain ⟨r, hr, rfl⟩ := Option.map_eq_some_iff.mp hretired
  show r.constant = 0
  rcases vacate_cases t artificial with ⟨-, h⟩ | ⟨_, -, -, h⟩ | ⟨art, entering, hart, hsucc, h⟩
  · rw [h] at hr
    exact ht s r hr hs
  · rw [h] at hr
    exact ht s r (row?_of_eraseRow hr).2 hs
  · rw [h] at hr
    -- the artificial is worth nothing when it is exchanged
    have hnew : (Row.exchange { art with constant := 0 } artificial entering).constant = 0 :=
      constant_exchange_of_zero rfl artificial entering
    rcases row?_of_define hr with ⟨-, rfl⟩ | ⟨-, old, hold, rfl⟩
    · exact hnew
    · rw [Row.constant_substitute, hnew, ht s old (row?_of_eraseRow hold).2 hs]
      ring

/-! ## The calls on a tableau -/

omit [Tolerance] in
/-- The row of an artificial is no row of a dummy. -/
theorem Grounded.charge {t : Tableau Rat} (ht : t.Grounded) (row : Row Rat) :
    (t.charge row).Grounded := by
  intro s r hr hs
  rcases row?_of_insertRow hr with ⟨rfl, -⟩ | ⟨-, hr⟩
  · exact nomatch hs
  · exact ht s r hr hs

theorem Grounded.descend {t u : Tableau Rat} (ht : t.Grounded) {artificial objective : Symbol}
    (hosts : t.Hosts artificial) {limit : Nat} (h : t.descend objective limit = .ok u) :
    u.Grounded := by
  refine (descend_induction (P := fun u => u.Grounded ∧ u.Hosts artificial) ?_ ⟨ht, hosts⟩ h).1.1
  intro u leaving entering hu hmove
  obtain ⟨⟨row, hrow⟩, -, hmem, hent⟩ := kinds_of_nextMove hmove
  exact ⟨hu.1.exchange hu.2.layered hrow hent, hu.2.exchange hrow hmem hent⟩

theorem Grounded.absorb {t t' : Tableau Rat} (ht : t.Grounded) (htidy : t.Tidy)
    {row : Row Rat} (hrow : t.Suits row) {reason : Refusal Rat}
    (h : t.absorb reason row = .ok t') : t'.Grounded := by
  obtain ⟨u, hu, -, rfl⟩ := exists_of_absorb h
  exact ((ht.charge row).descend (htidy.charge hrow) hu).retire _

theorem Grounded.impose {t t' : Tableau Rat} (ht : t.Grounded) (hwf : t.WellFormed)
    {editable : VariableId → Bool} {r : Relation Rat} {m : Symbol}
    (h : t.impose editable r = .ok (m, t')) : t'.Grounded := by
  obtain ⟨rfl, ⟨subject, hsub, rfl⟩ | ⟨-, -, -, rfl⟩ | ⟨-, -, habs⟩⟩ := impose_cases h
  · obtain ⟨hfresh, hdummy, -, -⟩ := hwf.subject_fresh hsub
    intro s row hrow hs
    have hne : s ≠ subject := by
      rintro rfl
      rw [hdummy] at hs
      exact nomatch hs
    rw [row?_define_fresh (t := { t with nextIndex := t.nextIndex + 1 }) hfresh hne] at hrow
    exact ht s row hrow hs
  · intro s row hrow hs
    rcases row?_of_insertRow hrow with ⟨rfl, rfl⟩ | ⟨-, hrow⟩
    · exact zero_mul _
    · exact ht s row hrow hs
  · exact Grounded.absorb (t := { t with nextIndex := t.nextIndex + 1 }) ht hwf.next.tidy
      (hwf.fits_rowOf r).suits habs

theorem Grounded.withdraw {t t' : Tableau Rat} (ht : t.Grounded) {marker : Symbol}
    (h : t.withdraw marker = .ok t') : t'.Grounded := by
  rcases withdraw_cases h with ⟨-, rfl⟩ | ⟨-, leaving, row, hdonor, rfl⟩ | ⟨-, rfl⟩
  · intro s r hr hs
    exact ht s r (row?_of_eraseRow hr).2 hs
  · intro s r hr hs
    obtain ⟨hrow, hdonorDummy⟩ := donor?_spec hdonor
    rw [row?_substitute] at hr
    obtain ⟨old, hold, rfl⟩ := Option.map_eq_some_iff.mp hr
    have hold := (row?_of_eraseRow hold).2
    by_cases hm : old.mentions marker = true
    · -- then the donor is a dummy too, and its row has no constant
      have hzero := ht leaving row hrow (hdonorDummy s old hold hs hm)
      rw [Row.constant_substitute, constant_exchange_of_zero hzero, ht s old hold hs]
      ring
    · rw [Row.substitute_of_not_mentions hm]
      exact ht s old hold hs
  · exact ht

omit [Tolerance] in
theorem Grounded.filter {t : Tableau Rat} (ht : t.Grounded) (p : Symbol → Row Rat → Bool) :
    Grounded { t with rows := t.rows.filter p } := by
  intro s row hrow hs
  exact ht s row (row?_of_filter hrow) hs

theorem Grounded.repair {t t' : Tableau Rat} (ht : t.Grounded) (hwf : t.WellFormed)
    (h : t.repair = .ok t') : t'.Grounded :=
  repair_induction
    (fun _ _ _ _ hu hwf hfits _ habs => Grounded.absorb hu hwf.tidy hfits.suits habs)
    (ht.filter _) hwf h

end LinearConstraints.Tableau
