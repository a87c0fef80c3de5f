import LinearConstraints.Proofs.Tableau.Grounded
import LinearConstraints.Proofs.Tableau.Imposition

/-! # What an exchange may leave below zero

    With a tolerance the ratio test passes over every restricted symbol that
    the move does not lower at a rate beyond the tolerance.  Those it looks at
    end at zero or above.  One that it passes over moves on as far as the step
    is long, however long that is, and may sink below its bound.

    So phase one ends with a symbol out of bounds if and only if some exchange
    on the way sinks one that the ratio test passed over, and no later exchange
    lifts it up again.  Nothing else can spoil a feasible tableau. -/

namespace LinearConstraints.Tableau

variable [Tolerance]

/-! ## Bounds -/

/-- Whether a restricted symbol is out of bounds. -/
def Under (t : Tableau Rat) (s : Symbol) : Prop :=
  s.isRestricted = true ∧ t.valueOf s < -t.epsilon

/-- A tableau is feasible if no symbol is out of bounds. -/
theorem isFeasible_iff {t : Tableau Rat} (heps : 0 ≤ t.epsilon) :
    t.isFeasible = true ↔ ∀ s, ¬ t.Under s := by
  simp only [isFeasible]
  rw [OrderedMap.all_iff]
  constructor
  · rintro h s ⟨hres, hlt⟩
    by_cases hb : t.isBasic s = true
    · obtain ⟨row, hrow⟩ := isBasic_iff.mp hb
      have htest := h s row hrow
      rw [hres, Bool.not_true, Bool.false_or] at htest
      rw [valueOf_of_row? hrow] at hlt
      exact absurd hlt (not_lt.mpr (of_decide_eq_true htest))
    · rw [valueOf_of_not_isBasic hb] at hlt
      linarith
  · intro h s row hrow
    cases hres : s.isRestricted with
    | false => rfl
    | true =>
        rw [Bool.not_true, Bool.false_or]
        refine decide_eq_true (not_lt.mp fun hlt => h s ⟨hres, ?_⟩)
        rwa [valueOf_of_row? hrow]

/-- A restricted symbol that the ratio test looks at does not end below zero. -/
theorem Pivot.nonneg_of_lowered {t : Tableau Rat} {objective leaving entering s : Symbol}
    {direction : Direction} (hp : t.Pivot objective leaving entering direction)
    (heps : 0 ≤ t.epsilon) (hres : s.isRestricted = true)
    (hrate : direction.rate (t.slope entering s) < -t.epsilon) :
    0 ≤ (t.exchange leaving entering).valueOf s := by
  have hneg : 0 < -direction.rate (t.slope entering s) := by linarith
  have hb : t.isBasic s = true := by
    by_contra hb
    by_cases he : s = entering
    · -- a restricted symbol enters upwards
      subst he
      rcases hp.kind with ⟨-, rfl⟩ | hext
      · rw [slope_self] at hneg
        exact absurd hneg (by norm_num [Direction.rate])
      · rw [Symbol.not_isExternal_of_isRestricted hres] at hext
        cases hext
    · rw [slope_of_not_isBasic hb he] at hneg
      cases direction <;> simp [Direction.rate] at hneg
  have hfirst := (hp.first s hb hres hrate).1
  rw [hp.valueOf_exchange heps, stride]
  have := (le_div_iff₀ hneg).mp hfirst
  linarith

/-! ## Sinking -/

/-- Whether an exchange sinks a symbol: the ratio test passes the symbol over,
    and the step takes it from within its bounds to below them. -/
structure Sinks (t : Tableau Rat) (leaving entering : Symbol) (direction : Direction)
    (s : Symbol) : Prop where
  restricted : s.isRestricted = true
  /-- The move does not lower the symbol beyond the tolerance. -/
  passed : -t.epsilon ≤ direction.rate (t.slope entering s)
  /-- Before the exchange the symbol is within its bounds. -/
  above : -t.epsilon ≤ t.valueOf s
  /-- The step is long enough to take it below them. -/
  below : t.valueOf s
    + direction.rate (t.slope entering s) * t.stride leaving entering direction < -t.epsilon

/-- The objective itself never sinks. -/
theorem Pivot.not_sinks_objective {t : Tableau Rat} {objective leaving entering : Symbol}
    {direction : Direction} (hp : t.Pivot objective leaving entering direction) :
    ¬ t.Sinks leaving entering direction objective := by
  intro h
  exact absurd hp.lowers (not_lt.mpr h.passed)

/-- Whether phase one sinks some symbol for good. -/
def SinksForGood (t : Tableau Rat) (objective : Symbol) : Prop :=
  ∃ k leaving entering direction s,
    (t.stage objective k).nextMove objective = .exchange leaving entering ∧
      (t.stage objective k).Pivot objective leaving entering direction ∧
      (t.stage objective k).Sinks leaving entering direction s ∧
      ∀ j, k < j → (t.stage objective j).Under s

theorem epsilon_stage (t : Tableau Rat) (objective : Symbol) (k : Nat) :
    (t.stage objective k).epsilon = t.epsilon :=
  stage_induction (P := fun u => u.epsilon = t.epsilon)
    (fun _ _ _ hu _ => (epsilon_exchange ..).trans hu) rfl k

/-- After the end of a search nothing changes any more. -/
theorem stage_of_done {t : Tableau Rat} {objective : Symbol} {k : Nat}
    (hdone : (t.stage objective k).nextMove objective = .done) {j : Nat} (hkj : k ≤ j) :
    t.stage objective j = t.stage objective k := by
  induction j, hkj using Nat.le_induction with
  | base => rfl
  | succ j _ ih =>
      rw [stage_succ, ih, advance, hdone]

omit [Tolerance] in
/-- What comes to hold for good has a last moment before it. -/
theorem exists_last {P : Nat → Prop} (hstart : ¬ P 0) :
    ∀ {n : Nat}, (∀ j, n ≤ j → P j) → ∃ k, k < n ∧ ¬ P k ∧ ∀ j, k < j → P j := by
  intro n
  induction n with
  | zero => intro h; exact absurd (h 0 (Nat.le_refl 0)) hstart
  | succ n ih =>
      intro h
      by_cases hn : P n
      · obtain ⟨k, hk, hbefore, hafter⟩ := ih fun j hj => by
          rcases Nat.eq_or_lt_of_le hj with rfl | hlt
          · exact hn
          · exact h j hlt
        exact ⟨k, Nat.lt_succ_of_lt hk, hbefore, hafter⟩
      · exact ⟨n, Nat.lt_succ_self n, hn, fun j hj => h j hj⟩

/-- A search that starts within bounds ends with a symbol out of them, other
    than the objective, if and only if it sinks one for good. -/
theorem exists_under_iff {t u : Tableau Rat} {objective : Symbol} {limit : Nat}
    (heps : 0 ≤ t.epsilon) (hsep : ∀ k, (t.stage objective k).Separated)
    (hstart : ∀ s, ¬ t.Under s) (h : t.descend objective limit = .ok u) :
    (∃ s, s ≠ objective ∧ u.Under s) ↔ t.SinksForGood objective := by
  obtain ⟨n, rfl, hdone, hmoves⟩ := exists_stage_of_descend h
  have hepsk : ∀ k, 0 ≤ (t.stage objective k).epsilon := fun k => by
    rw [epsilon_stage]
    exact heps
  constructor
  · rintro ⟨s, -, hs⟩
    -- the symbol starts within bounds, so there is a last move that takes it out of them
    obtain ⟨k, hkn, hk, hafter⟩ := exists_last
      (P := fun k => (t.stage objective k).Under s) (hstart s) fun j hj => by
        rw [stage_of_done hdone hj]
        exact hs
    obtain ⟨leaving, entering, hmove⟩ := hmoves k hkn
    obtain ⟨direction, hp⟩ := exists_pivot (hsep k) (hepsk k) hmove
    have hnext := hafter (k + 1) (Nat.lt_succ_self k)
    rw [stage_succ, advance_of_nextMove hmove] at hnext
    obtain ⟨hres, hbelow⟩ := hnext
    rw [epsilon_exchange] at hbelow
    refine ⟨k, leaving, entering, direction, s, hmove, hp, ⟨hres, ?_, ?_, ?_⟩, hafter⟩
    · by_contra hrate
      have := hp.nonneg_of_lowered (hepsk k) hres (not_le.mp hrate)
      have := hepsk k
      linarith
    · by_contra hlt
      exact hk ⟨hres, not_le.mp hlt⟩
    · rwa [← hp.valueOf_exchange (hepsk k)]
  · rintro ⟨k, leaving, entering, direction, s, -, hp, hsinks, hafter⟩
    refine ⟨s, ?_, ?_⟩
    · rintro rfl
      exact hp.not_sinks_objective hsinks
    have hlate := hafter (max n (k + 1)) (lt_of_lt_of_le (Nat.lt_succ_self k) (le_max_right ..))
    rwa [stage_of_done hdone (le_max_left ..)] at hlate

/-! ## After the search -/

/-- An artificial that gives its row up leaves the values of all others alone. -/
theorem valueOf_vacate {t : Tableau Rat} (ht : t.Separated) {artificial s : Symbol}
    (hs : s ≠ artificial) : (t.vacate artificial).valueOf s = t.valueOf s := by
  rcases vacate_cases t artificial with ⟨-, h⟩ | ⟨_, -, -, h⟩ | ⟨row, entering, hrow, hsucc, h⟩
  · rw [h]
  · rw [h]
    simp only [valueOf]
    rw [row?_eraseRow_of_ne t hs]
  · rw [h]
    have hzero : (Row.exchange { row with constant := 0 } artificial entering).constant = 0 :=
      constant_exchange_of_zero rfl artificial entering
    by_cases he : s = entering
    · subst he
      rw [valueOf_of_row? (row?_define_self ..), hzero, valueOf_of_not_isBasic]
      intro hb
      exact ht.not_mentions hrow hb (successor?_spec hsucc).1
    · simp only [valueOf]
      rw [row?_define_of_ne _ _ he, row?_eraseRow_of_ne t hs]
      cases t.row? s with
      | none => rfl
      | some r =>
          show (r.substitute entering _).constant = r.constant
          rw [Row.constant_substitute, hzero, zero_mul, add_zero]

theorem valueOf_retire {t : Tableau Rat} (ht : t.Separated) {artificial s : Symbol}
    (hs : s ≠ artificial) : (t.retire artificial).valueOf s = t.valueOf s := by
  rw [← valueOf_vacate ht hs, retire_eq]
  simp only [valueOf]
  rw [row?_eraseColumn]
  cases (t.vacate artificial).row? s with
  | none => rfl
  | some r => rfl

/-- Once the artificial is retired, the symbols out of bounds are the others
    that were so before. -/
theorem under_retire_iff {t : Tableau Rat} (ht : t.Separated) (heps : 0 ≤ t.epsilon)
    {artificial s : Symbol} :
    (t.retire artificial).Under s ↔ s ≠ artificial ∧ t.Under s := by
  simp only [Under]
  rw [epsilon_retire]
  by_cases hs : s = artificial
  · subst hs
    have hgone : (t.retire s).valueOf s = 0 := by
      refine valueOf_of_not_isBasic fun hb => ?_
      have hvacated : (t.vacate s).isBasic s = true := OrderedMap.mem_mapValues_iff.mp hb
      exact not_isBasic_vacate ht hvacated
    constructor
    · rintro ⟨-, hlt⟩
      rw [hgone] at hlt
      linarith
    · rintro ⟨hne, -⟩
      exact absurd rfl hne
  · rw [valueOf_retire ht hs]
    exact ⟨fun h => ⟨hs, h⟩, fun h => h.2⟩

/-! ## Imposing -/

/-- Whether imposing a relation sinks a symbol for good: the relation goes
    through phase one, and phase one does so. -/
def Founders (editable : VariableId → Bool) (r : Relation Rat) (t : Tableau Rat) : Prop :=
  t.subject? editable r (t.rowOf r) = none ∧ ¬ (t.rowOf r).onlyDummies = true ∧
    SinksForGood (charge { t with nextIndex := t.nextIndex + 1 } (t.rowOf r))
      (.artificial (t.nextIndex + 1))

/-- A row with a constant on the safe side brings nothing out of bounds. -/
theorem not_under_insertRow {t : Tableau Rat} (ht : ∀ s, ¬ t.Under s) (heps : 0 ≤ t.epsilon)
    {u : Symbol} {row : Row Rat} {next : Nat} (hrow : u.isRestricted = true → 0 ≤ row.constant)
    (s : Symbol) : ¬ Under { t with rows := t.rows.insert u row, nextIndex := next } s := by
  rintro ⟨hres, hlt⟩
  rw [valueOf_insertRow] at hlt
  split at hlt
  · next hs =>
      have := hrow (hs ▸ hres)
      have hlt : row.constant < -t.epsilon := hlt
      linarith
  · exact ht s ⟨hres, hlt⟩

/-- A relation that is imposed on a feasible tableau leaves it feasible, unless
    it sinks a symbol for good. -/
theorem isFeasible_impose_iff {t t' : Tableau Rat} (ht : t.WellFormed) (heps : 0 ≤ t.epsilon)
    (hfeas : t.isFeasible = true) {editable : VariableId → Bool} {r : Relation Rat} {m : Symbol}
    (h : t.impose editable r = .ok (m, t')) :
    t'.isFeasible = true ↔ ¬ t.Founders editable r := by
  have hstart := (isFeasible_iff heps).mp hfeas
  have heps' : 0 ≤ t'.epsilon := by
    rw [(ht.impose h).2.2]
    exact heps
  rw [isFeasible_iff heps']
  -- a subject and a parked row bring nothing out of bounds; only phase one can
  obtain ⟨rfl, ⟨subject, hsub, rfl⟩ | ⟨hsub, hdum, -, rfl⟩ | ⟨hsub, hdum, habs⟩⟩ := impose_cases h
  · refine ⟨fun _ hf => ?_, fun _ s => ?_⟩
    · rw [hf.1] at hsub
      exact nomatch hsub
    · rintro ⟨hres, hlt⟩
      rcases ht.valueOf_define_subject hsub hres with hsame | hnonneg
      · rw [hsame] at hlt
        exact hstart s ⟨hres, hlt⟩
      · have hbound : -t.epsilon ≤ 0 := neg_nonpos.mpr heps
        exact absurd (lt_of_le_of_lt hnonneg hlt) (not_lt.mpr hbound)
  · refine ⟨fun _ hf => hf.2.1 hdum, fun _ => not_under_insertRow hstart heps fun hres => ?_⟩
    exact le_of_eq (zero_mul _).symm
  · obtain ⟨u, hu, -, rfl⟩ := exists_of_absorb habs
    have hcharge := ht.next.charge (ht.fits_rowOf r)
    have hsearch : ∀ k, Searching _ (stage (.artificial (t.nextIndex + 1)) k
        (charge { t with nextIndex := t.nextIndex + 1 } (t.rowOf r))) :=
      stage_induction (fun _ _ _ hu hmove => hu.exchange hmove) hcharge
    obtain ⟨hend, -⟩ := descend_induction (fun _ _ _ hu hmove => Searching.exchange hu hmove)
      hcharge hu
    have hiff := exists_under_iff (t := charge { t with nextIndex := t.nextIndex + 1 } (t.rowOf r))
      heps (fun k => (hsearch k).orderly.separated)
      (not_under_insertRow hstart heps fun _ => Row.orient_constant_nonneg _) hu
    have hueps : 0 ≤ u.epsilon := by
      rw [hend.epsilon_eq]
      exact heps
    have hfounders : t.Founders editable r ↔
        SinksForGood (charge { t with nextIndex := t.nextIndex + 1 } (t.rowOf r))
          (.artificial (t.nextIndex + 1)) :=
      ⟨fun h => h.2.2, fun h => ⟨hsub, hdum, h⟩⟩
    rw [hfounders, ← hiff, not_exists]
    exact forall_congr' fun s => not_congr (under_retire_iff hend.orderly.separated hueps)

end LinearConstraints.Tableau
