import LinearConstraints.Proofs.PhaseOne.Termination
import LinearConstraints.Proofs.Tableau.Pruning

/-! # What absorbing an equation does

    With exact numbers an equation is absorbed if and only if it holds in some
    solution with admissible values, and the solutions that are left are those
    in which it holds.

    Behind the artificial the equation is no restriction yet: the artificial
    is whatever the row comes to.  Phase one does not change that.  If it ends
    with the artificial above zero, no admissible solution has it at zero.
    Otherwise the artificial gives its row up, which it can do without a change
    of value because it stands at zero, and striking its column out sets it to
    zero for good. -/

namespace LinearConstraints.Tableau

open Exact

variable {t u : Tableau Rat} {row : Row Rat}

/-! ## Charging -/

/-- Behind a new artificial a row restricts nothing but the artificial. -/
theorem Tidy.satisfies_charge (ht : t.Tidy) (value : Symbol → Rat) :
    (t.charge row).Satisfies value
      ↔ value (.artificial t.nextIndex) = row.evaluate value ∧ t.Satisfies value :=
  satisfies_insertRow fun hb => ht.not_mentions_artificial _ (mentions_of_isBasic hb)

theorem Searchable.charge (hs : t.Searchable) (ht : t.Tidy) (hrow : t.Suits row)
    (hconst : 0 ≤ row.constant) : (t.charge row).Searchable where
  separated := (ht.charge hrow).separated
  epsilon_eq := hs.epsilon_eq
  nonnegative := by
    intro s hres
    simp only [Tableau.charge]
    rw [valueOf_insertRow]
    split
    · exact hconst
    · exact hs.nonnegative s hres

/-- No exchange makes a zero cell in the row of the objective, whatever the
    other rows are like. -/
theorem Separated.pruned_objective (ht : t.Separated) {objective : Symbol}
    (hpruned : ∀ r, t.row? objective = some r → r.Pruned) {limit : Nat}
    (h : t.descend objective limit = .ok u) : ∀ r, u.row? objective = some r → r.Pruned := by
  refine (descend_induction (P := fun u : Tableau Rat => u.Separated ∧
    ∀ r, u.row? objective = some r → r.Pruned) ?_ ⟨ht, hpruned⟩ h).1.2
  rintro u leaving entering ⟨hsep, hold⟩ hmove
  obtain ⟨row, direction, hrow, -, hent, -⟩ := exists_of_nextMove hmove
  obtain ⟨⟨gone, hgone⟩, -, -, -⟩ := kinds_of_nextMove hmove
  refine ⟨hsep.exchange hgone, fun r hr => ?_⟩
  rw [exchange_of_row? hgone] at hr
  rcases row?_of_define hr with ⟨rfl, -⟩ | ⟨-, r', hr', rfl⟩
  · exact absurd (isBasic_of_row? hrow) (hsep.not_isBasic_entering hrow hent)
  · exact Row.pruned_substitute (hold r' (row?_of_eraseRow hr').2) _ _

/-! ## Retiring -/

/-- An artificial at zero that has a successor gives its row up in an ordinary
    exchange. -/
theorem vacate_of_zero {artificial : Symbol} (hzero : u.valueOf artificial = 0)
    (hsucc : ∀ r, u.row? artificial = some r → successor? r ≠ none) :
    (u.row? artificial = none ∧ u.vacate artificial = u) ∨
      ∃ r entering, u.row? artificial = some r ∧ r.mentions entering = true ∧
        u.vacate artificial = u.exchange artificial entering := by
  rcases vacate_cases u artificial with ⟨hnone, h⟩ | ⟨r, hr, hnone, -⟩ | ⟨r, entering, hr, hs, h⟩
  · exact Or.inl ⟨hnone, h⟩
  · exact absurd hnone (hsucc r hr)
  · refine Or.inr ⟨r, entering, hr, (successor?_spec hs).1, ?_⟩
    have hconst : r.constant = 0 := by rw [← valueOf_of_row? hr, hzero]
    have hsame : ({ r with constant := 0 } : Row Rat) = r := by
      rw [← hconst]
    rw [h, exchange_of_row? hr, hsame]

/-- Giving its row up, an artificial at zero changes neither the solutions nor
    the values. -/
theorem Searchable.vacate (hu : u.Searchable) {artificial : Symbol}
    (hpruned : ∀ r, u.row? artificial = some r → r.Pruned)
    (hzero : u.valueOf artificial = 0)
    (hsucc : ∀ r, u.row? artificial = some r → successor? r ≠ none) :
    (u.vacate artificial).Searchable ∧ (u.vacate artificial).size = u.size ∧
      ∀ value, (u.vacate artificial).Satisfies value ↔ u.Satisfies value := by
  rcases vacate_of_zero hzero hsucc with ⟨-, h⟩ | ⟨r, entering, hr, hm, h⟩
  · rw [h]
    exact ⟨hu, rfl, fun _ => Iff.rfl⟩
  · have hcoeff := (hpruned r hr).coefficient_ne_zero hm
    have hent : ¬ u.isBasic entering = true := fun hb => hu.separated.not_mentions hr hb hm
    have hne : artificial ≠ entering := by
      rintro rfl
      exact hent (isBasic_of_row? hr)
    rw [h]
    refine ⟨⟨hu.separated.exchange hr, (epsilon_exchange ..).trans hu.epsilon_eq,
      fun s hs => ?_⟩, size_exchange hr hent,
      fun value => hu.separated.satisfies_exchange hr hcoeff⟩
    rw [valueOf_exchange (isBasic_of_row? hr) hent (by rwa [slope_of_row? hr hne]), hzero,
      neg_zero, zero_div, mul_zero, add_zero]
    exact hu.nonnegative s hs

theorem Searchable.eraseColumn (hu : u.Searchable) (s : Symbol) : (u.eraseColumn s).Searchable where
  separated := hu.separated.eraseColumn s
  epsilon_eq := hu.epsilon_eq
  nonnegative := by
    intro v hv
    have hsame : (u.eraseColumn s).valueOf v = u.valueOf v := by
      simp only [valueOf]
      rw [row?_eraseColumn]
      cases u.row? v with
      | none => rfl
      | some r => rfl
    rw [hsame]
    exact hu.nonnegative v hv

/-! ## Absorbing -/

/-- What becomes of a tableau when an equation joins it. -/
structure Joined (t : Tableau Rat) (row : Row Rat) (t' : Tableau Rat) : Prop where
  /-- The result is ready for the next call. -/
  ready : t'.Ready
  /-- There is one more row. -/
  size_eq : t'.size = t.size + 1
  /-- The solutions left are those in which the equation holds. -/
  satisfies_iff : ∀ value, t'.Satisfies value ↔ t.Satisfies value ∧ row.evaluate value = 0

/-- The row of the artificial runs empty only if the equation held all along. -/
theorem successor?_ne_none {artificial : Symbol} (hzero : u.valueOf artificial = 0)
    (hindep : ∃ value, u.Satisfies value ∧ value artificial ≠ 0) {r : Row Rat}
    (hr : u.row? artificial = some r) : successor? r ≠ none := by
  intro hnone
  obtain ⟨value, hvalue, hne⟩ := hindep
  rw [hvalue artificial r hr, LinearForm.evaluate_eq_constant, ← valueOf_of_row? hr] at hne
  · exact hne hzero
  · exact fun s hs => absurd hs (not_mentions_of_successor? hnone s)

/-- A row without the artificial does not depend on its value. -/
theorem Suits.evaluate_update (hrow : t.Suits row) (value : Symbol → Rat) (x : Rat) :
    row.evaluate (Function.update value (.artificial t.nextIndex) x) = row.evaluate value := by
  refine LinearForm.evaluate_congr fun s hs => Function.update_of_ne ?_ ..
  rintro rfl
  exact nomatch (hrow _ hs).2

/-- Where the equation comes to, the artificial has to be. -/
theorem Tidy.charge_update (ht : t.Tidy) (hrow : t.Suits row)
    {value : Symbol → Rat} (x : Rat) :
    (t.charge row).Satisfies (Function.update value (.artificial t.nextIndex) x)
      ↔ x = row.evaluate value ∧ t.Satisfies value := by
  rw [ht.satisfies_charge, Function.update_self, hrow.evaluate_update,
    satisfies_update (ht.not_mentions_artificial _)]

/-- An equation that is absorbed joins the tableau.  Of its rows only that of
    the artificial is divided by a cell at the end, so the others may hold
    zeros. -/
theorem Searchable.absorb (hs : t.Searchable) (ht : t.Tidy) (hrow : t.Suits row)
    (hpruned : row.Pruned) (hconst : 0 ≤ row.constant)
    (hindep : ∃ value, t.Satisfies value ∧ row.evaluate value ≠ 0) {reason : Refusal Rat}
    {t' : Tableau Rat} (h : t.absorb reason row = .ok t') :
    t'.Searchable ∧ t'.size = t.size + 1 ∧
      ∀ value, t'.Satisfies value ↔ t.Satisfies value ∧ row.evaluate value = 0 := by
  have htidy := ht.absorb hrow h
  obtain ⟨u, hu, hend, rfl⟩ := exists_of_absorb h
  have hcharge := hs.charge ht hrow hconst
  obtain ⟨hsearch, hsize, hsat⟩ := hcharge.minimize hu
  have hart : ∀ r, u.row? (.artificial t.nextIndex) = some r → r.Pruned := by
    refine hcharge.separated.pruned_objective (fun r hr => ?_) hu
    rcases row?_of_insertRow hr with ⟨-, rfl⟩ | ⟨hne, -⟩
    · exact hpruned
    · exact absurd rfl hne
  have hzero : u.valueOf (.artificial t.nextIndex) = 0 := by
    rw [hsearch.epsilon_eq] at hend
    exact le_antisymm (not_lt.mp hend) (hsearch.nonnegative _ rfl)
  have hsucc : ∀ r, u.row? (.artificial t.nextIndex) = some r → successor? r ≠ none := by
    obtain ⟨value, hvalue, hne⟩ := hindep
    intro r hrr
    refine successor?_ne_none hzero ⟨_, (hsat _).mpr ((ht.charge_update hrow _).mpr
      ⟨rfl, hvalue⟩), ?_⟩ hrr
    rwa [Function.update_self]
  obtain ⟨hvac, hvsize, hvsat⟩ := hsearch.vacate hart hzero hsucc
  refine ⟨hvac.eraseColumn _, ?_, fun value => ?_⟩
  · rw [retire_eq, size_eraseColumn, hvsize, hsize]
    exact size_insertRow fun hb => ht.not_mentions_artificial _ (mentions_of_isBasic hb)
  · -- the artificial does not occur any more, so it may as well be zero
    rw [← satisfies_update (htidy.not_mentions_artificial _) 0, retire_eq,
      satisfies_eraseColumn (Function.update_self ..), hvsat, hsat, ht.charge_update hrow]
    exact ⟨fun h => ⟨h.2, h.1.symm⟩, fun h => ⟨h.2.symm, h.1⟩⟩

/-- An equation that is not absorbed is refused for the given reason, and it
    holds in no admissible solution. -/
theorem Searchable.absorb_error (hs : t.Searchable) (ht : t.Tidy) (hrow : t.Suits row)
    (hconst : 0 ≤ row.constant) {reason reason' : Refusal Rat}
    (h : t.absorb reason row = .error reason') :
    reason' = reason ∧
      ∀ value, Admissible value → t.Satisfies value → row.evaluate value ≠ 0 := by
  have hcharge := hs.charge ht hrow hconst
  have hart : (Symbol.artificial t.nextIndex).isRestricted = true := rfl
  obtain ⟨u, hu⟩ := hcharge.exists_minimize hart
  obtain ⟨hsearch, -, hsat⟩ := hcharge.minimize hu
  have hdone := (descend_induction (P := fun _ => True) (fun _ _ _ _ _ => trivial) trivial hu).2
  rw [absorb_eq, hu] at h
  simp only at h
  split at h
  · next hpos =>
      refine ⟨(Except.error.inj h).symm, fun value hadm hvalue heq => ?_⟩
      rw [hsearch.epsilon_eq] at hpos
      -- with the artificial at zero the values would be a lower solution
      have hlower := hsearch.valueOf_le hdone hpos
        ((hsat _).mpr ((ht.charge_update hrow 0).mpr ⟨heq.symm, hvalue⟩))
        (hadm.update_zero _)
      rw [Function.update_self] at hlower
      exact absurd hpos (not_lt.mpr hlower)
  · exact nomatch h

theorem Ready.absorb (hr : t.Ready) (ht : t.WellFormed) (hfits : t.Fits row)
    (hrow : row.Pruned) (hconst : 0 ≤ row.constant)
    (hindep : ∃ value, t.Satisfies value ∧ row.evaluate value ≠ 0) {reason : Refusal Rat}
    {t' : Tableau Rat} (h : t.absorb reason row = .ok t') : t.Joined row t' := by
  obtain ⟨hs, hsize, hsat⟩ :=
    hr.searchable.absorb ht.tidy hfits.suits hrow hconst hindep h
  exact ⟨⟨hs.separated, hr.pruned.absorb hrow h, hs.epsilon_eq, hs.nonnegative⟩, hsize, hsat⟩

end LinearConstraints.Tableau
