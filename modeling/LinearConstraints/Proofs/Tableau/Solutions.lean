import LinearConstraints.Proofs.Row.Arithmetic
import LinearConstraints.Proofs.Tableau.Rows

/-! # The solutions of a tableau

    A tableau over fractions is a system of equations, one for each row.  In a
    separated tableau the parametric symbols can be given any values and the
    basic ones follow, so there is always a solution, and every symbol that
    occurs makes a difference to some solution.  Where only zeros are pruned,
    defining a symbol adds an equation to the system, and exchanging two
    symbols leaves the system as it is. -/

namespace LinearConstraints.Tableau

section AnyTolerance

variable [Tolerance]

/-! ## Values that follow from the parametric ones -/

/-- The values of all symbols once the parametric ones have theirs. -/
def extend (t : Tableau Rat) (value : Symbol → Rat) (s : Symbol) : Rat :=
  match t.row? s with
  | some row => row.evaluate value
  | none => value s

theorem extend_of_row? {t : Tableau Rat} {value : Symbol → Rat} {s : Symbol} {row : Row Rat}
    (h : t.row? s = some row) : t.extend value s = row.evaluate value := by
  simp only [extend]
  rw [h]

theorem extend_of_not_isBasic {t : Tableau Rat} {value : Symbol → Rat} {s : Symbol}
    (h : ¬ t.isBasic s = true) : t.extend value s = value s := by
  simp only [extend]
  rw [row?_eq_none_of_not_isBasic h]

/-- In a separated tableau, values that follow from parametric ones are a
    solution. -/
theorem Separated.satisfies_extend {t : Tableau Rat} (ht : t.Separated)
    (value : Symbol → Rat) : t.Satisfies (t.extend value) := by
  intro s row hrow
  rw [extend_of_row? hrow]
  exact ht.evaluate_congr (fun u hu => (extend_of_not_isBasic hu).symm) hrow

/-- A solution follows from its parametric values. -/
theorem Separated.eq_extend {t : Tableau Rat} (ht : t.Separated) {value point : Symbol → Rat}
    (h : t.Satisfies value)
    (hpoint : ∀ s, t.mentions s = true → ¬ t.isBasic s = true → value s = point s) {s : Symbol}
    (hs : t.mentions s = true) : value s = t.extend point s := by
  by_cases hb : t.isBasic s = true
  · obtain ⟨row, hrow⟩ := isBasic_iff.mp hb
    rw [h s row hrow, extend_of_row? hrow]
    refine LinearForm.evaluate_congr fun u hu => hpoint u (mentions_of_row hrow hu) fun hub => ?_
    exact ht.not_mentions hrow hub hu
  · rw [hpoint s hs hb, extend_of_not_isBasic hb]

/-- With all parametric symbols at zero, symbols have the values of the
    tableau. -/
theorem Separated.satisfies_valueOf {t : Tableau Rat} (ht : t.Separated) :
    t.Satisfies t.valueOf := by
  intro s row hrow
  rw [valueOf_of_row? hrow, LinearForm.evaluate_eq_constant]
  intro u hu
  refine valueOf_of_not_isBasic fun hb => ?_
  exact ht.not_mentions hrow hb hu

/-! ## Equations added and taken away -/

/-- Only the values of symbols that occur matter. -/
theorem Satisfies.congr {t : Tableau Rat} {value value' : Symbol → Rat} (h : t.Satisfies value)
    (heq : ∀ s, t.mentions s = true → value s = value' s) : t.Satisfies value' := by
  intro s row hrow
  rw [← heq s (mentions_of_isBasic (isBasic_of_row? hrow)), h s row hrow]
  exact LinearForm.evaluate_congr fun u hu => heq u (mentions_of_row hrow hu)

/-- The value of a symbol that does not occur is free. -/
theorem satisfies_update {t : Tableau Rat} {value : Symbol → Rat} {s : Symbol}
    (hs : ¬ t.mentions s = true) (x : Rat) :
    t.Satisfies (Function.update value s x) ↔ t.Satisfies value := by
  have hsame : ∀ u, t.mentions u = true → Function.update value s x u = value u := by
    intro u hu
    refine Function.update_of_ne ?_ ..
    rintro rfl
    exact hs hu
  exact ⟨fun h => h.congr hsame, fun h => h.congr fun u hu => (hsame u hu).symm⟩

theorem satisfies_iff_eraseRow {t : Tableau Rat} {value : Symbol → Rat} {s : Symbol}
    {row : Row Rat} (hrow : t.row? s = some row) :
    t.Satisfies value ↔ value s = row.evaluate value ∧ (t.eraseRow s).Satisfies value := by
  constructor
  · intro h
    exact ⟨h s row hrow, fun u r hr => h u r (row?_of_eraseRow hr).2⟩
  · rintro ⟨hs, h⟩ u r hr
    by_cases hu : u = s
    · subst hu
      rw [hrow, Option.some.injEq] at hr
      rwa [← hr]
    · exact h u r (by rw [row?_eraseRow_of_ne t hu, hr])

/-- Taking the row of a symbol away leaves the symbol free. -/
theorem Separated.satisfies_eraseRow {t : Tableau Rat} (ht : t.Separated) {s : Symbol}
    (hs : t.isBasic s = true) (value : Symbol → Rat) :
    (t.eraseRow s).Satisfies value ↔ ∃ x, t.Satisfies (Function.update value s x) := by
  obtain ⟨row, hrow⟩ := isBasic_iff.mp hs
  have hself := ht.not_mentions hrow hs
  have hgone : ¬ (t.eraseRow s).mentions s = true := by
    intro hm
    rcases mentions_iff.mp hm with hb | ⟨u, r, hr, hu⟩
    · exact (isBasic_eraseRow_iff.mp hb).1 rfl
    · exact ht.not_mentions (row?_of_eraseRow hr).2 hs hu
  constructor
  · intro h
    refine ⟨row.evaluate value, (satisfies_iff_eraseRow hrow).mpr ⟨?_, ?_⟩⟩
    · rw [Function.update_self]
      refine LinearForm.evaluate_congr fun u hu => ?_
      rw [Function.update_of_ne]
      rintro rfl
      exact hself hu
    · exact (satisfies_update hgone _).mpr h
  · rintro ⟨x, h⟩
    exact (satisfies_update hgone x).mp ((satisfies_iff_eraseRow hrow).mp h).2

theorem satisfies_insertRow {t : Tableau Rat} {value : Symbol → Rat} {s : Symbol}
    {row : Row Rat} {next : Nat} (hs : ¬ t.isBasic s = true) :
    Satisfies { t with rows := t.rows.insert s row, nextIndex := next } value
      ↔ value s = row.evaluate value ∧ t.Satisfies value := by
  constructor
  · intro h
    refine ⟨h s row (OrderedMap.get?_insert_self ..), fun u r hr => h u r ?_⟩
    have hu : u ≠ s := by
      rintro rfl
      exact hs (isBasic_of_row? hr)
    exact (OrderedMap.get?_insert_of_ne _ _ hu).trans hr
  · rintro ⟨hrow, h⟩ u r hr
    by_cases hu : u = s
    · subst hu
      have : some row = some r := (OrderedMap.get?_insert_self ..).symm.trans hr
      rwa [← Option.some.inj this]
    · exact h u r ((OrderedMap.get?_insert_of_ne _ _ hu).symm.trans hr)

/-- Where a symbol is zero its column does not matter. -/
theorem satisfies_eraseColumn {t : Tableau Rat} {value : Symbol → Rat} {s : Symbol}
    (hzero : value s = 0) : (t.eraseColumn s).Satisfies value ↔ t.Satisfies value := by
  have hrow : ∀ row : Row Rat, (row.eraseTerm s).evaluate value = row.evaluate value := by
    intro row
    rw [Row.evaluate_eraseTerm, hzero]
    ring
  constructor
  · intro h u row hu
    rw [h u (row.eraseTerm s) (by rw [row?_eraseColumn, hu]; rfl), hrow]
  · intro h u r hr
    rw [row?_eraseColumn] at hr
    obtain ⟨row, hu, rfl⟩ := Option.map_eq_some_iff.mp hr
    rw [h u row hu, hrow]

/-! ## Symbols that make a difference -/

/-- A row does not vanish of itself if it has a cell of a symbol that does not
    occur. -/
theorem Separated.exists_evaluate_ne_zero {t : Tableau Rat} (ht : t.Separated) {row : Row Rat}
    {s : Symbol} (hs : ¬ t.mentions s = true) (hc : row.coefficient s ≠ 0) :
    ∃ value, t.Satisfies value ∧ row.evaluate value ≠ 0 := by
  have hbase := ht.satisfies_valueOf
  by_cases hzero : row.evaluate t.valueOf = 0
  · refine ⟨Function.update t.valueOf s (t.valueOf s + 1), (satisfies_update hs _).mpr hbase, ?_⟩
    rw [LinearForm.evaluate_update, hzero, zero_add, add_sub_cancel_left, mul_one]
    exact hc
  · exact ⟨t.valueOf, hbase, hzero⟩

/-- Whether no row has a zero cell. -/
def Pruned (t : Tableau Rat) : Prop := ∀ s row, t.row? s = some row → row.Pruned

omit [Tolerance] in
/-- Whether a tableau is pruned can be told from its entries. -/
theorem pruned_iff {t : Tableau Rat} :
    t.Pruned ↔ (t.rows.all fun _ row => row.terms.all fun _ c => decide (c ≠ 0)) = true := by
  rw [OrderedMap.all_iff]
  constructor
  · intro h s row hrow
    exact OrderedMap.all_iff.mpr fun u c hc => decide_eq_true (h s row hrow u c hc)
  · intro h s row hrow u c hc
    exact of_decide_eq_true (OrderedMap.all_iff.mp (h s row hrow) u c hc)

instance (t : Tableau Rat) : Decidable t.Pruned := decidable_of_iff _ pruned_iff.symm

theorem Pruned.define {t : Tableau Rat} (ht : t.Pruned) (s : Symbol) {definition : Row Rat}
    (hdef : definition.Pruned) : (t.define s definition).Pruned := by
  intro u row hrow
  rcases row?_of_define hrow with ⟨-, rfl⟩ | ⟨-, old, hold, rfl⟩
  · exact hdef
  · exact Row.pruned_substitute (ht u old hold) _ _

omit [Tolerance] in
theorem Pruned.eraseRow {t : Tableau Rat} (ht : t.Pruned) (s : Symbol) :
    (t.eraseRow s).Pruned :=
  fun u row hrow => ht u row (row?_of_eraseRow hrow).2

omit [Tolerance] in
theorem Pruned.eraseColumn {t : Tableau Rat} (ht : t.Pruned) (s : Symbol) :
    (t.eraseColumn s).Pruned := by
  intro u row hrow
  rw [row?_eraseColumn] at hrow
  obtain ⟨old, hold, rfl⟩ := Option.map_eq_some_iff.mp hrow
  exact Row.pruned_eraseTerm (ht u old hold) s

/-- Solving a row for another symbol rescales it by a number other than zero,
    so no exchange makes a zero cell. -/
theorem Pruned.exchange {t : Tableau Rat} (ht : t.Pruned) (leaving entering : Symbol) :
    (t.exchange leaving entering).Pruned := by
  unfold Tableau.exchange
  split
  · next row hrow =>
      exact (ht.eraseRow leaving).define entering
        (Row.pruned_exchange (ht leaving row hrow) leaving entering)
  · exact ht

/-- A symbol whose value no solution depends on does not occur. -/
theorem not_mentions_of_independent {t : Tableau Rat} (ht : t.Separated) (hp : t.Pruned)
    {s : Symbol} (hind : ∀ value x, t.Satisfies value → t.Satisfies (Function.update value s x)) :
    ¬ t.mentions s = true := by
  have hval := ht.satisfies_valueOf
  have hup := hind _ (t.valueOf s + 1) hval
  intro hm
  rcases mentions_iff.mp hm with hb | ⟨u, row, hrow, hs⟩
  · -- the row of a basic symbol fixes its value
    obtain ⟨row, hrow⟩ := isBasic_iff.mp hb
    have hcoeff : row.coefficient s = 0 :=
      LinearForm.coefficient_of_get?_none
        (LinearForm.get?_eq_none_of_not_mentions (ht.not_mentions hrow hb))
    have h1 := hval s row hrow
    have h2 := hup s row hrow
    rw [Function.update_self, LinearForm.evaluate_update, hcoeff] at h2
    linarith
  · -- a parametric symbol moves the basic one of its row
    have hne : u ≠ s := by
      rintro rfl
      exact ht.not_mentions hrow (isBasic_of_row? hrow) hs
    have hcoeff := (hp u row hrow).coefficient_ne_zero hs
    have h1 := hval u row hrow
    have h2 := hup u row hrow
    rw [Function.update_of_ne hne, LinearForm.evaluate_update] at h2
    apply hcoeff
    linarith

end AnyTolerance

/-! ## Substitution where only zeros are pruned -/

open Exact

theorem satisfies_define {t : Tableau Rat} {value : Symbol → Rat} {s : Symbol}
    {definition : Row Rat} (hs : ¬ t.isBasic s = true) :
    (t.define s definition).Satisfies value
      ↔ value s = definition.evaluate value ∧ t.Satisfies value := by
  have hrow : value s = definition.evaluate value → ∀ row : Row Rat,
      (row.substitute s definition).evaluate value = row.evaluate value := by
    intro h row
    rw [Row.evaluate_substitute, h]
    ring
  constructor
  · intro h
    have hdef := h s definition (row?_define_self ..)
    refine ⟨hdef, fun u row hu => ?_⟩
    have hne : u ≠ s := by
      rintro rfl
      exact hs (isBasic_of_row? hu)
    rw [h u (row.substitute s definition) (by rw [row?_define_of_ne t _ hne, hu]; rfl),
      hrow hdef]
  · rintro ⟨hdef, h⟩ u r hr
    rcases row?_of_define hr with ⟨rfl, rfl⟩ | ⟨-, row, hu, rfl⟩
    · exact hdef
    · rw [hrow hdef, h u row hu]

/-- A definition solved for another symbol says the same. -/
theorem eq_exchange_iff {value : Symbol → Rat} {row : Row Rat} {leaving entering : Symbol}
    (hc : row.coefficient entering ≠ 0) (hleaving : ¬ row.mentions leaving = true) :
    value entering = (row.exchange leaving entering).evaluate value
      ↔ value leaving = row.evaluate value := by
  rw [Row.evaluate_exchange value (LinearForm.get?_of_coefficient_ne_zero hc) hc hleaving]
  constructor
  · intro h
    have hzero : (value leaving - row.evaluate value) / row.coefficient entering = 0 := by
      linarith
    rcases div_eq_zero_iff.mp hzero with h | h
    · linarith
    · exact absurd h hc
  · intro h
    rw [h]
    simp

/-- Exchanging two symbols leaves the solutions as they are. -/
theorem Separated.satisfies_exchange {t : Tableau Rat} (ht : t.Separated)
    {value : Symbol → Rat} {leaving entering : Symbol} {row : Row Rat}
    (hrow : t.row? leaving = some row) (hc : row.coefficient entering ≠ 0) :
    (t.exchange leaving entering).Satisfies value ↔ t.Satisfies value := by
  have hself := ht.not_mentions hrow (isBasic_of_row? hrow)
  have hent : ¬ (t.eraseRow leaving).isBasic entering = true := by
    intro hb
    refine ht.not_mentions hrow (isBasic_eraseRow_iff.mp hb).2 ?_
    exact LinearForm.mentions_iff.mpr ⟨_, LinearForm.get?_of_coefficient_ne_zero hc⟩
  rw [exchange_of_row? hrow, satisfies_define hent, eq_exchange_iff hc hself,
    ← satisfies_iff_eraseRow hrow]

end LinearConstraints.Tableau
