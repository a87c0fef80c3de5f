import LinearConstraints.Proofs.PhaseOne.Moves
import LinearConstraints.Proofs.Tableau.Solutions

/-! # An exchange can be undone

    A separated tableau without zero cells is determined by its basic symbols
    and its solutions: the parametric symbols can have any values, the value
    of a basic symbol then follows, and a row without zero cells is determined
    by its values.  An exchange changes which symbols are basic and leaves the
    solutions as they are, and the exchange back changes the same two symbols
    again.  So it restores every row to the cell, those that cancelled out
    and those that were filled in among them. -/

namespace LinearConstraints.Tableau

/-- A tableau is its rows, its next number and its epsilon. -/
theorem ext_fields {α : Type} {t u : Tableau α} (hrows : t.rows = u.rows)
    (hnext : t.nextIndex = u.nextIndex) (hepsilon : t.epsilon = u.epsilon) : t = u := by
  cases t
  cases u
  cases hrows
  cases hnext
  cases hepsilon
  rfl

section AnyTolerance

variable [Tolerance]

/-- Separated tableaux without zero cells that have the same basic symbols and
    the same solutions have the same rows. -/
theorem rows_eq_of_satisfies_iff {t u : Tableau Rat} (ht : t.Separated) (hu : u.Separated)
    (htp : t.Pruned) (hup : u.Pruned) (hbasis : ∀ s, t.isBasic s = true ↔ u.isBasic s = true)
    (hsat : ∀ value, t.Satisfies value ↔ u.Satisfies value) : t.rows = u.rows := by
  refine OrderedMap.ext fun s => ?_
  show t.row? s = u.row? s
  by_cases hs : t.isBasic s = true
  · obtain ⟨row, hrow⟩ := isBasic_iff.mp hs
    obtain ⟨row', hrow'⟩ := isBasic_iff.mp ((hbasis s).mp hs)
    have hsame : row = row' := by
      refine (htp s row hrow).eq_of_evaluate_eq (hup s row' hrow') fun value => ?_
      -- the parametric symbols have these values in a solution of both
      have hsolution := (hsat _).mp (ht.satisfies_extend value)
      calc row.evaluate value
          = t.extend value s := (extend_of_row? hrow).symm
        _ = row'.evaluate (t.extend value) := hsolution s row' hrow'
        _ = row'.evaluate value := hu.evaluate_congr (fun v hv =>
              extend_of_not_isBasic fun hb => hv ((hbasis v).mp hb)) hrow'
    rw [hrow, hrow', hsame]
  · rw [row?_eq_none_of_not_isBasic hs, row?_eq_none_of_not_isBasic fun h => hs ((hbasis s).mpr h)]

end AnyTolerance

open Exact

/-- The row of an exchange mentions the symbol that has left. -/
theorem coefficient_exchange_ne_zero {t : Tableau Rat} (ht : t.Separated) (hp : t.Pruned)
    {leaving entering : Symbol} {row : Row Rat} (hrow : t.row? leaving = some row)
    (hent : row.mentions entering = true) :
    (row.exchange leaving entering).coefficient leaving ≠ 0 := by
  have hpruned := Row.pruned_exchange (hp leaving row hrow) leaving entering
  refine hpruned.coefficient_ne_zero ((Row.mentions_exchange_iff ?_).mpr ⟨?_, Or.inl rfl⟩)
  · rw [Bool.eq_false_iff]
    intro hneg
    exact neg_ne_zero.mpr one_ne_zero (Row.negligible_iff_eq_zero.mp hneg)
  · rintro rfl
    exact ht.not_mentions hrow (isBasic_of_row? hrow) hent

/-- Exchanging two symbols and exchanging them back leaves the tableau as it
    was. -/
theorem exchange_exchange {t : Tableau Rat} (ht : t.Separated) (hp : t.Pruned)
    {leaving entering : Symbol} {row : Row Rat} (hrow : t.row? leaving = some row)
    (hent : row.mentions entering = true) :
    (t.exchange leaving entering).exchange entering leaving = t := by
  have hback : (t.exchange leaving entering).row? entering
      = some (row.exchange leaving entering) := row?_exchange_self hrow
  have hnew : (t.exchange leaving entering).Separated := ht.exchange hrow
  have hcoeff := (hp leaving row hrow).coefficient_ne_zero hent
  have hparametric : ¬ t.isBasic entering = true := fun hb => ht.not_mentions hrow hb hent
  have hrows : ((t.exchange leaving entering).exchange entering leaving).rows = t.rows := by
    refine rows_eq_of_satisfies_iff (hnew.exchange hback) ht
      ((hp.exchange leaving entering).exchange entering leaving) hp (fun s => ?_) fun value => ?_
    · rw [isBasic_exchange_iff hback, isBasic_exchange_iff hrow]
      constructor
      · rintro (rfl | ⟨hne, rfl | ⟨-, hb⟩⟩)
        · exact isBasic_of_row? hrow
        · exact absurd rfl hne
        · exact hb
      · intro hb
        by_cases hs : s = leaving
        · exact Or.inl hs
        · refine Or.inr ⟨?_, Or.inr ⟨hs, hb⟩⟩
          rintro rfl
          exact hparametric hb
    · rw [hnew.satisfies_exchange hback (coefficient_exchange_ne_zero ht hp hrow hent),
        ht.satisfies_exchange hrow hcoeff]
  have hnext : ((t.exchange leaving entering).exchange entering leaving).nextIndex = t.nextIndex := by
    rw [nextIndex_exchange, nextIndex_exchange]
  have hepsilon : ((t.exchange leaving entering).exchange entering leaving).epsilon = t.epsilon := by
    rw [epsilon_exchange, epsilon_exchange]
  exact ext_fields hrows hnext hepsilon

/-- Exchanging a basic symbol with one that its row mentions puts the second
    symbol in the place of the first among the basic ones and changes nothing
    else about them.  Basic symbols still occur in no row, there is still no
    zero cell, the solutions are the same, and the exchange back restores the
    tableau. -/
theorem exchange_reversible {t : Tableau Rat} (ht : t.Separated) (hp : t.Pruned)
    {leaving entering : Symbol} {row : Row Rat} (hrow : t.row? leaving = some row)
    (hent : row.mentions entering = true) :
    (t.isBasic entering = false ∧ (t.exchange leaving entering).isBasic leaving = false ∧
      ∀ s, (t.exchange leaving entering).isBasic s = true
        ↔ s = entering ∨ (s ≠ leaving ∧ t.isBasic s = true)) ∧
    (t.exchange leaving entering).Separated ∧
    (t.exchange leaving entering).Pruned ∧
    (∀ value, (t.exchange leaving entering).Satisfies value ↔ t.Satisfies value) ∧
    (t.exchange leaving entering).exchange entering leaving = t := by
  have hbasis : ∀ s, (t.exchange leaving entering).isBasic s = true
      ↔ s = entering ∨ (s ≠ leaving ∧ t.isBasic s = true) := fun s => isBasic_exchange_iff hrow
  have hparametric := ht leaving row entering hrow hent
  have hne : leaving ≠ entering := by
    rintro rfl
    exact ht.not_mentions hrow (isBasic_of_row? hrow) hent
  refine ⟨⟨hparametric, ?_, hbasis⟩, ht.exchange hrow, hp.exchange leaving entering,
    fun value => ?_, exchange_exchange ht hp hrow hent⟩
  · rw [Bool.eq_false_iff, Ne, hbasis leaving]
    rintro (h | ⟨h, -⟩)
    · exact hne h
    · exact h rfl
  · exact ht.satisfies_exchange hrow ((hp leaving row hrow).coefficient_ne_zero hent)

/-- The rows of a variable and a slack that share a slack and a variable. -/
def crossed : Tableau Rat where
  rows := ((∅ : OrderedMap Symbol (Row Rat)).insert (.external 1)
      ⟨3, (((∅ : OrderedMap Symbol Rat).insert (.external 0) 4).insert (.slack 1) (-2)).insert
        (.slack 2) 1⟩).insert
      (.slack 0) ⟨1, ((∅ : OrderedMap Symbol Rat).insert (.external 0) 2).insert (.slack 1) (-1)⟩
  nextIndex := 3
  epsilon := 0

/-- Once the first variable is basic, the other slack has cancelled out of the
    row of the second variable, and the slack that has left occurs in it.  The
    exchange back restores the one cell and takes the other away. -/
theorem exchange_reversible_crossed :
    crossed.column (.slack 0) = [] ∧
    (crossed.exchange (.slack 0) (.external 0)).column (.slack 0)
      = [(.external 0, 1 / 2), (.external 1, 2)] ∧
    crossed.column (.slack 1) = [(.external 1, -2), (.slack 0, -1)] ∧
    (crossed.exchange (.slack 0) (.external 0)).column (.slack 1) = [(.external 0, 1 / 2)] ∧
    (∀ value, (crossed.exchange (.slack 0) (.external 0)).Satisfies value
      ↔ crossed.Satisfies value) ∧
    (crossed.exchange (.slack 0) (.external 0)).exchange (.external 0) (.slack 0) = crossed := by
  let row : Row Rat :=
    ⟨1, ((∅ : OrderedMap Symbol Rat).insert (.external 0) 2).insert (.slack 1) (-1)⟩
  have hrow : crossed.row? (.slack 0) = some row := by decide +kernel
  have hent : row.mentions (.external 0) = true := by decide +kernel
  obtain ⟨-, -, -, hsat, hback⟩ :=
    exchange_reversible (by decide +kernel) (by decide +kernel) hrow hent
  exact ⟨by decide +kernel, by decide +kernel, by decide +kernel, by decide +kernel, hsat, hback⟩

end LinearConstraints.Tableau
