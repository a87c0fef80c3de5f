import LinearConstraints.Proofs.Guarded.PhaseOne
import LinearConstraints.Proofs.Tableau.Persistence
import LinearConstraints.Proofs.Tableau.Withdrawal

/-! # No call on a tableau divides by zero

    A relation is imposed by solving its row for a symbol that the row holds,
    and no cell of a row is zero.  A relation is withdrawn by solving the row of
    a donor, which holds the marker; and there is a donor wherever the marker
    occurs.  A repair absorbs rows one after the other, and each leaves a
    tableau that the next can be absorbed into. -/

namespace LinearConstraints.Guarded

open Tableau

variable [Tolerance] {t : Tableau Rat}

/-! ## Imposing -/

/-- The factor that lifts the coefficients of an expression above rounding
    noise. -/
def lift? (e : Expression Rat) : Option Rat :=
  let noise := (e.terms.entries.map fun a => Scalar.magnitude a.2).filter Scalar.negligible
  match leastBy? (noise.map fun c => (c, c)) with
  | some c => quotient? 1 c
  | none => some 1

theorem lift?_eq {e : Expression Rat} (he : e.Pruned) : lift? e = some e.lift := by
  simp only [lift?, Expression.lift]
  split
  · next c h =>
      have hc : c ≠ 0 := by
        obtain ⟨x, hx⟩ := mem_of_leastBy? h
        obtain ⟨c', hnoise, heq⟩ := List.mem_map.mp hx
        obtain ⟨⟨v, d⟩, hmem, hd⟩ := List.mem_map.mp (List.mem_filter.mp hnoise).1
        rw [← (Prod.mk.inj heq).1, ← hd, magnitude_eq_abs]
        exact abs_ne_zero.mpr (he v d (OrderedMap.mem_entries_iff.mp hmem))
      rw [h]
      exact quotient?_eq hc
  · next h => rw [h]

/-- The equation of a relation. -/
def rowOf? (t : Tableau Rat) (r : Relation Rat) : Option (Row Rat) := do
  let factor ← lift? r.normal
  return ((t.express r.normal factor).setTerm (t.marker r.comparison)
    (markerSign r.comparison)).orient

theorem rowOf?_eq {r : Relation Rat} (hr : r.normal.Pruned) :
    rowOf? t r = some (t.rowOf r) := by
  simp only [rowOf?]
  rw [lift?_eq hr]
  rfl

/-- Imposes a relation and hands out its marker. -/
def impose (editable : VariableId → Bool) (r : Relation Rat) (t : Tableau Rat) :
    Guarded (Symbol × Tableau Rat) := do
  let marker := t.marker r.comparison
  let row ← rowOf? t r
  let next := { t with nextIndex := t.nextIndex + 1 }
  match t.subject? editable r row with
  | some subject =>
      let definition ← isolate? row subject
      return (marker, next.define subject definition)
  | none =>
      if row.onlyDummies then
        if t.epsilon < row.constant then throw (.unsatisfiable r)
        let definition ← isolate? { row with constant := 0 } marker
        return (marker, { next with rows := next.rows.insert marker definition })
      else
        return (marker, ← absorb (.unsatisfiable r) row next)

/-- Imposing goes through, and what it leaves can be called on again. -/
theorem Sturdy.impose (ht : Sturdy t) (hsteady : Scalar.Steady t.epsilon) {r : Relation Rat}
    (hr : r.normal.Pruned) (editable : VariableId → Bool) :
    Passes (impose editable r t) (t.impose editable r) (fun a => Sturdy a.2) := by
  have hrow := t.pruned_rowOf r
  have hnext : Sturdy { t with nextIndex := t.nextIndex + 1 } :=
    ⟨ht.wellFormed.next, ht.pruned, ht.epsilon_nonneg⟩
  refine .lift (rowOf?_eq hr) ?_
  rw [Tableau.impose_eq]
  cases hsub : t.subject? editable r (t.rowOf r) with
  | some subject =>
      simp only
      refine .lift (isolate?_eq (coefficient_subject_ne_zero hsub)) ?_
      exact .ok rfl ⟨ht.wellFormed.define_subject hsub,
        hnext.pruned.define subject (Row.pruned_isolate hrow subject), ht.epsilon_nonneg⟩
  | none =>
      simp only
      split
      · next hdum =>
          split
          · exact .error rfl rfl
          · -- the marker is a symbol of the row as well
            have hcoeff : LinearForm.coefficient { t.rowOf r with constant := 0 }
                (t.marker r.comparison) ≠ 0 :=
              hrow.coefficient_ne_zero (marker_mem_rowOf hsteady r)
            have hzero : LinearForm.Pruned { t.rowOf r with constant := 0 } := hrow
            refine .lift (isolate?_eq hcoeff) ?_
            exact .ok rfl ⟨ht.wellFormed.park hdum,
              ht.pruned.insertRow _ (Row.pruned_isolate hzero _) _, ht.epsilon_nonneg⟩
      · exact (hnext.absorb (ht.wellFormed.fits_rowOf r) hrow rfl).bind fun u hu =>
          .ok rfl hu.1

/-! ## Withdrawing -/

/-- How far a marker may move before each restricted row that it lowers reaches
    zero. -/
def lowered? (t : Tableau Rat) (marker : Symbol) : Option (List ((Symbol × Row Rat) × Rat)) :=
  quotients? (t.rows.entries.filterMap fun a =>
    let c := a.2.coefficient marker
    if !(c == 0) ∧ !a.1.isExternal ∧ c < 0 then some (a, -a.2.constant, c) else none)

theorem lowered?_eq (marker : Symbol) : lowered? t marker = some (t.lowered marker) :=
  quotients?_eq fun _ _ htest => ne_of_lt htest.2.2

/-- The same for the rows that it raises, as the marker moves downwards. -/
def raised? (t : Tableau Rat) (marker : Symbol) : Option (List ((Symbol × Row Rat) × Rat)) :=
  quotients? (t.rows.entries.filterMap fun a =>
    let c := a.2.coefficient marker
    if !(c == 0) ∧ !a.1.isExternal ∧ ¬ c < 0 then some (a, a.2.constant, c) else none)

theorem raised?_eq (marker : Symbol) : raised? t marker = some (t.raised marker) :=
  quotients?_eq fun _ _ htest => by simpa using htest.1

/-- The symbol that gives its row to a parametric marker, if there is one. -/
def donor? (t : Tableau Rat) (marker : Symbol) : Option (Option (Symbol × Row Rat)) := do
  let lowered ← lowered? t marker
  let raised ← raised? t marker
  return (t.rows.find? fun s row => s.isDummy && row.mentions marker)
    |>.or (leastBy? lowered)
    |>.or (leastBy? raised)
    |>.or (t.rows.find? fun s row => s.isExternal && !(row.coefficient marker == 0))

theorem donor?_eq (marker : Symbol) : donor? t marker = some (t.donor? marker) := by
  simp only [donor?]
  rw [lowered?_eq, raised?_eq]
  rfl

/-- Withdraws the relation with the given marker. -/
def withdraw (marker : Symbol) (t : Tableau Rat) : Guarded (Tableau Rat) :=
  if t.isBasic marker then return t.eraseRow marker
  else if t.mentions marker then do
    match ← donor? t marker with
    | some (leaving, row) =>
        return (t.eraseRow leaving).substitute marker (← solve? row leaving marker)
    | none => throw .markerWithoutRow
  else return t

/-- Withdrawing never divides by zero. -/
theorem Sturdy.run_withdraw (ht : Sturdy t) (marker : Symbol) :
    (Guarded.withdraw marker t).run = some (t.withdraw marker) := by
  rw [Guarded.withdraw, Tableau.withdraw_eq]
  by_cases hb : t.isBasic marker = true
  · rw [if_pos hb, if_pos hb]
    rfl
  · rw [if_neg hb, if_neg hb]
    by_cases hm : t.mentions marker = true
    · rw [if_pos hm, if_pos hm, run_lift (donor?_eq marker)]
      -- a marker that occurs finds a donor, whose row holds it
      obtain ⟨leaving, row, hdonor⟩ := ht.pruned.exists_donor ht.wellFormed hm hb
      have hne : marker ≠ leaving := by
        rintro rfl
        exact hb (isBasic_of_row? (donor?_spec hdonor).1)
      rw [hdonor]
      simp only
      rw [run_lift (solve?_eq hne (ht.pruned.coefficient_donor hdonor))]
      rfl
    · rw [if_neg hm, if_neg hm]
      rfl

/-- Withdrawing goes through, and what it leaves can be called on again. -/
theorem Sturdy.withdraw (ht : Sturdy t) (marker : Symbol) :
    Passes (withdraw marker t) (t.withdraw marker) Sturdy := by
  obtain ⟨t', h⟩ := ht.pruned.exists_withdraw ht.wellFormed marker
  obtain ⟨hwf, -, heps⟩ := ht.wellFormed.withdraw h
  have hrun := ht.run_withdraw marker
  rw [h] at hrun ⊢
  exact .ok hrun ⟨hwf, ht.pruned.withdraw h, le_of_le_of_eq ht.epsilon_nonneg heps.symm⟩

/-! ## Repairing -/

/-- Absorbs equations one after the other, each in its reduced form. -/
def absorbAll : List (Symbol × Row Rat) → Tableau Rat → Guarded (Tableau Rat)
  | [], t => return t
  | (s, row) :: rest, t => do
      let t ← absorb (.unrepairable s) (t.reduce row).orient t
      absorbAll rest t

/-- Absorbing equations over known symbols goes through, one after the other. -/
theorem Sturdy.absorbAll {pending : List (Symbol × Row Rat)} (ht : Sturdy t)
    (hpruned : ∀ a ∈ pending, a.2.Pruned)
    (hknown : ∀ a ∈ pending, ∀ u, a.2.mentions u = true →
      (u.isExternal = true ∨ u.index < t.nextIndex) ∧ u.isArtificial = false) :
    Passes (absorbAll pending t) (Tableau.absorbAll pending t) Sturdy := by
  induction pending generalizing t with
  | nil => exact .ok rfl ht
  | cons a pending ih =>
      obtain ⟨hcells, hcells'⟩ := List.forall_mem_cons.mp hpruned
      obtain ⟨hhead, hlater⟩ := List.forall_mem_cons.mp hknown
      rw [Tableau.absorbAll_cons_eq_bind]
      refine (ht.absorb (ht.wellFormed.fits_reduce hhead)
        (Row.pruned_orient (t.pruned_reduce hcells)) rfl).bind fun u hu => ?_
      obtain ⟨hu, hnext⟩ := hu
      -- numbers only grow, so that what was known still is
      exact ih hu hcells' fun b hb v hv =>
        (hlater b hb v hv).imp_left fun h => h.imp_right fun h => Nat.lt_trans h hnext

/-- Makes the tableau feasible again. -/
def repair (t : Tableau Rat) : Guarded (Tableau Rat) :=
  absorbAll t.negativeRows
    { t with rows := t.rows.filter fun s row => !t.isNegative s row }

/-- A repair goes through, and what it leaves can be called on again. -/
theorem Sturdy.repair (ht : Sturdy t) : Passes (repair t) t.repair Sturdy := by
  have hsound : Sturdy { t with rows := t.rows.filter fun s row => !t.isNegative s row } :=
    ⟨ht.wellFormed.filter _, ht.pruned.filter _, ht.epsilon_nonneg⟩
  exact hsound.absorbAll (fun a ha => ht.pruned.negativeRows ha)
    (fun a ha u hu => ht.wellFormed.known_negativeRows ha hu)

end LinearConstraints.Guarded
