import LinearConstraints.Proofs.Guarded.Basic
import LinearConstraints.Proofs.PhaseOne.Pivot
import LinearConstraints.Proofs.Tableau.Pruning

/-! # Phase one does not divide by zero

    The entering symbol comes with a row that it lowers by more than the
    tolerance, and so do the rows that block it; the artificial gives way to a
    symbol of its own row, where no cell is zero.  And whichever way the
    entering symbol moves, the artificial's own row is among those that block
    it, so that the search is never without a leaving symbol. -/

namespace LinearConstraints.Guarded

open Tableau

variable [Tolerance]

/-! ## The search -/

/-- The tableau after an exchange. -/
def exchange? (t : Tableau Rat) (leaving entering : Symbol) : Option (Tableau Rat) :=
  match t.row? leaving with
  | some row => do return (t.eraseRow leaving).define entering (← solve? row leaving entering)
  | none => some t

theorem exchange?_eq {t : Tableau Rat} {leaving entering : Symbol} {row : Row Rat}
    (hrow : t.row? leaving = some row) (hne : entering ≠ leaving)
    (h : row.coefficient entering ≠ 0) :
    exchange? t leaving entering = some (t.exchange leaving entering) := by
  simp only [exchange?]
  rw [hrow]
  simp only
  rw [solve?_eq hne h, exchange_of_row? hrow]
  rfl

/-- The ratios of the rows that block a move. -/
def ratios? (t : Tableau Rat) (entering : Symbol) (direction : Direction) :
    Option (List (Symbol × Rat)) :=
  quotients? (t.rows.entries.filterMap fun a =>
    let rate := direction.rate (a.2.coefficient entering)
    if a.1.isRestricted ∧ rate < -t.epsilon then some (a.1, a.2.constant, -rate) else none)

theorem ratios?_eq {t : Tableau Rat} (heps : 0 ≤ t.epsilon) (entering : Symbol)
    (direction : Direction) :
    ratios? t entering direction = some (t.ratios entering direction) :=
  quotients?_eq fun _ _ htest =>
    neg_ne_zero.mpr (ne_of_lt (lt_of_lt_of_le htest.2 (neg_nonpos.mpr heps)))

/-- The next exchange that lowers a basic symbol. -/
def nextMove? (t : Tableau Rat) (objective : Symbol) : Option Move :=
  match t.row? objective with
  | none => some .done
  | some row =>
      if row.constant ≤ t.epsilon then some .done
      else
        match t.entering? row with
        | none => some .done
        | some (entering, direction) => do
            match leastBy? (← ratios? t entering direction) with
            | none => return .unbounded
            | some leaving => return .exchange leaving entering

theorem nextMove?_eq {t : Tableau Rat} (heps : 0 ≤ t.epsilon) (objective : Symbol) :
    nextMove? t objective = some (t.nextMove objective) := by
  simp only [nextMove?, nextMove]
  cases t.row? objective with
  | none => rfl
  | some row =>
      simp only
      split
      · rfl
      · cases t.entering? row with
        | none => rfl
        | some a =>
            obtain ⟨entering, direction⟩ := a
            simp only [leaving?]
            rw [ratios?_eq heps]
            simp only [Option.bind_eq_bind, Option.bind_some]
            cases leastBy? (t.ratios entering direction) <;> rfl

/-- Lowers a basic symbol by no more than the given number of exchanges. -/
def descend (objective : Symbol) (limit : Nat) (t : Tableau Rat) : Guarded (Tableau Rat) := do
  match ← nextMove? t objective with
  | .done => return t
  | .unbounded => throw .unboundedArtificial
  | .exchange leaving entering =>
      match limit with
      | 0 => throw .endlessSearch
      | limit + 1 => descend objective limit (← exchange? t leaving entering)

/-- A search never divides by zero, however long it is. -/
theorem run_descend {objective : Symbol} {limit : Nat} :
    ∀ {t : Tableau Rat}, t.Separated → 0 ≤ t.epsilon →
      (descend objective limit t).run = some (t.descend objective limit) := by
  -- by induction on the limit; an exchange keeps basic symbols out of the rows
  induction limit with
  | zero =>
      intro t ht heps
      rw [descend, Tableau.descend_eq, run_lift (nextMove?_eq heps objective)]
      cases t.nextMove objective <;> rfl
  | succ limit ih =>
      intro t ht heps
      rw [descend, Tableau.descend_eq, run_lift (nextMove?_eq heps objective)]
      cases hmove : t.nextMove objective with
      | done => rfl
      | unbounded => rfl
      | exchange leaving entering =>
          obtain ⟨row, hrow, hcoeff⟩ := exists_coefficient_ne_zero heps hmove
          obtain ⟨_, _, hobj, -, hent, -⟩ := exists_of_nextMove hmove
          -- the entering symbol is parametric and the leaving one basic
          have hne : entering ≠ leaving := by
            rintro rfl
            exact ht.not_isBasic_entering hobj hent (isBasic_of_row? hrow)
          simp only
          rw [run_lift (exchange?_eq hrow hne hcoeff)]
          exact ih (ht.exchange hrow) (le_of_le_of_eq heps (epsilon_exchange ..).symm)

/-- Nor is it refused for a reason of its own: the objective itself blocks every
    move that lowers it. -/
theorem isInternal_of_descend {objective : Symbol} (hobj : objective.isRestricted = true)
    {limit : Nat} {reason : Refusal Rat} :
    ∀ {t : Tableau Rat}, t.descend objective limit = .error reason →
      reason.isInternal = false := by
  induction limit with
  | zero =>
      intro t h
      rw [Tableau.descend_eq] at h
      split at h
      · exact nomatch h
      · next hmove => exact absurd hmove (nextMove_ne_unbounded Lowers.rate_lt hobj)
      · obtain rfl := Except.error.inj h
        rfl
  | succ limit ih =>
      intro t h
      rw [Tableau.descend_eq] at h
      split at h
      · exact nomatch h
      · next hmove => exact absurd hmove (nextMove_ne_unbounded Lowers.rate_lt hobj)
      · exact ih h

/-- Lowers a basic symbol until it is zero or cannot get any lower. -/
def minimize (objective : Symbol) (t : Tableau Rat) : Guarded (Tableau Rat) :=
  descend objective (Scalar.patience Rat t.symbols.length) t

/-- Searches go through, whatever patience there is with them. -/
theorem passes_minimize {u : Tableau Rat} (hsep : u.Separated) (heps : 0 ≤ u.epsilon)
    {objective : Symbol} (hobj : objective.isRestricted = true) :
    Passes (minimize objective u) (u.minimize objective)
      (fun v => u.minimize objective = .ok v) where
  run_eq := run_descend hsep heps
  holds _ h := h
  fair _ h := isInternal_of_descend hobj h

/-! ## Absorbing -/

/-- The tableau in which an artificial at zero has given its row up. -/
def vacate? (t : Tableau Rat) (artificial : Symbol) : Option (Tableau Rat) :=
  match t.row? artificial with
  | none => some t
  | some row =>
      match successor? row with
      | none => some (t.eraseRow artificial)
      | some entering => do
          return (t.eraseRow artificial).define entering
            (← solve? { row with constant := 0 } artificial entering)

theorem vacate?_eq {t : Tableau Rat} (ht : t.Separated) (hp : t.Pruned) (artificial : Symbol) :
    vacate? t artificial = some (t.vacate artificial) := by
  simp only [vacate?, vacate]
  cases hrow : t.row? artificial with
  | none => rfl
  | some row =>
      simp only
      cases hsucc : successor? row with
      | none => rfl
      | some entering =>
          -- the successor is a symbol of the row, where no cell is zero
          have hm := (successor?_spec hsucc).1
          have hne : entering ≠ artificial := by
            rintro rfl
            exact ht.not_mentions hrow (isBasic_of_row? hrow) hm
          have hcoeff : LinearForm.coefficient { row with constant := 0 } entering ≠ 0 :=
            (hp artificial row hrow).coefficient_ne_zero hm
          simp only
          rw [solve?_eq hne hcoeff]
          rfl

/-- The tableau without an artificial at zero. -/
def retire? (t : Tableau Rat) (artificial : Symbol) : Option (Tableau Rat) := do
  let vacated ← vacate? t artificial
  return vacated.eraseColumn artificial

theorem retire?_eq {t : Tableau Rat} (ht : t.Separated) (hp : t.Pruned) (artificial : Symbol) :
    retire? t artificial = some (t.retire artificial) := by
  simp only [retire?]
  rw [vacate?_eq ht hp]
  rfl

/-- Absorbs the equation `0 = row`. -/
def absorb (reason : Refusal Rat) (row : Row Rat) (t : Tableau Rat) : Guarded (Tableau Rat) := do
  let artificial := Symbol.artificial t.nextIndex
  let t ← minimize artificial
    { t with rows := t.rows.insert artificial row, nextIndex := t.nextIndex + 1 }
  if t.epsilon < t.valueOf artificial then throw reason
  retire? t artificial

/-- What a tableau needs for calls on it to go through. -/
structure Sturdy (t : Tableau Rat) : Prop where
  /-- The tableau is well formed, -/
  wellFormed : t.WellFormed
  /-- has no zero cells -/
  pruned : t.Pruned
  /-- and a proper tolerance. -/
  epsilon_nonneg : 0 ≤ t.epsilon

/-- Absorbing goes through, and what it leaves can be called on again. -/
theorem Sturdy.absorb {t : Tableau Rat} (ht : Sturdy t) {row : Row Rat} (hrow : t.Fits row)
    (hpruned : row.Pruned) {reason : Refusal Rat} (hreason : reason.isInternal = false) :
    Passes (absorb reason row t) (t.absorb reason row)
      (fun u => Sturdy u ∧ t.nextIndex < u.nextIndex) := by
  have hcharged : (t.charge row).Pruned := ht.pruned.insertRow _ hpruned _
  have hsep := (ht.wellFormed.charge hrow).orderly.separated
  rw [Tableau.absorb_eq_bind]
  refine (passes_minimize (u := t.charge row) hsep ht.epsilon_nonneg rfl).bind fun u hu => ?_
  -- wherever the search ends, the artificial is still the only one
  have hends := searching_of_descend ht.wellFormed hrow hu
  have hcells := hcharged.descend hu
  obtain ⟨hwf, hnext, heps⟩ := hends.retire
  split
  · exact .error rfl hreason
  · exact .last (retire?_eq hends.orderly.separated hcells _)
      ⟨⟨hwf, hcells.retire _, le_of_le_of_eq ht.epsilon_nonneg heps.symm⟩, hnext⟩

end LinearConstraints.Guarded
