import LinearConstraints.Proofs.PhaseOne.Pivot
import Mathlib.Algebra.Order.BigOperators.Group.List
import Mathlib.Data.Finset.Lattice.Fold
import Mathlib.Data.Finset.Max
import Mathlib.Data.Prod.Lex
import Mathlib.Order.Monotone.Basic

/-! # Phase one never comes back

    With exact numbers and no tolerance, pivots never lead back to a set of
    basic symbols they have left.  Suppose they did.  The objective never
    rises, so around the cycle it stands still, and with it all values: every
    step has length zero.  Variables never leave, so none enters either, and
    the symbols that come and go are restricted and stand at zero.

    Take the greatest of these.  Where it enters, no lesser one lowers the
    objective; where it leaves, another one enters that does.  Comparing the
    two rows of the objective along that move gives a lesser symbol that comes
    and goes, that the move lowers too, and that should have left instead. -/

namespace LinearConstraints

/-! ## Places of symbols in the order -/

/-- Kind and number, as a place in a linear order. -/
def Symbol.place (s : Symbol) : Nat ×ₗ Nat := toLex (s.rank, s.index)

theorem Symbol.compare_eq_lt_iff {s u : Symbol} : compare s u = .lt ↔ s.place < u.place := by
  show (compare s.rank u.rank).then (compare s.index u.index) = .lt
    ↔ toLex (s.rank, s.index) < toLex (u.rank, u.index)
  rw [Ordering.then_eq_lt, Nat.compare_eq_lt, Nat.compare_eq_eq, Nat.compare_eq_lt,
    Prod.Lex.toLex_lt_toLex]

theorem Symbol.place_injective {s u : Symbol} (h : s.place = u.place) : s = u := by
  have h' : (s.rank, s.index) = (u.rank, u.index) := toLex.injective h
  exact Symbol.ext_rank_index (congrArg Prod.fst h') (congrArg Prod.snd h')

theorem Symbol.not_isExternal_of_isRestricted {s : Symbol} (h : s.isRestricted = true) :
    s.isExternal = false := by
  cases s with
  | external v => exact nomatch h
  | slack i => rfl
  | dummy i => rfl
  | artificial i => rfl

theorem Symbol.not_isExternal_of_isDummy {s : Symbol} (h : s.isDummy = true) :
    s.isExternal = false := by
  cases s with
  | external v => exact nomatch h
  | slack i => rfl
  | dummy i => rfl
  | artificial i => rfl

/-! ## Steps without tolerance -/

section Step

variable [Tolerance]

namespace Tableau

/-- Whether no restricted symbol is negative, with no tolerance. -/
def Nonnegative (t : Tableau Rat) : Prop := ∀ s, s.isRestricted = true → 0 ≤ t.valueOf s

/-- How far the entering symbol moves in a pivot. -/
def stride (t : Tableau Rat) (leaving entering : Symbol) (direction : Direction) : Rat :=
  t.valueOf leaving / -direction.rate (t.slope entering leaving)

variable {t : Tableau Rat} {objective leaving entering : Symbol} {direction : Direction}

/-- A pivot moves every symbol along its slope. -/
theorem Pivot.valueOf_exchange (hp : t.Pivot objective leaving entering direction)
    (heps : 0 ≤ t.epsilon) (s : Symbol) :
    (t.exchange leaving entering).valueOf s
      = t.valueOf s
        + direction.rate (t.slope entering s) * t.stride leaving entering direction := by
  have hrate : direction.rate (t.slope entering leaving) < 0 := by
    have := hp.blocks
    linarith
  have hslope : t.slope entering leaving ≠ 0 := by
    intro h
    rw [h] at hrate
    cases direction <;> simp [Direction.rate] at hrate
  rw [Tableau.valueOf_exchange hp.basic_leaving.1 hp.parametric hslope s, stride]
  cases direction with
  | up =>
      show _ = t.valueOf s + t.slope entering s * (t.valueOf leaving / -t.slope entering leaving)
      field_simp
  | down =>
      show _ = t.valueOf s
        + -t.slope entering s * (t.valueOf leaving / - -t.slope entering leaving)
      field_simp

theorem Pivot.stride_nonneg (hp : t.Pivot objective leaving entering direction)
    (heps : t.epsilon = 0) (hnonneg : t.Nonnegative) :
    0 ≤ t.stride leaving entering direction := by
  have hrate := hp.blocks
  rw [heps] at hrate
  exact div_nonneg (hnonneg leaving hp.basic_leaving.2) (by linarith)

/-- Pivots keep restricted symbols from becoming negative. -/
theorem Pivot.nonnegative_exchange (hp : t.Pivot objective leaving entering direction)
    (heps : t.epsilon = 0) (hnonneg : t.Nonnegative) :
    (t.exchange leaving entering).Nonnegative := by
  intro s hs
  have hstride := hp.stride_nonneg heps hnonneg
  rw [hp.valueOf_exchange heps.ge]
  by_cases hrate : direction.rate (t.slope entering s) < 0
  · by_cases hb : t.isBasic s = true
    · -- the leaving symbol is the first to reach zero
      have hfirst := (hp.first s hb hs (by rw [heps]; linarith)).1
      have hpos : 0 < -direction.rate (t.slope entering s) := by linarith
      have := (le_div_iff₀ hpos).mp hfirst
      simp only [stride]
      linarith
    · -- the entering symbol moves up
      exfalso
      by_cases he : s = entering
      · subst he
        rcases hp.kind with ⟨-, rfl⟩ | hext
        · rw [slope_self] at hrate
          exact absurd hrate (not_lt.mpr zero_le_one)
        · rw [Symbol.not_isExternal_of_isRestricted hs] at hext
          exact nomatch hext
      · rw [slope_of_not_isBasic hb he] at hrate
        cases direction <;> simp [Direction.rate] at hrate
  · have := mul_nonneg (not_lt.mp hrate) hstride
    have := hnonneg s hs
    linarith

/-- The objective does not rise, and where it stands still so does everything
    else. -/
theorem Pivot.objective_le (hp : t.Pivot objective leaving entering direction)
    (heps : t.epsilon = 0) (hnonneg : t.Nonnegative) :
    (t.exchange leaving entering).valueOf objective ≤ t.valueOf objective ∧
      ((t.exchange leaving entering).valueOf objective = t.valueOf objective →
        t.stride leaving entering direction = 0) := by
  have hlow := hp.lowers
  rw [heps] at hlow
  have hstride := hp.stride_nonneg heps hnonneg
  rw [hp.valueOf_exchange heps.ge]
  constructor
  · have := mul_nonneg_of_nonpos_of_nonpos (by linarith :
      direction.rate (t.slope entering objective) ≤ 0) (neg_nonpos.mpr hstride)
    linarith
  · intro h
    have hzero : direction.rate (t.slope entering objective)
        * t.stride leaving entering direction = 0 := by linarith
    rcases mul_eq_zero.mp hzero with h | h
    · linarith
    · exact h

end Tableau

end Step

/-! ## Cycles -/

open Exact

/-- Pivots that lead back to the basic symbols they started with. -/
structure Cycle (objective : Symbol) where
  /-- The number of pivots. -/
  length : Nat
  /-- The tableaux passed through. -/
  tableau : Nat → Tableau Rat
  /-- The symbol that leaves in each pivot. -/
  leaving : Nat → Symbol
  /-- The symbol that enters in each pivot. -/
  entering : Nat → Symbol
  /-- The way it moves. -/
  direction : Nat → Direction
  /-- There is at least one pivot. -/
  length_pos : 0 < length
  /-- Basic and parametric symbols are apart. -/
  separated : ∀ k, (tableau k).Separated
  /-- There is no tolerance. -/
  epsilon_eq : ∀ k, (tableau k).epsilon = 0
  /-- Every tableau is feasible. -/
  nonnegative : ∀ k, (tableau k).Nonnegative
  /-- Every exchange is a pivot. -/
  pivot : ∀ k, k < length → (tableau k).Pivot objective (leaving k) (entering k) (direction k)
  /-- Every tableau follows from the one before. -/
  next : ∀ k, k < length → tableau (k + 1) = (tableau k).exchange (leaving k) (entering k)
  /-- The last tableau has the basic symbols of the first. -/
  closed : ∀ s, (tableau length).isBasic s = true ↔ (tableau 0).isBasic s = true

namespace Cycle

variable {objective : Symbol} (c : Cycle objective)

/-- What a pivot does to the set of basic symbols. -/
theorem isBasic_next {k : Nat} (hk : k < c.length) (s : Symbol) :
    (c.tableau (k + 1)).isBasic s = true
      ↔ s = c.entering k ∨ (s ≠ c.leaving k ∧ (c.tableau k).isBasic s = true) := by
  obtain ⟨row, hrow⟩ := Tableau.isBasic_iff.mp (c.pivot k hk).basic_leaving.1
  rw [c.next k hk, Tableau.isBasic_exchange_iff hrow]

/-- All tableaux of a cycle have the same solutions. -/
theorem satisfies_iff {k : Nat} (hk : k ≤ c.length) (value : Symbol → Rat) :
    (c.tableau k).Satisfies value ↔ (c.tableau 0).Satisfies value := by
  induction k with
  | zero => exact Iff.rfl
  | succ k ih =>
      have hp := c.pivot k hk
      obtain ⟨row, hrow⟩ := Tableau.isBasic_iff.mp hp.basic_leaving.1
      have hne : c.leaving k ≠ c.entering k := by
        intro h
        exact hp.parametric (h ▸ hp.basic_leaving.1)
      have hcoeff : row.coefficient (c.entering k) ≠ 0 := by
        have hblocks := hp.blocks
        rw [c.epsilon_eq k, Tableau.slope_of_row? hrow hne] at hblocks
        intro h
        rw [h] at hblocks
        cases hd : c.direction k <;> simp [hd, Direction.rate] at hblocks
      rw [c.next k hk, (c.separated k).satisfies_exchange hrow hcoeff]
      exact ih (Nat.le_of_succ_le hk)

/-- Around the cycle all values are back where they were. -/
theorem valueOf_length (s : Symbol) :
    (c.tableau c.length).valueOf s = (c.tableau 0).valueOf s := by
  have hsol : (c.tableau c.length).Satisfies (c.tableau 0).valueOf :=
    (c.satisfies_iff (le_refl _) _).mpr (c.separated 0).satisfies_valueOf
  by_cases hb : (c.tableau c.length).isBasic s = true
  · obtain ⟨row, hrow⟩ := Tableau.isBasic_iff.mp hb
    rw [Tableau.valueOf_of_row? hrow, hsol s row hrow, LinearForm.evaluate_eq_constant]
    intro u hu
    refine Tableau.valueOf_of_not_isBasic fun hbu => ?_
    exact (c.separated c.length).not_mentions hrow ((c.closed u).mpr hbu) hu
  · rw [Tableau.valueOf_of_not_isBasic hb,
      Tableau.valueOf_of_not_isBasic fun h => hb ((c.closed s).mpr h)]

/-- The objective never rises. -/
theorem objective_le {j k : Nat} (hjk : j ≤ k) (hk : k ≤ c.length) :
    (c.tableau k).valueOf objective ≤ (c.tableau j).valueOf objective := by
  induction k, hjk using Nat.le_induction with
  | base => exact le_refl _
  | succ k _ ih =>
      refine le_trans ?_ (ih (Nat.le_of_succ_le hk))
      rw [c.next k hk]
      exact ((c.pivot k hk).objective_le (c.epsilon_eq k) (c.nonnegative k)).1

/-- So it stands still, and every step has length zero. -/
theorem stride_eq_zero {k : Nat} (hk : k < c.length) :
    (c.tableau k).stride (c.leaving k) (c.entering k) (c.direction k) = 0 := by
  refine ((c.pivot k hk).objective_le (c.epsilon_eq k) (c.nonnegative k)).2 ?_
  rw [← c.next k hk]
  have h₁ := c.objective_le (Nat.zero_le k) (le_of_lt hk)
  have h₂ := c.objective_le (Nat.le_succ k) hk
  have h₃ := c.objective_le (Nat.succ_le_of_lt hk) (le_refl _)
  have h₄ := c.valueOf_length objective
  linarith

/-- All tableaux of a cycle give the symbols the same values. -/
theorem valueOf_eq {k : Nat} (hk : k ≤ c.length) (s : Symbol) :
    (c.tableau k).valueOf s = (c.tableau 0).valueOf s := by
  induction k with
  | zero => rfl
  | succ k ih =>
      rw [c.next k hk, (c.pivot k hk).valueOf_exchange (c.epsilon_eq k).ge,
        c.stride_eq_zero hk, ih (Nat.le_of_succ_le hk)]
      ring

/-- A symbol that never leaves stays basic. -/
theorem isBasic_of_never_leaves {s : Symbol} (h : ∀ q, q < c.length → c.leaving q ≠ s)
    {j k : Nat} (hjk : j ≤ k) (hk : k ≤ c.length) (hj : (c.tableau j).isBasic s = true) :
    (c.tableau k).isBasic s = true := by
  induction k, hjk using Nat.le_induction with
  | base => exact hj
  | succ k _ ih =>
      exact (c.isBasic_next hk s).mpr
        (Or.inr ⟨fun heq => h k hk heq.symm, ih (Nat.le_of_succ_le hk)⟩)

/-- A symbol that never enters has been basic before if it ever is. -/
theorem isBasic_of_never_enters {s : Symbol} (h : ∀ q, q < c.length → c.entering q ≠ s)
    {j k : Nat} (hjk : j ≤ k) (hk : k ≤ c.length) (hs : (c.tableau k).isBasic s = true) :
    (c.tableau j).isBasic s = true := by
  induction k, hjk using Nat.le_induction with
  | base => exact hs
  | succ k _ ih =>
      rcases (c.isBasic_next hk s).mp hs with heq | ⟨-, hs⟩
      · exact absurd heq.symm (h k hk)
      · exact ih (Nat.le_of_succ_le hk) hs

/-- A symbol that is basic at one time and parametric at another both enters
    and leaves. -/
theorem comes_and_goes {s : Symbol} {j k : Nat} (hj : j ≤ c.length) (hk : k ≤ c.length)
    (hbj : (c.tableau j).isBasic s = true) (hbk : ¬ (c.tableau k).isBasic s = true) :
    (∃ p, p < c.length ∧ c.entering p = s) ∧ ∃ q, q < c.length ∧ c.leaving q = s := by
  constructor
  · by_contra hnone
    have hnever : ∀ q, q < c.length → c.entering q ≠ s := fun q hq he => hnone ⟨q, hq, he⟩
    have h₀ := c.isBasic_of_never_enters hnever (Nat.zero_le j) hj hbj
    exact hbk (c.isBasic_of_never_enters hnever hk (le_refl _) ((c.closed s).mpr h₀))
  · by_contra hnone
    have hnever : ∀ q, q < c.length → c.leaving q ≠ s := fun q hq he => hnone ⟨q, hq, he⟩
    have hn := c.isBasic_of_never_leaves hnever hj (le_refl _) hbj
    exact hbk (c.isBasic_of_never_leaves hnever (Nat.zero_le k) hk ((c.closed s).mp hn))

/-- What enters around a cycle leaves again. -/
theorem leaves_of_enters {p : Nat} (hp : p < c.length) :
    ∃ q, q < c.length ∧ c.leaving q = c.entering p :=
  (c.comes_and_goes (Nat.succ_le_of_lt hp) (le_of_lt hp)
    ((c.isBasic_next hp _).mpr (Or.inl rfl)) (c.pivot p hp).parametric).2

/-- Variables never leave, so only restricted symbols enter, and they move up. -/
theorem entering_restricted {p : Nat} (hp : p < c.length) :
    (c.entering p).isRestricted = true ∧ c.direction p = .up := by
  rcases (c.pivot p hp).kind with h | hext
  · exact h
  · obtain ⟨q, hq, heq⟩ := c.leaves_of_enters hp
    have := Symbol.not_isExternal_of_isRestricted (c.pivot q hq).basic_leaving.2
    rw [heq, hext] at this
    exact nomatch this

/-- Moving what enters at one time leads to another solution, which the row of
    the objective at another time has to follow: some term of that row falls. -/
theorem exists_falling_term {p q : Nat} (hp : p < c.length) (hq : q < c.length) :
    ∃ u, ¬ (c.tableau p).isBasic u = true ∧
      (c.tableau p).slope u objective * (c.tableau q).slope (c.entering q) u < 0 := by
  have hpivq := c.pivot q hq
  obtain ⟨row, hrow⟩ := Tableau.isBasic_iff.mp (c.pivot p hp).basic_objective
  have htransfer : ∀ value, (c.tableau q).Satisfies value → (c.tableau p).Satisfies value :=
    fun value h => (c.satisfies_iff (le_of_lt hp) value).mpr
      ((c.satisfies_iff (le_of_lt hq) value).mp h)
  -- along the slide the objective falls, and its row at the other time has to fall with it
  have htotal : LinearForm.total ((c.tableau q).slope (c.entering q)) row.terms.entries < 0 := by
    have hmoved := htransfer _ ((c.separated q).satisfies_slide hpivq.parametric 1)
      objective row hrow
    have hstill := htransfer _ (c.separated q).satisfies_valueOf objective row hrow
    have hlow := hpivq.lowers
    rw [c.epsilon_eq q, (c.entering_restricted hq).2] at hlow
    have hlow : (c.tableau q).slope (c.entering q) objective < -0 := hlow
    simp only [mul_one] at hmoved
    rw [LinearForm.evaluate_eq, LinearForm.total_add] at hmoved
    rw [LinearForm.evaluate_eq] at hstill
    linarith
  obtain ⟨⟨u, d⟩, hmem, hneg⟩ : ∃ a ∈ row.terms.entries,
      a.2 * (c.tableau q).slope (c.entering q) a.1 < 0 := by
    by_contra hnone
    refine absurd htotal (not_lt.mpr (List.sum_nonneg fun x hx => ?_))
    obtain ⟨a, ha, rfl⟩ := List.mem_map.mp hx
    by_contra hlt
    exact hnone ⟨a, ha, not_le.mp hlt⟩
  have hget := OrderedMap.mem_entries_iff.mp hmem
  have hpar : ¬ (c.tableau p).isBasic u = true := fun hb =>
    (c.separated p).not_mentions hrow hb (LinearForm.mentions_iff.mpr ⟨d, hget⟩)
  have hne : objective ≠ u := by
    rintro rfl
    exact hpar (c.pivot p hp).basic_objective
  refine ⟨u, hpar, ?_⟩
  rw [Tableau.slope_of_row? hrow hne, LinearForm.coefficient_of_get? hget]
  exact hneg

/-- No restricted symbol below the entering one lowers the objective. -/
theorem slope_objective_nonneg {p : Nat} (hp : p < c.length) {u : Symbol}
    (hpar : ¬ (c.tableau p).isBasic u = true) (hres : u.isRestricted = true)
    (hlt : u.place < (c.entering p).place) : 0 ≤ (c.tableau p).slope u objective := by
  have := ((c.pivot p hp).least u (Symbol.compare_eq_lt_iff.mpr hlt) hpar).1 hres
  rw [c.epsilon_eq p] at this
  linarith

/-- No restricted symbol at zero below the leaving one is lowered. -/
theorem slope_entering_nonneg {q : Nat} (hq : q < c.length) {u : Symbol}
    (hbasic : (c.tableau q).isBasic u = true) (hres : u.isRestricted = true)
    (hzero : (c.tableau q).valueOf u = 0) (hlt : u.place < (c.leaving q).place) :
    0 ≤ (c.tableau q).slope (c.entering q) u := by
  by_contra hneg
  have hfirst := (c.pivot q hq).first u hbasic hres (by
    rw [c.epsilon_eq q, (c.entering_restricted hq).2]
    show (c.tableau q).slope (c.entering q) u < -0
    linarith)
  have hstride := c.stride_eq_zero hq
  unfold Tableau.stride at hstride
  rw [hstride, hzero, zero_div] at hfirst
  rcases hfirst.2 rfl with rfl | h
  · exact lt_irrefl _ hlt
  · exact lt_asymm hlt (Symbol.compare_eq_lt_iff.mp h)

/-- There are no cycles. -/
theorem elim (c : Cycle objective) : False := by
  -- the greatest symbol that comes and goes enters at `p` and leaves at `q`
  obtain ⟨p, hp, hmax⟩ := Finset.exists_max_image (Finset.range c.length)
    (fun k => (c.entering k).place) ⟨0, Finset.mem_range.mpr c.length_pos⟩
  rw [Finset.mem_range] at hp
  have hbelow : ∀ k, k < c.length → c.entering k ≠ c.entering p →
      (c.entering k).place < (c.entering p).place := fun k hk hne =>
    lt_of_le_of_ne (hmax k (Finset.mem_range.mpr hk)) fun h => hne (Symbol.place_injective h)
  obtain ⟨q, hq, hqp⟩ := c.leaves_of_enters hp
  obtain ⟨u, hpar, hneg⟩ := c.exists_falling_term hp hq
  by_cases hu : u = c.entering q
  · -- the symbol that enters at `q` is below the greatest one
    subst hu
    have hne : c.entering q ≠ c.entering p := by
      intro h
      exact (c.pivot q hq).parametric (h ▸ hqp ▸ (c.pivot q hq).basic_leaving.1)
    have := c.slope_objective_nonneg hp hpar (c.entering_restricted hq).1 (hbelow q hq hne)
    rw [Tableau.slope_self] at hneg
    linarith
  · have huq : (c.tableau q).isBasic u = true := by
      by_contra hb
      rw [Tableau.slope_of_not_isBasic hb hu, mul_zero] at hneg
      exact lt_irrefl 0 hneg
    obtain ⟨⟨p', hp', rfl⟩, -⟩ := c.comes_and_goes (le_of_lt hq) (le_of_lt hp) huq hpar
    have hres := (c.entering_restricted hp').1
    by_cases hne : c.entering p' = c.entering p
    · -- the greatest symbol is lowered where it leaves and lowers where it enters
      have hlow := (c.pivot p hp).lowers
      rw [c.epsilon_eq p, (c.entering_restricted hp).2, ← hne] at hlow
      have hlow : (c.tableau p).slope (c.entering p') objective < -0 := hlow
      have hblock := (c.pivot q hq).blocks
      rw [c.epsilon_eq q, (c.entering_restricted hq).2, hqp, ← hne] at hblock
      have hblock : (c.tableau q).slope (c.entering q) (c.entering p') < -0 := hblock
      rw [neg_zero] at hlow hblock
      exact lt_asymm hneg (mul_pos_of_neg_of_neg hlow hblock)
    · -- a lesser symbol stands at zero and is lowered too, so it should have left
      have hzero : (c.tableau q).valueOf (c.entering p') = 0 := by
        rw [c.valueOf_eq (le_of_lt hq), ← c.valueOf_eq (le_of_lt hp),
          Tableau.valueOf_of_not_isBasic hpar]
      have hlt := hbelow p' hp' hne
      exact absurd (mul_nonneg (c.slope_objective_nonneg hp hpar hres hlt)
        (c.slope_entering_nonneg hq huq hres hzero (hqp ▸ hlt))) (not_le.mpr hneg)

end Cycle

end LinearConstraints
