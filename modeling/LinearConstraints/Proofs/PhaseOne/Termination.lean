import LinearConstraints.Proofs.PhaseOne.Cycle
import LinearConstraints.Proofs.PhaseOne.Search
import Mathlib.Combinatorics.Pigeonhole
import Mathlib.Data.Finset.Powerset

/-! # Phase one ends

    With exact numbers phase one ends at the least value its objective can
    take.  It cannot run out of moves to make: a search that used its limit up
    would have passed through more tableaux than there are sets of symbols, so
    two of them would have the same basic symbols, and the moves between them
    would be a cycle.  Nor is it ever unblocked, since the objective itself
    must not become negative.

    At the end no parametric symbol lowers the objective, so no solution with
    admissible values has it any lower. -/

namespace LinearConstraints.Tableau

/-! ## Basic symbols as a finite set -/

section AnyArithmetic

variable {α : Type} [Scalar α]

/-- The basic symbols. -/
def basis (t : Tableau α) : Finset Symbol := t.rows.keys.toFinset

omit [Scalar α] in
theorem mem_basis {t : Tableau α} {s : Symbol} : s ∈ t.basis ↔ t.isBasic s = true :=
  List.mem_toFinset.trans OrderedMap.mem_keys_iff

omit [Scalar α] in
theorem mem_symbols {t : Tableau α} {s : Symbol} (h : t.mentions s = true) : s ∈ t.symbols := by
  rcases mentions_iff.mp h with hb | ⟨u, row, hu, hs⟩
  · obtain ⟨row, hrow⟩ := isBasic_iff.mp hb
    exact List.mem_flatMap.mpr
      ⟨(s, row), OrderedMap.mem_entries_iff.mpr hrow, List.mem_cons_self ..⟩
  · exact List.mem_flatMap.mpr ⟨(u, row), OrderedMap.mem_entries_iff.mpr hu,
      List.mem_cons_of_mem _ (OrderedMap.mem_keys_iff.mpr hs)⟩

/-- A long search passes twice through the same set of basic symbols. -/
theorem exists_same_basis (objective : Symbol) (t : Tableau α) :
    ∃ i j, i < j ∧ j ≤ 2 ^ t.symbols.length ∧
      (t.stage objective i).basis = (t.stage objective j).basis := by
  have hcard : t.symbols.toFinset.powerset.card
      < (Finset.range (2 ^ t.symbols.length + 1)).card := by
    rw [Finset.card_powerset, Finset.card_range]
    exact Nat.lt_succ_of_le
      (Nat.pow_le_pow_right Nat.two_pos (List.toFinset_card_le t.symbols))
  have hmaps : ∀ k ∈ Finset.range (2 ^ t.symbols.length + 1),
      (t.stage objective k).basis ∈ t.symbols.toFinset.powerset := by
    intro k _
    refine Finset.mem_powerset.mpr fun s hs => List.mem_toFinset.mpr ?_
    exact mem_symbols (mentions_of_stage k (mentions_of_isBasic (mem_basis.mp hs)))
  obtain ⟨i, hi, j, hj, hne, heq⟩ :=
    Finset.exists_ne_map_eq_of_card_lt_of_maps_to hcard hmaps
  rw [Finset.mem_range, Nat.lt_succ_iff] at hi hj
  rcases Nat.lt_or_gt_of_ne hne with h | h
  · exact ⟨i, j, h, hj, heq⟩
  · exact ⟨j, i, h, hi, heq.symm⟩

end AnyArithmetic

/-! ## Exact searches -/

open Exact

/-- Values that symbols are allowed to have: restricted ones are not negative,
    and dummies are zero. -/
structure Admissible (value : Symbol → Rat) : Prop where
  restricted : ∀ s, s.isRestricted = true → 0 ≤ value s
  dummy : ∀ s, s.isDummy = true → value s = 0

/-- Values stay admissible if those of made-up symbols become zero or stay. -/
theorem Admissible.of_zero_or_eq {value value' : Symbol → Rat} (h : Admissible value)
    (hvalue : ∀ s, s.isExternal = false → value' s = 0 ∨ value' s = value s) :
    Admissible value' := by
  constructor
  · intro s hs
    rcases hvalue s (Symbol.not_isExternal_of_isRestricted hs) with hzero | hsame
    · rw [hzero]
    · rw [hsame]
      exact h.restricted s hs
  · intro s hs
    rcases hvalue s (Symbol.not_isExternal_of_isDummy hs) with hzero | hsame
    · exact hzero
    · rw [hsame, h.dummy s hs]

theorem Admissible.update_zero {value : Symbol → Rat} (h : Admissible value) (s : Symbol) :
    Admissible (Function.update value s 0) := by
  refine h.of_zero_or_eq fun u _ => ?_
  by_cases hs : u = s
  · exact Or.inl (by rw [hs, Function.update_self])
  · exact Or.inr (Function.update_of_ne hs ..)

/-- What the end of a search rests on, and what the search keeps. -/
structure Searchable (t : Tableau Rat) : Prop where
  /-- Basic symbols are mentioned in no row. -/
  separated : t.Separated
  /-- There is no tolerance. -/
  epsilon_eq : t.epsilon = 0
  /-- No restricted symbol is negative. -/
  nonnegative : t.Nonnegative

namespace Searchable

variable {t u : Tableau Rat} {objective leaving entering : Symbol}

theorem exchange (ht : t.Searchable) (hmove : t.nextMove objective = .exchange leaving entering) :
    (t.exchange leaving entering).Searchable := by
  obtain ⟨direction, hp⟩ := exists_pivot ht.separated ht.epsilon_eq.ge hmove
  obtain ⟨row, hrow⟩ := isBasic_iff.mp hp.basic_leaving.1
  exact ⟨ht.separated.exchange hrow, (epsilon_exchange ..).trans ht.epsilon_eq,
    hp.nonnegative_exchange ht.epsilon_eq ht.nonnegative⟩

theorem stage (ht : t.Searchable) (k : Nat) : (t.stage objective k).Searchable :=
  stage_induction (fun _ _ _ h hmove => Searchable.exchange h hmove) ht k

/-- Moves that go on without end would come back to where they were. -/
theorem exists_not_moves (ht : t.Searchable) (objective : Symbol) :
    ∃ k, k ≤ 2 ^ t.symbols.length ∧ ¬ (t.stage objective k).Moves objective := by
  by_contra hnone
  have hmoves : ∀ k, k ≤ 2 ^ t.symbols.length → (t.stage objective k).Moves objective := by
    intro k hk
    by_contra h
    exact hnone ⟨k, hk, h⟩
  obtain ⟨i, j, hij, hj, hbasis⟩ := exists_same_basis objective t
  have hpivot : ∀ k, ∃ leaving entering direction, k < j - i →
      (t.stage objective (i + k)).nextMove objective = .exchange leaving entering ∧
        (t.stage objective (i + k)).Pivot objective leaving entering direction := by
    intro k
    by_cases hk : k < j - i
    · obtain ⟨leaving, entering, hmove⟩ := hmoves (i + k) (by omega)
      obtain ⟨direction, hp⟩ := exists_pivot (ht.stage (i + k)).separated
        (ht.stage (i + k)).epsilon_eq.ge hmove
      exact ⟨leaving, entering, direction, fun _ => ⟨hmove, hp⟩⟩
    · exact ⟨objective, objective, .up, fun h => absurd h hk⟩
  choose leaving entering direction hmove using hpivot
  -- between two stages with the same basis the search has gone round a cycle
  have cycle : Cycle objective :=
    { length := j - i
      tableau := fun k => t.stage objective (i + k)
      leaving := leaving
      entering := entering
      direction := direction
      length_pos := Nat.sub_pos_of_lt hij
      separated := fun k => (ht.stage (i + k)).separated
      epsilon_eq := fun k => (ht.stage (i + k)).epsilon_eq
      nonnegative := fun k => (ht.stage (i + k)).nonnegative
      pivot := fun k hk => (hmove k hk).2
      next := fun k hk => by
        rw [← Nat.add_assoc, stage_succ, advance_of_nextMove (hmove k hk).1]
      closed := fun s => by
        rw [Nat.add_sub_cancel' (le_of_lt hij), Nat.add_zero, ← mem_basis, ← mem_basis, hbasis] }
  exact cycle.elim

/-- Phase one always ends, with its last move made and nothing left to do. -/
theorem exists_end (ht : t.Searchable) (hobj : objective.isRestricted = true) :
    ∃ k, k ≤ 2 ^ t.symbols.length ∧ (∀ j, j < k → (t.stage objective j).Moves objective) ∧
      (t.stage objective k).nextMove objective = .done := by
  classical
  -- the first stage that makes no move is the end
  have hstops := ht.exists_not_moves objective
  obtain ⟨hle, hstop⟩ := Nat.find_spec hstops
  refine ⟨Nat.find hstops, hle, fun j hj => ?_, ?_⟩
  · by_contra hnot
    exact Nat.find_min hstops hj ⟨hj.le.trans hle, hnot⟩
  · cases hmove : (t.stage objective (Nat.find hstops)).nextMove objective with
    | done => rfl
    | unbounded => exact absurd hmove (nextMove_ne_unbounded Lowers.rate_lt hobj)
    | exchange leaving entering => exact absurd ⟨leaving, entering, hmove⟩ hstop

theorem exists_minimize (ht : t.Searchable) (hobj : objective.isRestricted = true) :
    ∃ u, t.minimize objective = .ok u := by
  obtain ⟨k, hle, hmoves, hdone⟩ := ht.exists_end hobj
  exact ⟨_, descend_eq_ok hmoves hdone hle⟩

/-- Phase one keeps the solutions and the number of rows. -/
theorem minimize (ht : t.Searchable) (h : t.minimize objective = .ok u) :
    u.Searchable ∧ u.size = t.size ∧ ∀ value, u.Satisfies value ↔ t.Satisfies value := by
  refine (descend_induction (P := fun u : Tableau Rat => u.Searchable ∧ u.size = t.size ∧
    ∀ value, u.Satisfies value ↔ t.Satisfies value) ?_
    ⟨ht, rfl, fun _ => Iff.rfl⟩ h).1
  rintro u leaving entering ⟨hu, hsize, hsat⟩ hmove
  obtain ⟨row, hrow, hcoeff⟩ := exists_coefficient_ne_zero hu.epsilon_eq.ge hmove
  obtain ⟨direction, hp⟩ := exists_pivot hu.separated hu.epsilon_eq.ge hmove
  refine ⟨hu.exchange hmove, ?_, fun value => ?_⟩
  · rw [← hsize]
    exact size_exchange hrow hp.parametric
  · rw [hu.separated.satisfies_exchange hrow hcoeff, hsat]

/-! ## The end of the search -/

/-- Where the objective cannot get any lower, it is as low as in any solution
    whose values are admissible. -/
theorem valueOf_le (ht : t.Searchable) (hdone : t.nextMove objective = .done)
    (hpos : 0 < t.valueOf objective) {value : Symbol → Rat} (hvalue : t.Satisfies value)
    (hadm : Admissible value) : t.valueOf objective ≤ value objective := by
  have hbasic : t.isBasic objective = true := by
    by_contra hb
    rw [valueOf_of_not_isBasic hb] at hpos
    exact lt_irrefl 0 hpos
  obtain ⟨row, hrow⟩ := isBasic_iff.mp hbasic
  rw [valueOf_of_row? hrow] at hpos ⊢
  rw [hvalue objective row hrow, LinearForm.evaluate_eq]
  -- every cell adds nothing, or something that is not negative
  have hcells : 0 ≤ LinearForm.total value row.terms.entries := by
    refine List.sum_nonneg fun x hx => ?_
    obtain ⟨⟨s, c⟩, hmem, rfl⟩ := List.mem_map.mp hx
    have hget := OrderedMap.mem_entries_iff.mp hmem
    have hlow := bounds_of_not_lowers fun d => nextMove_eq_done hdone hrow
      (by rw [ht.epsilon_eq]; exact not_le.mpr hpos) hget d
    rw [ht.epsilon_eq, neg_zero] at hlow
    show 0 ≤ c * value s
    cases s with
    | external v => rw [abs_nonpos_iff.mp (hlow.2 rfl), zero_mul]
    | slack i => exact mul_nonneg (hlow.1 rfl) (hadm.restricted _ rfl)
    | dummy i => rw [hadm.dummy _ rfl, mul_zero]
    | artificial i => exact mul_nonneg (hlow.1 rfl) (hadm.restricted _ rfl)
  linarith

end Searchable

/-- A tableau with exact rows that is feasible, as the calls find it and leave
    it. -/
structure Ready (t : Tableau Rat) : Prop where
  /-- Basic symbols are mentioned in no row. -/
  separated : t.Separated
  /-- No row has a zero cell. -/
  pruned : t.Pruned
  /-- There is no tolerance. -/
  epsilon_eq : t.epsilon = 0
  /-- No restricted symbol is negative. -/
  nonnegative : t.Nonnegative

/-- Zero cells do not matter to the search. -/
theorem Ready.searchable {t : Tableau Rat} (ht : t.Ready) : t.Searchable :=
  ⟨ht.separated, ht.epsilon_eq, ht.nonnegative⟩

end LinearConstraints.Tableau
