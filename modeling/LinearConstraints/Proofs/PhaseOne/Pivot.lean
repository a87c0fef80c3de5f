import LinearConstraints.Proofs.PhaseOne.Moves
import LinearConstraints.Proofs.Tableau.Solutions

/-! # What a pivot does to the values

    As a parametric symbol moves, every basic symbol moves along at the slope
    its row gives it.  An exchange moves the entering symbol as far as the
    leaving one allows, which then stands at zero.  All this concerns the
    constants only and holds under any tolerance.

    `Pivot` collects what the choice of an exchange guarantees: the entering
    symbol lowers the objective and is the least that does, and the leaving
    one blocks it first and is the least of those that do. -/

namespace LinearConstraints

variable [Tolerance]

/-! ## The least of a list -/

section Least

variable {ι : Type} {R : ι → ι → Prop}

/-- Whether an entry has the least value of a list, and of those with the same
    value comes first. -/
def LeastOf (R : ι → ι → Prop) (l : List (ι × Rat)) (best : ι × Rat) : Prop :=
  ∀ a ∈ l, best.2 ≤ a.2 ∧ (best.2 = a.2 → a.1 = best.1 ∨ R best.1 a.1)

omit [Tolerance] in
/-- An entry that is greater than the next one does not matter. -/
theorem LeastOf.cons_of_lt {l : List (ι × Rat)} {first a best : ι × Rat}
    (h : LeastOf R (a :: l) best) (hlt : a.2 < first.2) : LeastOf R (first :: a :: l) best := by
  intro b hb
  rcases List.mem_cons.mp hb with rfl | hb
  · have hbest : best.2 < b.2 := lt_of_le_of_lt (h a (List.mem_cons_self ..)).1 hlt
    exact ⟨le_of_lt hbest, fun heq => absurd heq (ne_of_lt hbest)⟩
  · exact h b hb

omit [Tolerance] in
/-- Nor does one that comes after an entry which is no greater. -/
theorem LeastOf.insert_of_le (htrans : ∀ {i j k}, R i j → R j k → R i k)
    {l : List (ι × Rat)} {first a best : ι × Rat} (h : LeastOf R (first :: l) best)
    (hle : first.2 ≤ a.2) (hafter : R first.1 a.1) : LeastOf R (first :: a :: l) best := by
  have hfirst := h first (List.mem_cons_self ..)
  intro b hb
  rcases List.mem_cons.mp hb with rfl | hb
  · exact hfirst
  · rcases List.mem_cons.mp hb with rfl | hb
    · refine ⟨le_trans hfirst.1 hle, fun heq => Or.inr ?_⟩
      rcases hfirst.2 (le_antisymm hfirst.1 (heq ▸ hle)) with hsame | hbefore
      · rwa [← hsame]
      · exact htrans hbefore hafter
    · exact h b (List.mem_cons_of_mem _ hb)

omit [Tolerance] in
/-- A later entry takes over only if it is strictly less. -/
theorem leastOf_foldl (htrans : ∀ {i j k}, R i j → R j k → R i k) :
    ∀ (rest : List (ι × Rat)) (first : ι × Rat),
      (first :: rest).Pairwise (fun a b => R a.1 b.1) →
      LeastOf R (first :: rest)
        (rest.foldl (fun best a => if a.2 < best.2 then a else best) first) := by
  intro rest
  induction rest with
  | nil =>
      intro first _ b hb
      obtain rfl := List.mem_singleton.mp hb
      exact ⟨le_refl _, fun _ => Or.inl rfl⟩
  | cons a rest ih =>
      intro first hpair
      obtain ⟨hfirst, hrest⟩ := List.pairwise_cons.mp hpair
      rw [List.foldl_cons]
      split
      · next hlt => exact (ih a hrest).cons_of_lt hlt
      · next hle =>
          have hsub : (first :: rest).Pairwise fun a b => R a.1 b.1 :=
            List.pairwise_cons.mpr ⟨fun c hc => hfirst c (List.mem_cons_of_mem _ hc),
              (List.pairwise_cons.mp hrest).2⟩
          exact (ih first hsub).insert_of_le (R := R) htrans (not_lt.mp hle)
            (hfirst a (List.mem_cons_self ..))

/-- The chosen key has the least value, and of those with the same value it
    comes first. -/
theorem leastBy?_spec (htrans : ∀ {i j k}, R i j → R j k → R i k) {l : List (ι × Rat)} {i : ι}
    (hl : l.Pairwise fun a b => R a.1 b.1) (h : leastBy? l = some i) :
    ∃ x, (i, x) ∈ l ∧ LeastOf R l (i, x) := by
  cases l with
  | nil => exact nomatch h
  | cons first rest =>
      obtain rfl := Option.some.inj h
      exact ⟨_, foldl_least_mem rest first, leastOf_foldl (R := R) htrans rest first hl⟩

/-- The chosen key has the least value, whatever the order of the keys. -/
theorem leastBy?_least {l : List (ι × Rat)} {i : ι} (h : leastBy? l = some i) :
    ∃ x, (i, x) ∈ l ∧ ∀ j y, (j, y) ∈ l → x ≤ y := by
  obtain ⟨x, hx, hmin⟩ := leastBy?_spec (R := fun _ _ => True) (fun _ _ => trivial)
    (List.pairwise_of_forall fun _ _ => trivial) h
  exact ⟨x, hx, fun j y hj => (hmin (j, y) hj).1⟩

end Least

namespace Tableau

/-! ## Slopes -/

/-- How much each symbol moves as a parametric one moves up by one. -/
def slope (t : Tableau Rat) (entering s : Symbol) : Rat :=
  if s = entering then 1
  else
    match t.row? s with
    | some row => row.coefficient entering
    | none => 0

theorem slope_self (t : Tableau Rat) (entering : Symbol) : t.slope entering entering = 1 :=
  if_pos rfl

theorem slope_of_row? {t : Tableau Rat} {entering s : Symbol} {row : Row Rat}
    (hs : t.row? s = some row) (hne : s ≠ entering) :
    t.slope entering s = row.coefficient entering := by
  simp only [slope]
  rw [if_neg hne, hs]

theorem slope_of_not_isBasic {t : Tableau Rat} {entering s : Symbol}
    (hs : ¬ t.isBasic s = true) (hne : s ≠ entering) : t.slope entering s = 0 := by
  simp only [slope]
  rw [if_neg hne, row?_eq_none_of_not_isBasic hs]

/-- Moving a parametric symbol with everything that depends on it leads from
    the values of the tableau to other solutions. -/
theorem Separated.satisfies_slide {t : Tableau Rat} (ht : t.Separated) {entering : Symbol}
    (hent : ¬ t.isBasic entering = true) (y : Rat) :
    t.Satisfies fun s => t.valueOf s + t.slope entering s * y := by
  intro s row hrow
  have hne : s ≠ entering := by
    rintro rfl
    exact hent (isBasic_of_row? hrow)
  have hcells : row.evaluate (fun s => t.valueOf s + t.slope entering s * y)
      = row.evaluate (Function.update (fun _ => 0) entering y) := by
    refine LinearForm.evaluate_congr fun u hu => ?_
    have hu := fun hb => ht.not_mentions hrow (u := u) hb hu
    by_cases he : u = entering
    · subst he
      rw [Function.update_self, valueOf_of_not_isBasic hu, slope_self]
      ring
    · rw [Function.update_of_ne he, valueOf_of_not_isBasic hu, slope_of_not_isBasic hu he]
      ring
  show t.valueOf s + t.slope entering s * y = _
  rw [hcells, LinearForm.evaluate_update, LinearForm.evaluate_eq_constant (fun _ _ => rfl),
    valueOf_of_row? hrow, slope_of_row? hrow hne]
  ring

/-- The values after an exchange. -/
theorem valueOf_exchange {t : Tableau Rat}
    {leaving entering : Symbol} (hleav : t.isBasic leaving = true)
    (hent : ¬ t.isBasic entering = true) (hslope : t.slope entering leaving ≠ 0) (s : Symbol) :
    (t.exchange leaving entering).valueOf s
      = t.valueOf s + t.slope entering s * (-t.valueOf leaving / t.slope entering leaving) := by
  obtain ⟨row, hrow⟩ := isBasic_iff.mp hleav
  have hne : entering ≠ leaving := by
    rintro rfl
    exact hent hleav
  rw [slope_of_row? hrow hne.symm] at hslope ⊢
  have hconst : (row.exchange leaving entering).constant
      = -row.constant / row.coefficient entering :=
    Row.constant_exchange (LinearForm.get?_of_coefficient_ne_zero hslope) hne
  rw [valueOf_of_row? hrow, ← hconst]
  -- the entering symbol takes the step, the leaving one comes to zero, the others follow
  by_cases he : s = entering
  · subst he
    rw [valueOf_of_row? (row?_exchange_self hrow), valueOf_of_not_isBasic hent, slope_self]
    ring
  · by_cases hl : s = leaving
    · subst hl
      have hnot : ¬ (t.exchange s entering).isBasic s = true := by
        rw [isBasic_exchange_iff hrow]
        rintro (h | h)
        · exact he h
        · exact h.1 rfl
      rw [valueOf_of_not_isBasic hnot, valueOf_of_row? hrow, slope_of_row? hrow he, hconst]
      field_simp
      ring
    · have hget := row?_exchange_of_ne hrow he hl
      cases hs : t.row? s with
      | some r =>
          rw [hs, Option.map_some] at hget
          rw [valueOf_of_row? hget, valueOf_of_row? hs, slope_of_row? hs he,
            Row.constant_substitute]
          ring
      | none =>
          have hb := not_isBasic_of_row? hs
          have hb' : ¬ (t.exchange leaving entering).isBasic s = true := by
            rw [isBasic_exchange_iff hrow]
            rintro (h | h)
            · exact he h
            · exact hb h.2
          rw [valueOf_of_not_isBasic hb, valueOf_of_not_isBasic hb', slope_of_not_isBasic hb he]
          ring

/-! ## The choice of a pivot -/

/-- What the choice of an exchange guarantees. -/
structure Pivot (t : Tableau Rat) (objective leaving entering : Symbol)
    (direction : Direction) : Prop where
  /-- The objective is basic. -/
  basic_objective : t.isBasic objective = true
  /-- The objective has a way to go. -/
  positive : t.epsilon < t.valueOf objective
  /-- The entering symbol is parametric. -/
  parametric : ¬ t.isBasic entering = true
  /-- Restricted symbols only move up, and the others are variables. -/
  kind : (entering.isRestricted = true ∧ direction = .up) ∨ entering.isExternal = true
  /-- The move lowers the objective. -/
  lowers : direction.rate (t.slope entering objective) < -t.epsilon
  /-- No lesser symbol lowers the objective. -/
  least : ∀ s, compare s entering = .lt → ¬ t.isBasic s = true →
    (s.isRestricted = true → -t.epsilon ≤ t.slope s objective) ∧
      (s.isExternal = true → |t.slope s objective| ≤ t.epsilon)
  /-- The leaving symbol is basic and restricted. -/
  basic_leaving : t.isBasic leaving = true ∧ leaving.isRestricted = true
  /-- The move lowers the leaving symbol. -/
  blocks : direction.rate (t.slope entering leaving) < -t.epsilon
  /-- Of the restricted symbols that the move lowers, the leaving one is the
      first to reach zero, and the least of those that are. -/
  first : ∀ s, t.isBasic s = true → s.isRestricted = true →
    direction.rate (t.slope entering s) < -t.epsilon →
    t.valueOf leaving / -direction.rate (t.slope entering leaving)
        ≤ t.valueOf s / -direction.rate (t.slope entering s) ∧
      (t.valueOf leaving / -direction.rate (t.slope entering leaving)
          = t.valueOf s / -direction.rate (t.slope entering s) →
        s = leaving ∨ compare leaving s = .lt)

theorem magnitude_eq_abs (x : Rat) : Scalar.magnitude x = |x| := by
  simp only [Scalar.magnitude]
  split
  · next h => exact (abs_of_neg h).symm
  · next h => exact (abs_of_nonneg (not_lt.mp h)).symm

/-- A number other than zero that reaches the tolerance is no rounding noise. -/
theorem negligible_eq_false {x : Rat} (hne : x ≠ 0) (h : Scalar.tolerance ≤ |x|) :
    Scalar.negligible x = false := by
  rw [Bool.eq_false_iff, ne_eq, Scalar.negligible_iff, magnitude_eq_abs]
  rintro (hzero | hlt)
  · exact hne (eq_of_beq hzero)
  · exact absurd h (not_le.mpr hlt)

/-- A symbol that lowers a row does so at a rate beyond the tolerance. -/
theorem Lowers.rate_lt {t : Tableau Rat} {s : Symbol} {c : Rat} {direction : Direction}
    (h : t.Lowers s c direction) : direction.rate c < -t.epsilon := by
  rcases h with ⟨-, hc, rfl⟩ | ⟨-, hc, rfl⟩
  · exact hc
  · rw [magnitude_eq_abs] at hc
    split
    · next hneg =>
        rw [abs_of_neg hneg] at hc
        show c < -t.epsilon
        linarith
    · next hpos =>
        rw [abs_of_nonneg (not_lt.mp hpos)] at hc
        show -c < -t.epsilon
        linarith

/-- A cell that lowers a row is not zero. -/
theorem ne_zero_of_rate_lt {epsilon c : Rat} (heps : 0 ≤ epsilon) {direction : Direction}
    (h : direction.rate c < -epsilon) : c ≠ 0 := by
  rintro rfl
  have hzero : direction.rate (0 : Rat) = 0 := by
    cases direction with
    | up => rfl
    | down => exact neg_zero
  rw [hzero] at h
  exact absurd h (not_lt.mpr (neg_nonpos.mpr heps))

/-- The coefficient that an exchange divides by. -/
theorem exists_coefficient_ne_zero {t : Tableau Rat} (heps : 0 ≤ t.epsilon)
    {objective leaving entering : Symbol}
    (hmove : t.nextMove objective = .exchange leaving entering) :
    ∃ row, t.row? leaving = some row ∧ row.coefficient entering ≠ 0 := by
  obtain ⟨_, direction, -, -, -, hleav⟩ := exists_of_nextMove hmove
  obtain ⟨row, hrow, -, hrate⟩ := row?_of_leaving? hleav
  exact ⟨row, hrow, ne_zero_of_rate_lt heps hrate⟩

/-- Every cell before the entering one fails the test. -/
theorem not_lowers_of_lt {t : Tableau Rat} {objective : Row Rat} {entering : Symbol}
    {direction : Direction} (h : t.entering? objective = some (entering, direction))
    {s : Symbol} {c : Rat} (hs : objective.terms.get? s = some c)
    (hlt : compare s entering = .lt) (d : Direction) : ¬ t.Lowers s c d := by
  obtain ⟨before, a, after, hsplit, htest, hbefore⟩ := List.findSome?_eq_some_iff.mp h
  have ha : a.1 = entering := (lowers_of_test htest).1
  -- the search goes upwards, so a lesser symbol has been tried before
  have hmem : (s, c) ∈ before := by
    have hin : (s, c) ∈ before ++ a :: after := hsplit ▸ OrderedMap.mem_entries_iff.mpr hs
    have hasc := objective.terms.ascending
    rw [hsplit, List.pairwise_append, List.pairwise_cons] at hasc
    rcases List.mem_append.mp hin with hin | hin
    · exact hin
    · exfalso
      rcases List.mem_cons.mp hin with rfl | hin
      · have hself : compare entering entering = .eq := Std.ReflCmp.compare_self
        rw [show s = entering from ha, hself] at hlt
        exact nomatch hlt
      · have hgt : compare a.1 s = .lt := hasc.2.1.1 (s, c) hin
        rw [ha] at hgt
        rw [Std.OrientedCmp.gt_iff_lt.mpr hgt] at hlt
        exact nomatch hlt
  have hnone := hbefore (s, c) hmem
  intro hlow
  simp only at hnone
  rcases hlow with ⟨hr, hc, -⟩ | ⟨he, hc, -⟩
  · rw [if_pos ⟨hr, hc⟩] at hnone
    exact nomatch hnone
  · split at hnone
    · exact nomatch hnone
    · rw [if_pos ⟨he, hc⟩] at hnone
      exact nomatch hnone

/-- A symbol that does not lower a row has a coefficient on the safe side. -/
theorem bounds_of_not_lowers {t : Tableau Rat} {s : Symbol} {c : Rat}
    (h : ∀ d, ¬ t.Lowers s c d) :
    (s.isRestricted = true → -t.epsilon ≤ c) ∧ (s.isExternal = true → |c| ≤ t.epsilon) := by
  constructor
  · intro hs
    by_contra hc
    exact h .up (Or.inl ⟨hs, not_le.mp hc, rfl⟩)
  · intro hs
    by_contra hc
    rw [not_le, ← magnitude_eq_abs] at hc
    exact h _ (Or.inr ⟨hs, hc, rfl⟩)

theorem pairwise_ratios (t : Tableau Rat) (entering : Symbol) (direction : Direction) :
    (t.ratios entering direction).Pairwise fun a b => compare a.1 b.1 = .lt := by
  unfold ratios
  rw [List.pairwise_filterMap]
  refine t.rows.ascending.imp ?_
  intro a b hab c hc d hd
  simp only at hc hd
  split at hc
  · split at hd
    · obtain rfl := Option.some.inj hc
      obtain rfl := Option.some.inj hd
      exact hab
    · exact nomatch hd
  · exact nomatch hc

/-- Every exchange that phase one makes is a pivot. -/
theorem exists_pivot {t : Tableau Rat} (ht : t.Separated) (heps : 0 ≤ t.epsilon)
    {objective leaving entering : Symbol}
    (h : t.nextMove objective = .exchange leaving entering) :
    ∃ direction, t.Pivot objective leaving entering direction := by
  obtain ⟨row, direction, hrow, hpos, hent, hleav⟩ := exists_of_nextMove h
  obtain ⟨c, hc, hlow⟩ := lowers_of_entering? hent
  have hbasic : t.isBasic objective = true := isBasic_of_row? hrow
  have hpar : ¬ t.isBasic entering = true := ht.not_isBasic_entering hrow hent
  have hne : ∀ {s}, t.isBasic s = true → s ≠ entering := by
    rintro s hs rfl
    exact hpar hs
  have hslope : ∀ {s r}, t.row? s = some r → t.slope entering s = r.coefficient entering :=
    fun hs => slope_of_row? hs (hne (isBasic_of_row? hs))
  obtain ⟨x, hx, hfirst⟩ := leastBy?_spec
    (R := fun i j : Symbol => compare i j = .lt) Std.TransCmp.lt_trans
    (t.pairwise_ratios entering direction) hleav
  obtain ⟨row', hrow', hres, hrate, rfl⟩ := mem_ratios_iff.mp hx
  -- the entering symbol comes from the row of the objective, the leaving one from the ratio test
  refine ⟨direction, hbasic, ?_, hpar, ?_, ?_, ?_, ⟨isBasic_of_row? hrow', hres⟩, ?_, ?_⟩
  · rw [valueOf_of_row? hrow]
    exact not_le.mp hpos
  · exact hlow.imp (fun h => ⟨h.1, h.2.2⟩) fun h => h.1
  · rw [hslope hrow, LinearForm.coefficient_of_get? hc]
    exact hlow.rate_lt
  · intro s hlt hs
    have hso : objective ≠ s := by
      rintro rfl
      exact hs hbasic
    rw [slope_of_row? hrow hso]
    cases hget : row.terms.get? s with
    | some d =>
        rw [LinearForm.coefficient_of_get? hget]
        exact bounds_of_not_lowers fun d' => not_lowers_of_lt hent hget hlt d'
    | none =>
        rw [LinearForm.coefficient_of_get?_none hget]
        exact ⟨fun _ => neg_nonpos.mpr heps, fun _ => by rwa [abs_zero]⟩
  · rw [hslope hrow']
    exact hrate
  · intro s hs hsr hsrate
    obtain ⟨r, hr⟩ := isBasic_iff.mp hs
    rw [hslope hr] at hsrate ⊢
    rw [hslope hrow', valueOf_of_row? hrow', valueOf_of_row? hr]
    exact hfirst (s, _) (mem_ratios_iff.mpr ⟨r, hr, hsr, hsrate, rfl⟩)

end Tableau

end LinearConstraints
