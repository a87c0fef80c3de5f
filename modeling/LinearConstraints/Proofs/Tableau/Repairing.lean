import LinearConstraints.Proofs.Tableau.Withdrawal

/-! # What repairing a tableau does

    With exact numbers a repair succeeds if and only if the rows have a
    solution with admissible values, however many rows are out of bounds, and
    the rows then say the same as before.

    The rows that are out of bounds are taken out together and wait as
    equations, each with a cell of its own symbol.  That symbol occurs neither
    in the rows that are left nor in the equations before, and it still does
    not after those have been absorbed, whatever exchanges that took: an
    equation brings only its own symbols in.  So no equation follows from the
    rows it is absorbed into, none of them is lost, and the first that is
    refused holds in no admissible solution of the ones before.

    No row that waits may have a zero cell, or the artificial that takes it
    might be exchanged for a symbol that the row says nothing of. -/

namespace LinearConstraints.Tableau

open Exact

variable {t t' : Tableau Rat} {value : Symbol → Rat}

/-! ## Reducing -/

/-- In a solution, a row keeps its value as its basic symbols are replaced. -/
theorem Satisfies.evaluate_reduce (h : t.Satisfies value) (row : Row Rat) :
    (t.reduce row).evaluate value = row.evaluate value := by
  rw [reduce_eq]
  refine List.foldlRecOn (motive := fun r : Row Rat => r.evaluate value = row.evaluate value) _
    t.replace rfl fun r hr s _ => ?_
  simp only [replace]
  cases hs : t.row? s with
  | none => exact hr
  | some definition =>
      simp only
      rw [Row.evaluate_substitute, ← h s definition hs, sub_self, mul_zero, add_zero, hr]

/-- In a solution, a reduced row vanishes where the row does. -/
theorem Satisfies.evaluate_reduce_eq_zero_iff (h : t.Satisfies value) {row : Row Rat} :
    (t.reduce row).orient.evaluate value = 0 ↔ row.evaluate value = 0 := by
  rw [Row.evaluate_orient_eq_zero_iff, h.evaluate_reduce]

/-! ## Equations that wait -/

/-- Whether equations can be absorbed one after the other: each has a cell of
    its own symbol, which is neither in the tableau nor in the equations
    before. -/
structure Queued (t : Tableau Rat) (pending : List (Symbol × Row Rat)) : Prop where
  /-- No equation has a zero cell. -/
  pruned : ∀ a ∈ pending, a.2.Pruned
  /-- No equation mentions an artificial. -/
  settled : ∀ a ∈ pending, ∀ u, a.2.mentions u = true → u.isArtificial = false
  /-- Every equation can be solved for its own symbol, -/
  own : ∀ a ∈ pending, a.2.coefficient a.1 ≠ 0
  /-- which is not in the tableau -/
  absent : ∀ a ∈ pending, ¬ t.mentions a.1 = true
  /-- nor in the equations before. -/
  apart : pending.Pairwise fun a b => ¬ a.2.mentions b.1 = true

namespace Queued

variable {a : Symbol × Row Rat} {pending : List (Symbol × Row Rat)} {u : Tableau Rat}

/-- The first of the equations that wait does not follow from the tableau. -/
theorem exists_evaluate_ne_zero (h : t.Queued (a :: pending)) (ht : t.Tidy) :
    ∃ value, t.Satisfies value ∧ (t.reduce a.2).orient.evaluate value ≠ 0 := by
  have hmem : a ∈ a :: pending := List.mem_cons_self ..
  obtain ⟨value, hvalue, hne⟩ :=
    ht.separated.exists_evaluate_ne_zero (h.absent a hmem) (h.own a hmem)
  exact ⟨value, hvalue, fun hzero => hne (hvalue.evaluate_reduce_eq_zero_iff.mp hzero)⟩

/-- Absorbing the first equation adds it to what the tableau says and leaves the
    others waiting. -/
theorem absorb (h : t.Queued (a :: pending)) (hs : t.Searchable) (ht : t.Tidy)
    {reason : Refusal Rat} (habs : t.absorb reason (t.reduce a.2).orient = .ok u) :
    u.Searchable ∧ u.Tidy ∧ u.Queued pending ∧
      ∀ value, u.Satisfies value ↔ t.Satisfies value ∧ a.2.evaluate value = 0 := by
  have hmem : a ∈ a :: pending := List.mem_cons_self ..
  have hlater : ∀ b ∈ pending, b ∈ a :: pending := fun b hb => List.mem_cons_of_mem _ hb
  obtain ⟨hapart, hrest⟩ := List.pairwise_cons.mp h.apart
  have hsuits := ht.suits_reduce (h.settled a hmem)
  obtain ⟨hs', -, hsat⟩ := hs.absorb ht hsuits
    (Row.pruned_orient (t.pruned_reduce (h.pruned a hmem))) (Row.orient_constant_nonneg _)
    (h.exists_evaluate_ne_zero ht) habs
  refine ⟨hs', ht.absorb hsuits habs, ⟨fun b hb => h.pruned b (hlater b hb),
    fun b hb => h.settled b (hlater b hb), fun b hb => h.own b (hlater b hb),
    fun b hb hm => ?_, hrest⟩, fun value => ?_⟩
  · -- the tableau now mentions what it did and what the equation does
    rcases ht.mentions_of_absorb hsuits habs hm with hm | hm
    · exact h.absent b (hlater b hb) hm
    · rcases (mentions_of_reduce ht.separated (Row.mentions_orient.mp hm)).2 with hm | hm
      · exact hapart b hb hm
      · exact h.absent b (hlater b hb) hm
  · exact (hsat value).trans (and_congr_right fun hvalue => hvalue.evaluate_reduce_eq_zero_iff)

/-- An equation that is refused holds in no admissible solution. -/
theorem absorb_error (h : t.Queued (a :: pending)) (hs : t.Searchable) (ht : t.Tidy)
    {reason reason' : Refusal Rat}
    (habs : t.absorb reason (t.reduce a.2).orient = .error reason') (hadm : Admissible value)
    (hvalue : t.Satisfies value) : a.2.evaluate value ≠ 0 := by
  intro hzero
  have hsuits := ht.suits_reduce (h.settled a (List.mem_cons_self ..))
  exact (hs.absorb_error ht hsuits (Row.orient_constant_nonneg _) habs).2 value hadm hvalue
    (hvalue.evaluate_reduce_eq_zero_iff.mpr hzero)

/-- Absorbing all equations that wait adds them to what the tableau says. -/
theorem absorbAll (h : t.Queued pending) (hs : t.Searchable) (ht : t.Tidy) (hg : t.Grounded)
    (habs : absorbAll pending t = .ok t') :
    t'.Searchable ∧ t'.Tidy ∧ t'.Grounded ∧
      ∀ value, t'.Satisfies value ↔ t.Satisfies value ∧ ∀ a ∈ pending, a.2.evaluate value = 0 := by
  induction pending generalizing t with
  | nil =>
      obtain rfl := Except.ok.inj habs
      exact ⟨hs, ht, hg, fun value => ⟨fun h => ⟨h, nofun⟩, fun h => h.1⟩⟩
  | cons a pending ih =>
      rw [absorbAll_cons] at habs
      split at habs
      · exact nomatch habs
      · next u hu =>
          obtain ⟨hs', ht', hlater, hsat⟩ := h.absorb hs ht hu
          have hg' := hg.absorb ht (ht.suits_reduce (h.settled a (List.mem_cons_self ..))) hu
          obtain ⟨hs'', ht'', hg'', hsat'⟩ := ih hlater hs' ht' hg' habs
          refine ⟨hs'', ht'', hg'', fun value => ?_⟩
          rw [hsat', hsat, List.forall_mem_cons, and_assoc]

/-- Where one of the equations is refused, they do not all hold in any
    admissible solution. -/
theorem absorbAll_error (h : t.Queued pending) (hs : t.Searchable) (ht : t.Tidy)
    {reason : Refusal Rat} (habs : Tableau.absorbAll pending t = .error reason)
    (hadm : Admissible value) (hvalue : t.Satisfies value) :
    ¬ ∀ a ∈ pending, a.2.evaluate value = 0 := by
  induction pending generalizing t with
  | nil => exact nomatch habs
  | cons a pending ih =>
      intro hall
      obtain ⟨hzero, hrest⟩ := List.forall_mem_cons.mp hall
      rw [absorbAll_cons] at habs
      split at habs
      · next e he => exact h.absorb_error hs ht he hadm hvalue hzero
      · next u hu =>
          obtain ⟨hs', ht', hlater, hsat⟩ := h.absorb hs ht hu
          exact ih hlater hs' ht' habs ((hsat value).mpr ⟨hvalue, hzero⟩) hrest

end Queued

/-! ## Repairing -/

/-- The rows that are in bounds. -/
def sound (t : Tableau Rat) : Tableau Rat :=
  { t with rows := t.rows.filter fun s row => !t.isNegative s row }

/-- The rows left and the rows taken out say between them what the tableau
    does. -/
theorem Separated.satisfies_iff_sound (ht : t.Separated) :
    t.Satisfies value
      ↔ t.sound.Satisfies value ∧ ∀ a ∈ t.negativeRows, a.2.evaluate value = 0 := by
  have hevaluate : ∀ {s row}, t.row? s = some row →
      (row.setTerm s (-1)).evaluate value = row.evaluate value - value s := by
    intro s row hrow
    have hself := ht.not_mentions hrow (isBasic_of_row? hrow)
    rw [Row.evaluate_setTerm,
      LinearForm.coefficient_of_get?_none (LinearForm.get?_eq_none_of_not_mentions hself)]
    ring
  constructor
  · intro h
    refine ⟨fun s row hrow => h s row (row?_of_filter hrow), fun a ha => ?_⟩
    obtain ⟨row, hrow, -, heq⟩ := mem_negativeRows_iff.mp ha
    rw [heq, hevaluate hrow, h a.1 row hrow, sub_self]
  · rintro ⟨hkept, htaken⟩ s row hrow
    by_cases hneg : t.isNegative s row = true
    · have hzero := htaken (s, row.setTerm s (-1))
        (mem_negativeRows_iff.mpr ⟨row, hrow, hneg, rfl⟩)
      rw [hevaluate hrow] at hzero
      exact (sub_eq_zero.mp hzero).symm
    · refine hkept s row (row?_filter_iff.mpr ⟨hrow, ?_⟩)
      rw [Bool.not_eq_true', Bool.eq_false_iff]
      exact hneg

/-- Without artificials, a row out of bounds is that of a slack below zero. -/
theorem Tidy.exists_of_isNegative (ht : t.Tidy) (heps : t.epsilon = 0) {s : Symbol}
    {row : Row Rat} (hrow : t.row? s = some row) (hneg : t.isNegative s row = true) :
    (∃ i, s = .slack i) ∧ row.constant < 0 := by
  obtain ⟨hres, hlt⟩ := (Bool.and_eq_true ..).mp hneg
  have hconst := of_decide_eq_true hlt
  rw [heps, neg_zero] at hconst
  refine ⟨?_, hconst⟩
  cases s with
  | external v => exact nomatch hres
  | slack i => exact ⟨i, rfl⟩
  | dummy i => exact nomatch hres
  | artificial i =>
      exact absurd (mentions_of_isBasic (isBasic_of_row? hrow)) (ht.not_mentions_artificial i)

theorem Tidy.searchable_sound (ht : t.Tidy) (heps : t.epsilon = 0) : t.sound.Searchable where
  separated := (ht.filter _).separated
  epsilon_eq := heps
  nonnegative := by
    refine (ht.filter _).nonnegative_iff.mpr fun i row hrow => ?_
    have htest := (row?_filter_iff.mp hrow).2
    rw [Bool.not_eq_true', isNegative, heps, neg_zero] at htest
    exact not_lt.mp (of_decide_eq_false htest)

/-- The rows that are taken out can be absorbed again. -/
theorem Tidy.queued_negativeRows (ht : t.Tidy)
    (hcells : ∀ s row, t.row? s = some row → t.isNegative s row = true → row.Pruned) :
    t.sound.Queued t.negativeRows where
  pruned a ha := by
    obtain ⟨row, hrow, hneg, heq⟩ := mem_negativeRows_iff.mp ha
    rw [heq]
    exact Row.pruned_setTerm (hcells a.1 row hrow hneg) _ _
  settled _ ha _ hu := ht.settled _ (mentions_of_negativeRows ha hu)
  own a ha := by
    obtain ⟨row, hrow, hneg, heq⟩ := mem_negativeRows_iff.mp ha
    have hown : (row.setTerm a.1 (-1)).mentions a.1 = true :=
      Row.mentions_setTerm_self (by
        rw [Bool.eq_false_iff]
        intro hzero
        exact neg_ne_zero.mpr one_ne_zero (Row.negligible_iff_eq_zero.mp hzero))
    rw [heq]
    exact (Row.pruned_setTerm (hcells a.1 row hrow hneg) _ _).coefficient_ne_zero hown
  absent _ ha := ht.separated.absent_negativeRows ha
  apart := ht.separated.apart_negativeRows

/-- A repair that succeeds leaves a tableau that says the same. -/
theorem Tidy.repair (ht : t.Tidy) (hg : t.Grounded) (heps : t.epsilon = 0)
    (hcells : ∀ s row, t.row? s = some row → t.isNegative s row = true → row.Pruned)
    (h : t.repair = .ok t') :
    t'.Searchable ∧ t'.Tidy ∧ t'.Grounded ∧ ∀ value, t'.Satisfies value ↔ t.Satisfies value := by
  obtain ⟨hs', ht', hg', hsat⟩ := (ht.queued_negativeRows hcells).absorbAll
    (ht.searchable_sound heps) (ht.filter _) (hg.filter _) h
  exact ⟨hs', ht', hg', fun value => (hsat value).trans ht.separated.satisfies_iff_sound.symm⟩

/-- A repair fails only if there is no admissible solution. -/
theorem Tidy.not_satisfies_of_repair (ht : t.Tidy) (heps : t.epsilon = 0)
    (hcells : ∀ s row, t.row? s = some row → t.isNegative s row = true → row.Pruned)
    {reason : Refusal Rat} (h : t.repair = .error reason) (hadm : Admissible value) :
    ¬ t.Satisfies value := by
  intro hvalue
  obtain ⟨hkept, htaken⟩ := ht.separated.satisfies_iff_sound.mp hvalue
  exact (ht.queued_negativeRows hcells).absorbAll_error (ht.searchable_sound heps) (ht.filter _) h
    hadm hkept htaken

/-! ## When there is a solution -/

theorem Separated.tidy (ht : t.Separated)
    (hsettled : ∀ i, ¬ t.mentions (.artificial i) = true)
    (hdummies : ∀ i row, t.row? (.dummy i) = some row → row.onlyDummies = true) : t.Tidy := by
  refine ⟨ht, fun s row hrow hs => ?_, fun s hs => ?_⟩
  · cases s with
    | dummy i => exact hdummies i row hrow
    | external v | slack i | artificial i => exact nomatch hs
  · cases s with
    | artificial i => exact absurd hs (hsettled i)
    | external v | slack i | dummy i => rfl

theorem grounded_of_constant (h : ∀ i row, t.row? (.dummy i) = some row → row.constant = 0) :
    t.Grounded := by
  intro s row hrow hs
  cases s with
  | dummy i => exact h i row hrow
  | external v | slack i | artificial i => exact nomatch hs

/-- Without artificials, only slacks and dummies restrict the values. -/
theorem Tidy.exists_admissible (ht : t.Tidy) (hvalue : t.Satisfies value)
    (hslack : ∀ i, 0 ≤ value (.slack i)) (hdummy : ∀ i, value (.dummy i) = 0) :
    ∃ value', t.Satisfies value' ∧ Admissible value' := by
  -- artificials are restricted too, but occur nowhere and may be put to zero
  refine ⟨fun s => if s.isArtificial then 0 else value s, ?_, ?_⟩
  · refine hvalue.congr fun s hs => ?_
    rw [ht.settled s hs]
    rfl
  · constructor
    · intro s hs
      cases s with
      | slack i => exact hslack i
      | artificial i => exact le_refl 0
      | external v | dummy i => exact nomatch hs
    · intro s hs
      cases s with
      | dummy i => exact hdummy i
      | external v | slack i | artificial i => exact nomatch hs

/-- A tableau without artificials, whose basic dummies stand at zero among
    dummies, can be repaired if and only if its rows have a solution with no
    negative slack and all dummies at zero, however many slacks are negative.
    A repair then leaves none negative, no artificial behind and the solutions
    as they were.  Only of the rows out of bounds it matters that they hold no
    zero cell, as no row does that exact operations on rows have made. -/
theorem repair_iff_satisfiable (hsep : t.Separated)
    (hsettled : ∀ i, ¬ t.mentions (.artificial i) = true)
    (hdummies : ∀ i row, t.row? (.dummy i) = some row →
      row.constant = 0 ∧ row.onlyDummies = true)
    (heps : t.epsilon = 0)
    (hcells : ∀ i row, t.row? (.slack i) = some row → row.constant < 0 → row.Pruned) :
    ((∃ t', t.repair = .ok t') ↔
        ∃ value, t.Satisfies value ∧ (∀ i, 0 ≤ value (.slack i)) ∧ ∀ i, value (.dummy i) = 0) ∧
      ∀ t', t.repair = .ok t' →
        t'.InBounds ∧ (∀ i, ¬ t'.mentions (.artificial i) = true) ∧
          ∀ value, t'.Satisfies value ↔ t.Satisfies value := by
  have ht := hsep.tidy hsettled fun i row hrow => (hdummies i row hrow).2
  have hg := grounded_of_constant fun i row hrow => (hdummies i row hrow).1
  have hpruned : ∀ s row, t.row? s = some row → t.isNegative s row = true → row.Pruned := by
    intro s row hrow hneg
    obtain ⟨⟨i, rfl⟩, hconst⟩ := ht.exists_of_isNegative heps hrow hneg
    exact hcells i row hrow hconst
  refine ⟨⟨?_, ?_⟩, fun t' h => ?_⟩
  · -- the values of the repaired tableau are a solution
    rintro ⟨t', h⟩
    obtain ⟨hs', ht', hg', hsat⟩ := ht.repair hg heps hpruned h
    exact ⟨t'.valueOf, (hsat _).mp hs'.separated.satisfies_valueOf,
      fun i => hs'.nonnegative (.slack i) rfl, fun i => hg'.valueOf_eq_zero rfl⟩
  · rintro ⟨value, hvalue, hslack, hdummy⟩
    obtain ⟨value', hvalue', hadm⟩ := ht.exists_admissible hvalue hslack hdummy
    cases h : t.repair with
    | ok t' => exact ⟨t', rfl⟩
    | error reason => exact absurd hvalue' (ht.not_satisfies_of_repair heps hpruned h hadm)
  · obtain ⟨hs', ht', -, hsat⟩ := ht.repair hg heps hpruned h
    exact ⟨ht'.nonnegative_iff.mp hs'.nonnegative, ht'.not_mentions_artificial, hsat⟩

/-- That no artificial is mentioned can be told from the entries. -/
theorem not_mentions_artificial_of_all (h : (t.rows.all fun s row =>
    !s.isArtificial && row.terms.all fun u _ => !u.isArtificial) = true) (i : Nat) :
    ¬ t.mentions (.artificial i) = true := by
  intro hm
  rcases mentions_iff.mp hm with hb | ⟨s, row, hrow, hm⟩
  · obtain ⟨row, hrow⟩ := isBasic_iff.mp hb
    exact nomatch OrderedMap.all_iff.mp h (.artificial i) row hrow
  · obtain ⟨c, hc⟩ := LinearForm.mentions_iff.mp hm
    have hcells := ((Bool.and_eq_true ..).mp (OrderedMap.all_iff.mp h s row hrow)).2
    exact nomatch OrderedMap.all_iff.mp hcells (.artificial i) c hc

/-- So can be told what the dummies hold. -/
theorem dummies_of_all (h : (t.rows.all fun s row =>
    !s.isDummy || (row.constant == 0 && row.onlyDummies)) = true) (i : Nat) (row : Row Rat)
    (hrow : t.row? (.dummy i) = some row) : row.constant = 0 ∧ row.onlyDummies = true := by
  simpa [Symbol.isDummy] using OrderedMap.all_iff.mp h (.dummy i) row hrow

/-- Three slacks that share two variables are negative, a variable depends on a
    slack that is not basic, and two equations say the same. -/
def unmet : Tableau Rat where
  rows := (((((∅ : OrderedMap Symbol (Row Rat)).insert (.external 2)
      ⟨1, ((∅ : OrderedMap Symbol Rat).insert (.external 0) 1).insert (.slack 3) 2⟩).insert
      (.slack 0)
      ⟨-4, ((∅ : OrderedMap Symbol Rat).insert (.external 0) 1).insert (.external 1) 1⟩).insert
      (.slack 1)
      ⟨-2, ((∅ : OrderedMap Symbol Rat).insert (.external 0) 1).insert (.external 1) (-1)⟩).insert
      (.slack 2)
      ⟨-1, ((∅ : OrderedMap Symbol Rat).insert (.external 1) 1).insert (.slack 3) (-1)⟩).insert
      (.dummy 4) ⟨0, (∅ : OrderedMap Symbol Rat).insert (.dummy 5) (-1)⟩
  nextIndex := 6
  epsilon := 0

/-- All three are repaired together: with three for the first variable, one for
    the second and none for the other slack they are within bounds. -/
theorem repair_iff_satisfiable_unmet : unmet.negativeRows.length = 3 ∧
    ∃ t', unmet.repair = .ok t' ∧ t'.InBounds ∧ (∀ i, ¬ t'.mentions (.artificial i) = true) ∧
      ∀ value, t'.Satisfies value ↔ unmet.Satisfies value := by
  have hcells : unmet.Pruned := by decide +kernel
  obtain ⟨hiff, hrepaired⟩ := repair_iff_satisfiable (t := unmet) (by decide +kernel)
    (not_mentions_artificial_of_all (by decide +kernel)) (dummies_of_all (by decide +kernel)) rfl
    fun _ row hrow _ => hcells _ row hrow
  let value : Symbol → Rat := fun s =>
    if s = .external 0 then 3 else if s = .external 1 then 1
    else if s = .external 2 then 4 else 0
  have hvalue : (unmet.rows.all fun s row => value s == row.evaluate value) = true := by
    decide +kernel
  obtain ⟨t', ht'⟩ := hiff.mpr ⟨value,
    fun s row hrow => eq_of_beq (OrderedMap.all_iff.mp hvalue s row hrow), fun _ => le_refl 0,
    fun _ => rfl⟩
  exact ⟨by decide +kernel, t', ht', hrepaired t' ht'⟩

/-- A negative slack has a zero cell of a variable beside that of another one,
    which a second slack bounds. -/
def hollow : Tableau Rat where
  rows := ((∅ : OrderedMap Symbol (Row Rat)).insert (.slack 0)
      ⟨-1, ((∅ : OrderedMap Symbol Rat).insert (.external 0) 0).insert (.external 1) 1⟩).insert
      (.slack 1) ⟨1, (∅ : OrderedMap Symbol Rat).insert (.external 1) (-1)⟩
  nextIndex := 2
  epsilon := 0

/-- With a zero cell among those of a negative slack a repair can lose an
    equation.  The artificial that has taken the slack's row comes to zero and
    is exchanged for the first variable it finds, which is the one of the zero
    cell: what was an equation between the slacks then says that a variable is
    zero.  The slacks had to add up to zero before. -/
theorem repair_gains_solutions_hollow : hollow.Separated ∧
    (∀ i, ¬ hollow.mentions (.artificial i) = true) ∧
    (∀ i row, hollow.row? (.dummy i) = some row →
      row.constant = 0 ∧ row.onlyDummies = true) ∧
    hollow.epsilon = 0 ∧
    ∃ t' value, hollow.repair = .ok t' ∧ t'.Satisfies value ∧ (∀ i, 0 ≤ value (.slack i)) ∧
      ¬ hollow.Satisfies value := by
  let value : Symbol → Rat := fun s => if s = .slack 0 ∨ s = .external 1 then 1 else 0
  have hrepair : (match hollow.repair with
      | .ok t' => t'.rows.all fun s row => value s == row.evaluate value
      | .error _ => false) = true := by decide +kernel
  refine ⟨by decide +kernel, not_mentions_artificial_of_all (by decide +kernel),
    dummies_of_all (by decide +kernel), rfl, ?_⟩
  split at hrepair
  · next t' ht' =>
      refine ⟨t', value, ht',
        fun s row hrow => eq_of_beq (OrderedMap.all_iff.mp hrepair s row hrow), fun i => ?_,
        fun h => ?_⟩
      · simp only [value]
        split
        · exact zero_le_one
        · exact le_refl 0
      · -- the negative slack's own row is worth zero there
        have hzero := h (.slack 0) _ rfl
        exact absurd hzero (by decide +kernel)
  · cases hrepair

end LinearConstraints.Tableau
