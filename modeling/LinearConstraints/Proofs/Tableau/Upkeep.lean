import LinearConstraints.Proofs.Tableau.WellFormed

/-! # Every call keeps a tableau well formed

    Each of the four calls on a tableau is taken apart once, into the ways it
    can succeed, and each way is followed through the symbols it touches.  The
    results hold for every arithmetic. -/

namespace LinearConstraints

/-! ## Markers -/

/-- The marker that a relation is given with the number of its turn. -/
def Comparison.mark : Comparison → Nat → Symbol
  | .equal, i => .dummy i
  | .atMost, i => .slack i
  | .atLeast, i => .slack i

theorem Comparison.mark_index (c : Comparison) (i : Nat) : (c.mark i).index = i := by
  cases c <;> rfl

theorem Comparison.mark_isExternal (c : Comparison) (i : Nat) :
    (c.mark i).isExternal = false := by
  cases c <;> rfl

/-- Inequalities have slacks for markers. -/
theorem Comparison.mark_isSlack {c : Comparison} (h : c ≠ .equal) (i : Nat) :
    (c.mark i).isSlack = true := by
  cases c with
  | equal => exact absurd rfl h
  | atMost => rfl
  | atLeast => rfl

namespace Tableau

variable {α : Type} [Scalar α]

omit [Scalar α] in
theorem marker_eq_mark (t : Tableau α) (c : Comparison) : t.marker c = c.mark t.nextIndex := by
  cases c <;> rfl

/-! ## Absorbing -/

/-- How a row is absorbed: the search ends with the artificial at zero, and the
    artificial is retired. -/
theorem exists_of_absorb {reason : Refusal α} {row : Row α} {t t' : Tableau α}
    (h : t.absorb reason row = .ok t') :
    ∃ u, (t.charge row).minimize (.artificial t.nextIndex) = .ok u ∧
      ¬ u.epsilon < u.valueOf (.artificial t.nextIndex) ∧
      t' = u.retire (.artificial t.nextIndex) := by
  rw [absorb_eq] at h
  split at h
  · exact nomatch h
  · next u hu =>
      split at h
      · exact nomatch h
      · next hval => exact ⟨u, hu, hval, (Except.ok.inj h).symm⟩

/-- What the search keeps: order, the counters and the single artificial. -/
structure Searching (t u : Tableau α) : Prop where
  orderly : u.Orderly
  only : ∀ s, u.mentions s = true → s.isArtificial = true → s = .artificial t.nextIndex
  nextIndex_eq : u.nextIndex = t.nextIndex + 1
  epsilon_eq : u.epsilon = t.epsilon

omit [Scalar α] in
/-- The artificial is the only one from the start. -/
theorem Tidy.charge {t : Tableau α} (ht : t.Tidy) {row : Row α} (hrow : t.Suits row) :
    (t.charge row).Hosts (.artificial t.nextIndex) where
  separated := by
    refine ht.separated.insertRow (ht.not_mentions_artificial _) ?_ fun u hu => (hrow u hu).1
    intro h
    exact nomatch (hrow _ h).2
  layered := ht.layered.insertRow fun h => nomatch h
  only s hs ha := by
    rcases mentions_of_insertRow hs with h | h | h
    · exact h
    · rw [ht.settled s h] at ha
      exact nomatch ha
    · rw [(hrow s h).2] at ha
      exact nomatch ha

omit [Scalar α] in
theorem WellFormed.charge {t : Tableau α} (ht : t.WellFormed) {row : Row α} (hrow : t.Fits row) :
    t.Searching (t.charge row) where
  orderly := by
    have hosts := ht.tidy.charge hrow.suits
    refine ⟨hosts.separated, fun u hu => ?_, hosts.layered⟩
    rcases mentions_of_insertRow hu with rfl | h | h
    · exact Or.inr (Nat.lt_succ_self _)
    · exact (ht.numbered u h).imp_right Nat.lt_succ_of_lt
    · exact (hrow u h).2.1.imp_right Nat.lt_succ_of_lt
  only := (ht.tidy.charge hrow.suits).only
  nextIndex_eq := rfl
  epsilon_eq := rfl

/-- The search brings no other artificial in. -/
theorem Hosts.descend {t u : Tableau α} {artificial objective : Symbol}
    (ht : t.Hosts artificial) {limit : Nat} (h : t.descend objective limit = .ok u) :
    u.Hosts artificial := by
  refine (descend_induction (P := fun u => u.Hosts artificial) ?_ ht h).1
  intro u leaving entering hu hmove
  obtain ⟨⟨row, hrow⟩, -, hent, hdummy⟩ := kinds_of_nextMove hmove
  exact hu.exchange hrow hent hdummy

/-- Absorbing keeps a tableau tidy. -/
theorem Tidy.absorb {t t' : Tableau α} (ht : t.Tidy) {row : Row α} (hrow : t.Suits row)
    {reason : Refusal α} (h : t.absorb reason row = .ok t') : t'.Tidy := by
  obtain ⟨u, hu, -, rfl⟩ := exists_of_absorb h
  exact ((ht.charge hrow).descend hu).retire

/-- What is absorbed brings only the symbols of its row. -/
theorem Tidy.mentions_of_absorb {t t' : Tableau α} (ht : t.Tidy) {row : Row α}
    (hrow : t.Suits row) {reason : Refusal α} (h : t.absorb reason row = .ok t') {u : Symbol}
    (hu : t'.mentions u = true) : t.mentions u = true ∨ row.mentions u = true := by
  obtain ⟨v, hv, -, rfl⟩ := exists_of_absorb h
  obtain ⟨hne, hm⟩ := mentions_of_retire ((ht.charge hrow).descend hv).separated hu
  obtain ⟨k, rfl, -, -⟩ := exists_stage_of_descend hv
  exact (mentions_of_insertRow (mentions_of_stage k hm)).resolve_left hne

theorem Searching.exchange {t u : Tableau α} (hu : t.Searching u)
    {objective leaving entering : Symbol}
    (hmove : u.nextMove objective = .exchange leaving entering) :
    t.Searching (u.exchange leaving entering) := by
  obtain ⟨⟨row, hrow⟩, -, hent, hdummy⟩ := kinds_of_nextMove hmove
  refine ⟨hu.orderly.exchange hrow hent hdummy, ?_, ?_, ?_⟩
  · intro s hs ha
    rcases mentions_of_exchange hrow hs with rfl | h
    · exact hu.only s hent ha
    · exact hu.only s h ha
  · rw [nextIndex_exchange, hu.nextIndex_eq]
  · rw [epsilon_exchange, hu.epsilon_eq]

theorem searching_of_descend {t : Tableau α} (ht : t.WellFormed) {row : Row α}
    (hrow : t.Fits row) {objective : Symbol} {limit : Nat} {u : Tableau α}
    (h : (t.charge row).descend objective limit = .ok u) : t.Searching u :=
  (descend_induction (fun _ _ _ hu hmove => Searching.exchange hu hmove)
    (ht.charge hrow) h).1

/-- Once the artificial is retired, a tableau is well formed and gives symbols
    numbers upwards. -/
theorem Searching.retire {t u : Tableau α} (hu : t.Searching u) :
    (u.retire (.artificial t.nextIndex)).WellFormed ∧
      t.nextIndex < (u.retire (.artificial t.nextIndex)).nextIndex ∧
      (u.retire (.artificial t.nextIndex)).epsilon = t.epsilon := by
  refine ⟨hu.orderly.retire hu.only, ?_, ?_⟩
  · rw [nextIndex_retire, hu.nextIndex_eq]
    exact Nat.lt_succ_self _
  · rw [epsilon_retire, hu.epsilon_eq]

/-- Absorbing keeps a tableau well formed and gives symbols numbers upwards. -/
theorem WellFormed.absorb {t t' : Tableau α} (ht : t.WellFormed) {row : Row α}
    (hrow : t.Fits row) {reason : Refusal α} (h : t.absorb reason row = .ok t') :
    t'.WellFormed ∧ t.nextIndex < t'.nextIndex ∧ t'.epsilon = t.epsilon := by
  obtain ⟨u, hu, -, rfl⟩ := exists_of_absorb h
  exact (searching_of_descend ht hrow hu).retire

/-! ## Imposing -/

/-- An expressed row holds parametric symbols only: variables without a row
    and symbols from the rows of the others. -/
theorem mentions_of_express {t : Tableau α} (ht : t.Separated) {e : Expression α} {factor : α}
    {u : Symbol} (hu : (t.express e factor).mentions u = true) :
    ¬ t.isBasic u = true ∧ (u.isExternal = true ∨ t.mentions u = true) := by
  revert hu
  refine OrderedMap.foldl_induction
    (P := fun row : Row α => row.mentions u = true →
      ¬ t.isBasic u = true ∧ (u.isExternal = true ∨ t.mentions u = true))
    (fun h => nomatch h) ?_
  intro row v c _ ih h
  split at h
  · next definition hdef =>
      rcases LinearForm.mentions_addMultiple h with h | h
      · exact ih h
      · exact ⟨fun hb => ht.not_mentions hdef hb h, Or.inr (mentions_of_row hdef h)⟩
  · next hnone =>
      rcases LinearForm.mentions_addTerm h with rfl | h
      · exact ⟨not_isBasic_of_row? hnone, Or.inl rfl⟩
      · exact ih h

omit [Scalar α] in
theorem marker_index (t : Tableau α) (c : Comparison) : (t.marker c).index = t.nextIndex := by
  cases c <;> rfl

omit [Scalar α] in
theorem marker_kind (t : Tableau α) (c : Comparison) :
    (t.marker c).isExternal = false ∧ (t.marker c).isArtificial = false := by
  cases c <;> exact ⟨rfl, rfl⟩

/-- The row of a relation holds its marker and parametric symbols. -/
theorem mentions_of_rowOf {t : Tableau α} (ht : t.Separated) {r : Relation α} {u : Symbol}
    (hu : (t.rowOf r).mentions u = true) :
    u = t.marker r.comparison ∨
      ¬ t.isBasic u = true ∧ (u.isExternal = true ∨ t.mentions u = true) :=
  (Row.mentions_setTerm (Row.mentions_orient.mp hu)).imp_right (mentions_of_express ht)

/-- The row of a relation fits once its marker is numbered. -/
theorem WellFormed.fits_rowOf {t : Tableau α} (ht : t.WellFormed) (r : Relation α) :
    Fits { t with nextIndex := t.nextIndex + 1 } (t.rowOf r) := by
  intro u hu
  rcases mentions_of_rowOf ht.separated hu with rfl | ⟨hb, hk⟩
  · refine ⟨?_, Or.inr ?_, (marker_kind t r.comparison).2⟩
    · intro hb
      exact ht.toOrderly.not_mentions_new (marker_kind t r.comparison).1 (marker_index t _)
        (mentions_of_isBasic hb)
    · rw [marker_index]
      exact Nat.lt_succ_self _
  · refine ⟨hb, ?_, ?_⟩
    · rcases hk with hk | hk
      · exact Or.inl hk
      · exact (ht.numbered u hk).imp_right Nat.lt_succ_of_lt
    · rcases hk with hk | hk
      · cases u <;> first | rfl | exact nomatch hk
      · exact ht.settled u hk

omit [Scalar α] in
/-- A number more leaves a tableau well formed. -/
theorem WellFormed.next {t : Tableau α} (ht : t.WellFormed) :
    WellFormed { t with nextIndex := t.nextIndex + 1 } where
  separated := ht.separated
  numbered s hs := (ht.numbered s hs).imp_right Nat.lt_succ_of_lt
  dummies := ht.dummies
  settled := ht.settled

/-- The ways a relation is imposed: its row goes to a subject, is parked under
    its marker, or is absorbed. -/
theorem impose_cases {t t' : Tableau α} {editable : VariableId → Bool} {r : Relation α}
    {m : Symbol} (h : t.impose editable r = .ok (m, t')) :
    m = t.marker r.comparison ∧
      ((∃ subject, t.subject? editable r (t.rowOf r) = some subject ∧
          t' = Tableau.define { t with nextIndex := t.nextIndex + 1 } subject
            ((t.rowOf r).isolate subject)) ∨
        (t.subject? editable r (t.rowOf r) = none ∧ (t.rowOf r).onlyDummies = true ∧
          ¬ t.epsilon < (t.rowOf r).constant ∧
          t' = { t with
            rows := t.rows.insert m (Row.isolate { t.rowOf r with constant := 0 } m)
            nextIndex := t.nextIndex + 1 }) ∨
        (t.subject? editable r (t.rowOf r) = none ∧ ¬ (t.rowOf r).onlyDummies = true ∧
          Tableau.absorb (.unsatisfiable r) (t.rowOf r)
            { t with nextIndex := t.nextIndex + 1 } = .ok t')) := by
  rw [impose_eq] at h
  cases hsub : t.subject? editable r (t.rowOf r) with
  | some subject =>
      simp only [hsub] at h
      obtain ⟨rfl, rfl⟩ := Prod.mk.inj (Except.ok.inj h)
      exact ⟨rfl, Or.inl ⟨subject, rfl, rfl⟩⟩
  | none =>
      simp only [hsub] at h
      split at h
      · next hdum =>
          split at h
          · cases h
          · next heps =>
              obtain ⟨rfl, rfl⟩ := Prod.mk.inj (Except.ok.inj h)
              exact ⟨rfl, Or.inr (Or.inl ⟨rfl, hdum, heps, rfl⟩)⟩
      · next hdum =>
          cases habs : Tableau.absorb (.unsatisfiable r) (t.rowOf r)
              { t with nextIndex := t.nextIndex + 1 } with
          | error e =>
              rw [habs] at h
              cases h
          | ok u =>
              rw [habs] at h
              obtain ⟨rfl, rfl⟩ := Prod.mk.inj (Except.ok.inj h)
              exact ⟨rfl, Or.inr (Or.inr ⟨rfl, hdum, rfl⟩)⟩

/-- The ways a relation is refused: its row is one of dummies that do not add
    up, or it is not absorbed. -/
theorem impose_error_cases {t : Tableau α} {editable : VariableId → Bool} {r : Relation α}
    {reason : Refusal α} (h : t.impose editable r = .error reason) :
    ((t.rowOf r).onlyDummies = true ∧ t.epsilon < (t.rowOf r).constant ∧
        reason = .unsatisfiable r) ∨
      Tableau.absorb (.unsatisfiable r) (t.rowOf r)
        { t with nextIndex := t.nextIndex + 1 } = .error reason := by
  rw [impose_eq] at h
  cases hsub : t.subject? editable r (t.rowOf r) with
  | some subject =>
      simp only [hsub] at h
      cases h
  | none =>
      simp only [hsub] at h
      split at h
      · next hdum =>
          split at h
          · next hpos => exact Or.inl ⟨hdum, hpos, (Except.error.inj h).symm⟩
          · cases h
      · cases habs : Tableau.absorb (.unsatisfiable r) (t.rowOf r)
            { t with nextIndex := t.nextIndex + 1 } with
        | ok u =>
            rw [habs] at h
            cases h
        | error e =>
            rw [habs] at h
            exact Or.inr (congrArg Except.error (Except.error.inj h))

/-- A subject is a variable that occurs nowhere or the slack of the relation. -/
theorem subject?_spec {t : Tableau α} {editable : VariableId → Bool} {r : Relation α}
    {row : Row α} {subject : Symbol} (h : t.subject? editable r row = some subject) :
    (subject.isExternal = true ∧ row.mentions subject = true ∧
        ¬ t.mentions subject = true) ∨
      (subject = t.marker r.comparison ∧ subject.isSlack = true ∧
        row.coefficient subject < 0) := by
  unfold subject? at h
  simp only at h
  split at h
  · next s hfind =>
      obtain rfl := Option.some.inj h
      have htest := List.find?_some hfind
      rw [Bool.and_eq_true, Bool.not_eq_true'] at htest
      obtain ⟨v, -, hv⟩ := List.mem_map.mp (List.mem_of_find?_eq_some hfind)
      refine Or.inl ⟨?_, htest.1, ?_⟩
      · rw [← hv]
        rfl
      · rw [htest.2]
        exact Bool.false_ne_true
  · split at h
    · next hslack =>
        obtain rfl := Option.some.inj h
        exact Or.inr ⟨rfl, hslack.1, hslack.2⟩
    · exact nomatch h

/-- A subject is no dummy, occurs nowhere else and has a number. -/
theorem WellFormed.subject_fresh {t : Tableau α} (ht : t.WellFormed)
    {editable : VariableId → Bool} {r : Relation α} {row : Row α} {subject : Symbol}
    (h : t.subject? editable r row = some subject) :
    ¬ t.mentions subject = true ∧ subject.isDummy = false ∧ subject.isArtificial = false ∧
      (subject.isExternal = true ∨ subject.index < t.nextIndex + 1) := by
  rcases subject?_spec h with ⟨hext, -, hfresh⟩ | ⟨rfl, hslack, -⟩
  · cases subject with
    | external v => exact ⟨hfresh, rfl, rfl, Or.inl rfl⟩
    | slack i => exact nomatch hext
    | dummy i => exact nomatch hext
    | artificial i => exact nomatch hext
  · refine ⟨ht.toOrderly.not_mentions_new (marker_kind t _).1 (marker_index t _), ?_,
      (marker_kind t _).2, Or.inr ?_⟩
    · cases hm : t.marker r.comparison with
      | dummy i =>
          rw [hm] at hslack
          exact nomatch hslack
      | external v => rfl
      | slack i => rfl
      | artificial i => rfl
    · rw [marker_index]
      exact Nat.lt_succ_self _

/-- Defining a symbol that occurs nowhere leaves the other rows as they are. -/
theorem row?_define_fresh {t : Tableau α} {s : Symbol} {definition : Row α}
    (hs : ¬ t.mentions s = true) {u : Symbol} (hu : u ≠ s) :
    (t.define s definition).row? u = t.row? u := by
  rw [row?_define_of_ne t definition hu]
  cases hrow : t.row? u with
  | none => rfl
  | some row =>
      rw [Option.map_some, Row.substitute_of_not_mentions]
      intro hm
      exact hs (mentions_of_row hrow hm)

/-- A row given to its subject leaves a tableau well formed. -/
theorem WellFormed.define_subject {t : Tableau α} (ht : t.WellFormed)
    {editable : VariableId → Bool} {r : Relation α} {subject : Symbol}
    (hsub : t.subject? editable r (t.rowOf r) = some subject) :
    (Tableau.define { t with nextIndex := t.nextIndex + 1 } subject
      ((t.rowOf r).isolate subject)).WellFormed := by
  have hfits := ht.fits_rowOf r
  -- a subject occurs nowhere else, so no other row changes
  obtain ⟨hfresh, hdummy, hart, hnum⟩ := ht.subject_fresh hsub
  refine ⟨⟨?_, ?_, ?_⟩, ?_⟩
  · refine ht.next.separated.define ?_ ?_
    · intro hm
      exact (Row.mentions_isolate.mp hm).1 rfl
    · intro u hu
      exact (hfits u (Row.mentions_isolate.mp hu).2).1
  · intro u hu
    rcases mentions_of_define hu with rfl | hu | hu
    · exact hnum
    · exact ht.next.numbered u hu
    · exact (hfits u (Row.mentions_isolate.mp hu).2).2.1
  · intro u row hrow hu
    have hne : u ≠ subject := by
      rintro rfl
      rw [hdummy] at hu
      exact nomatch hu
    rw [row?_define_fresh (t := { t with nextIndex := t.nextIndex + 1 }) hfresh hne] at hrow
    exact ht.dummies u row hrow hu
  · intro u hu
    rcases mentions_of_define hu with rfl | hu | hu
    · exact hart
    · exact ht.settled u hu
    · exact (hfits u (Row.mentions_isolate.mp hu).2).2.2

/-- A row of dummies parked under its marker leaves a tableau well formed. -/
theorem WellFormed.park {t : Tableau α} (ht : t.WellFormed) {r : Relation α}
    (hdum : (t.rowOf r).onlyDummies = true) :
    WellFormed { t with
      rows := t.rows.insert (t.marker r.comparison)
        (Row.isolate { t.rowOf r with constant := 0 } (t.marker r.comparison))
      nextIndex := t.nextIndex + 1 } := by
  have hfits := ht.fits_rowOf r
  have hdef : ∀ u,
      (Row.isolate { t.rowOf r with constant := 0 } (t.marker r.comparison)).mentions u = true →
      u ≠ t.marker r.comparison ∧ (t.rowOf r).mentions u = true :=
    fun u hu => Row.mentions_isolate.mp hu
  refine ⟨?_, ?_⟩
  · refine ht.toOrderly.insertRow (Nat.le_succ _) ?_ ?_ ?_ ?_ ?_ ?_
    · rw [marker_index]
      exact Nat.lt_succ_self _
    · exact ht.toOrderly.not_mentions_new (marker_kind t _).1 (marker_index t _)
    · intro hm
      exact (hdef _ hm).1 rfl
    · intro u hu
      exact (hfits u (hdef u hu).2).1
    · intro u hu
      exact (hfits u (hdef u hu).2).2.1
    · intro _
      refine Row.onlyDummies_iff.mpr fun u hu => ?_
      exact Row.onlyDummies_iff.mp hdum u (hdef u hu).2
  · intro u hu
    rcases mentions_of_insertRow hu with rfl | hu | hu
    · exact (marker_kind t _).2
    · exact ht.settled u hu
    · exact (hfits u (hdef u hu).2).2.2

/-- Imposing keeps a tableau well formed. -/
theorem WellFormed.impose {t t' : Tableau α} (ht : t.WellFormed)
    {editable : VariableId → Bool} {r : Relation α} {m : Symbol}
    (h : t.impose editable r = .ok (m, t')) :
    t'.WellFormed ∧ t.nextIndex < t'.nextIndex ∧ t'.epsilon = t.epsilon := by
  obtain ⟨rfl, ⟨subject, hsub, rfl⟩ | ⟨-, hdum, -, rfl⟩ | ⟨-, -, habs⟩⟩ := impose_cases h
  · exact ⟨ht.define_subject hsub, Nat.lt_succ_self _, rfl⟩
  · exact ⟨ht.park hdum, Nat.lt_succ_self _, rfl⟩
  · obtain ⟨hwf, hnext, heps⟩ := ht.next.absorb (ht.fits_rowOf r) habs
    exact ⟨hwf, Nat.lt_of_succ_lt hnext, heps⟩

/-! ## Withdrawing -/

/-- Whatever list of rows a donor is chosen from by least value, it is a row of
    the tableau. -/
private theorem row?_of_leastBy? {t : Tableau α} {l : List ((Symbol × Row α) × α)}
    {leaving : Symbol} {row : Row α} (h : leastBy? l = some (leaving, row))
    (hmem : ∀ a x, (a, x) ∈ l → a ∈ t.rows.entries) : t.row? leaving = some row := by
  obtain ⟨x, hx⟩ := mem_of_leastBy? h
  exact OrderedMap.mem_entries_iff.mp (hmem _ x hx)

theorem mem_lowered_iff {t : Tableau α} {marker : Symbol} {a : Symbol × Row α} {x : α} :
    (a, x) ∈ t.lowered marker ↔
      a ∈ t.rows.entries ∧ !(a.2.coefficient marker == 0) ∧ !a.1.isExternal ∧
        a.2.coefficient marker < 0 ∧ x = -a.2.constant / a.2.coefficient marker := by
  unfold lowered
  rw [List.mem_filterMap]
  constructor
  · rintro ⟨b, hb, htest⟩
    simp only at htest
    split at htest
    · next h =>
        obtain ⟨rfl, rfl⟩ := Prod.mk.inj (Option.some.inj htest)
        exact ⟨hb, h.1, h.2.1, h.2.2, rfl⟩
    · exact nomatch htest
  · rintro ⟨ha, h1, h2, h3, rfl⟩
    refine ⟨a, ha, ?_⟩
    simp only
    rw [if_pos ⟨h1, h2, h3⟩]

theorem mem_raised_iff {t : Tableau α} {marker : Symbol} {a : Symbol × Row α} {x : α} :
    (a, x) ∈ t.raised marker ↔
      a ∈ t.rows.entries ∧ !(a.2.coefficient marker == 0) ∧ !a.1.isExternal ∧
        ¬ a.2.coefficient marker < 0 ∧ x = a.2.constant / a.2.coefficient marker := by
  unfold raised
  rw [List.mem_filterMap]
  constructor
  · rintro ⟨b, hb, htest⟩
    simp only at htest
    split at htest
    · next h =>
        obtain ⟨rfl, rfl⟩ := Prod.mk.inj (Option.some.inj htest)
        exact ⟨hb, h.1, h.2.1, h.2.2, rfl⟩
    · exact nomatch htest
  · rintro ⟨ha, h1, h2, h3, rfl⟩
    refine ⟨a, ha, ?_⟩
    simp only
    rw [if_pos ⟨h1, h2, h3⟩]

omit [Scalar α] in
private theorem no_dummy {t : Tableau α} {marker : Symbol}
    (h : (t.rows.find? fun s row => s.isDummy && row.mentions marker) = none) :
    ∀ s r, t.row? s = some r → s.isDummy = true → ¬ r.mentions marker = true := by
  intro s r hr hs hm
  have := OrderedMap.find?_eq_none_iff.mp h s r hr
  rw [hs, hm] at this
  exact nomatch this

/-- The order in which donors are looked for. -/
theorem donor?_cases {t : Tableau α} {marker leaving : Symbol} {row : Row α}
    (h : t.donor? marker = some (leaving, row)) :
    (leaving.isDummy = true ∧ row.mentions marker = true ∧ t.row? leaving = some row) ∨
      (∀ s r, t.row? s = some r → s.isDummy = true → ¬ r.mentions marker = true) ∧
        (leastBy? (t.lowered marker) = some (leaving, row) ∨
          (t.lowered marker = [] ∧ leastBy? (t.raised marker) = some (leaving, row)) ∨
          (t.lowered marker = [] ∧ t.raised marker = [] ∧ leaving.isExternal = true ∧
            (!(row.coefficient marker == 0)) = true ∧ t.row? leaving = some row)) := by
  unfold donor? at h
  rcases Option.or_eq_some_iff.mp h with h | ⟨hnone, hlast⟩
  · rcases Option.or_eq_some_iff.mp h with h | ⟨hnone, hraised⟩
    · rcases Option.or_eq_some_iff.mp h with hfind | ⟨hnone, hlowered⟩
      · obtain ⟨hrow, htest⟩ := OrderedMap.get?_of_find? hfind
        rw [Bool.and_eq_true] at htest
        exact Or.inl ⟨htest.1, htest.2, hrow⟩
      · exact Or.inr ⟨no_dummy hnone, Or.inl hlowered⟩
    · obtain ⟨hfind, hlow⟩ := Option.or_eq_none_iff.mp hnone
      exact Or.inr ⟨no_dummy hfind, Or.inr (Or.inl ⟨leastBy?_eq_none_iff.mp hlow, hraised⟩)⟩
  · obtain ⟨hnone, hraised⟩ := Option.or_eq_none_iff.mp hnone
    obtain ⟨hfind, hlow⟩ := Option.or_eq_none_iff.mp hnone
    obtain ⟨hrow, htest⟩ := OrderedMap.get?_of_find? hlast
    rw [Bool.and_eq_true] at htest
    exact Or.inr ⟨no_dummy hfind, Or.inr (Or.inr ⟨leastBy?_eq_none_iff.mp hlow,
      leastBy?_eq_none_iff.mp hraised, htest.1, htest.2, hrow⟩)⟩

/-- A donor is basic, and it is a dummy if any row of a dummy holds the
    marker. -/
theorem donor?_spec {t : Tableau α} {marker leaving : Symbol} {row : Row α}
    (h : t.donor? marker = some (leaving, row)) :
    t.row? leaving = some row ∧
      ∀ s r, t.row? s = some r → s.isDummy = true → r.mentions marker = true →
        leaving.isDummy = true := by
  rcases donor?_cases h with ⟨hd, -, hrow⟩ | ⟨hno, hlow | ⟨-, hraised⟩ | ⟨-, -, -, -, hrow⟩⟩
  · exact ⟨hrow, fun _ _ _ _ _ => hd⟩
  · refine ⟨row?_of_leastBy? hlow fun a x hx => (mem_lowered_iff.mp hx).1, ?_⟩
    intro s r hr hs hm
    exact absurd hm (hno s r hr hs)
  · refine ⟨row?_of_leastBy? hraised fun a x hx => (mem_raised_iff.mp hx).1, ?_⟩
    intro s r hr hs hm
    exact absurd hm (hno s r hr hs)
  · refine ⟨hrow, ?_⟩
    intro s r hr hs hm
    exact absurd hm (hno s r hr hs)

/-- The ways a relation is withdrawn. -/
theorem withdraw_cases {t t' : Tableau α} {marker : Symbol}
    (h : t.withdraw marker = .ok t') :
    (t.isBasic marker = true ∧ t' = t.eraseRow marker) ∨
      (¬ t.isBasic marker = true ∧ ∃ leaving row, t.donor? marker = some (leaving, row) ∧
        t' = (t.eraseRow leaving).substitute marker (row.exchange leaving marker)) ∨
      (¬ t.mentions marker = true ∧ t' = t) := by
  rw [withdraw_eq] at h
  split at h
  · next hb => exact Or.inl ⟨hb, (Except.ok.inj h).symm⟩
  · next hb =>
      split at h
      · split at h
        · next leaving row hdonor =>
            exact Or.inr (Or.inl ⟨hb, leaving, row, hdonor, (Except.ok.inj h).symm⟩)
        · exact nomatch h
      · next hm => exact Or.inr (Or.inr ⟨hm, (Except.ok.inj h).symm⟩)

omit [Scalar α] in
theorem WellFormed.eraseRow {t : Tableau α} (ht : t.WellFormed) (s : Symbol) :
    (t.eraseRow s).WellFormed where
  separated := ht.separated.eraseRow s
  numbered u hu := ht.numbered u (mentions_of_eraseRow hu)
  dummies u row hrow hu := ht.dummies u row (row?_of_eraseRow hrow).2 hu
  settled u hu := ht.settled u (mentions_of_eraseRow hu)

/-- Replacing a marker through a donor brings no new symbol in. -/
theorem mentions_of_substitute_donor {t : Tableau α} {marker leaving : Symbol} {row : Row α}
    (hrow : t.row? leaving = some row) {u : Symbol}
    (hu : ((t.eraseRow leaving).substitute marker (row.exchange leaving marker)).mentions u
      = true) : t.mentions u = true := by
  rcases mentions_of_substitute hu with hu | hu
  · exact mentions_of_eraseRow hu
  · rcases (Row.mentions_exchange hu).2 with rfl | hu
    · exact mentions_of_isBasic (isBasic_of_row? hrow)
    · exact mentions_of_row hrow hu

/-- A parametric marker is set free through its donor, which goes. -/
theorem WellFormed.substitute_donor {t : Tableau α} (ht : t.WellFormed)
    {marker leaving : Symbol} {row : Row α} (h : t.donor? marker = some (leaving, row)) :
    ((t.eraseRow leaving).substitute marker (row.exchange leaving marker)).WellFormed := by
  obtain ⟨hrow, hdonorDummy⟩ := donor?_spec h
  refine ⟨⟨?_, fun u hu => ht.numbered u (mentions_of_substitute_donor hrow hu), ?_⟩,
    fun u hu => ht.settled u (mentions_of_substitute_donor hrow hu)⟩
  · intro s r u hr hu
    rw [Bool.eq_false_iff]
    intro hb
    rw [row?_substitute] at hr
    obtain ⟨old, hold, rfl⟩ := Option.map_eq_some_iff.mp hr
    obtain ⟨hne, hb⟩ := isBasic_eraseRow_iff.mp (OrderedMap.mem_mapValues_iff.mp hb)
    rcases Row.mentions_substitute hu with hm | ⟨-, hm⟩
    · exact ht.separated.not_mentions (row?_of_eraseRow hold).2 hb hm.2
    · rcases (Row.mentions_exchange hm).2 with rfl | hm
      · exact hne rfl
      · exact ht.separated.not_mentions hrow hb hm
  · intro s r hr hs
    rw [row?_substitute] at hr
    obtain ⟨old, hold, rfl⟩ := Option.map_eq_some_iff.mp hr
    have hold := (row?_of_eraseRow hold).2
    have honly := Row.onlyDummies_iff.mp (ht.dummies s old hold hs)
    refine Row.onlyDummies_iff.mpr fun u hu => ?_
    rcases Row.mentions_substitute hu with hm | ⟨hmarker, hm⟩
    · exact honly u hm.2
    · -- a row of dummies changes only if the donor is a dummy too
      have hleaving := hdonorDummy s old hold hs hmarker
      rcases (Row.mentions_exchange hm).2 with rfl | hm
      · exact hleaving
      · exact Row.onlyDummies_iff.mp (ht.dummies leaving row hrow hleaving) u hm

/-- Withdrawing keeps a tableau well formed. -/
theorem WellFormed.withdraw {t t' : Tableau α} (ht : t.WellFormed) {marker : Symbol}
    (h : t.withdraw marker = .ok t') :
    t'.WellFormed ∧ t'.nextIndex = t.nextIndex ∧ t'.epsilon = t.epsilon := by
  rcases withdraw_cases h with ⟨-, rfl⟩ | ⟨-, leaving, row, hdonor, rfl⟩ | ⟨-, rfl⟩
  · exact ⟨ht.eraseRow marker, rfl, rfl⟩
  · exact ⟨ht.substitute_donor hdonor, rfl, rfl⟩
  · exact ⟨ht, rfl, rfl⟩

/-! ## Repairing -/

/-- The row with one symbol replaced by its row, if it has one. -/
def replace (t : Tableau α) (row : Row α) (s : Symbol) : Row α :=
  match t.row? s with
  | some definition => row.substitute s definition
  | none => row

theorem reduce_eq (t : Tableau α) (row : Row α) :
    t.reduce row = (row.terms.keys.filter t.isBasic).foldl t.replace row := rfl

/-- Replacing a symbol leaves none but other symbols of the row and parametric
    ones of the tableau, unless the symbol itself is parametric. -/
theorem mentions_of_replace {t : Tableau α} (ht : t.Separated) {row : Row α} {s v : Symbol}
    (hv : (t.replace row s).mentions v = true) :
    (row.mentions v = true ∧ (v = s → ¬ t.isBasic v = true)) ∨
      (¬ t.isBasic v = true ∧ t.mentions v = true) := by
  unfold replace at hv
  cases hrow : t.row? s with
  | some definition =>
      rw [hrow] at hv
      rcases Row.mentions_substitute hv with ⟨hne, hm⟩ | ⟨-, hm⟩
      · exact Or.inl ⟨hm, fun h => absurd h hne⟩
      · exact Or.inr ⟨fun hb => ht.not_mentions hrow hb hm, mentions_of_row hrow hm⟩
  | none =>
      rw [hrow] at hv
      refine Or.inl ⟨hv, ?_⟩
      rintro rfl
      exact not_isBasic_of_row? hrow

/-- A reduced row holds no basic symbol and no other symbols than the row and
    the tableau do. -/
theorem mentions_of_reduce {t : Tableau α} (ht : t.Separated) {row : Row α} {u : Symbol}
    (hu : (t.reduce row).mentions u = true) :
    ¬ t.isBasic u = true ∧ (row.mentions u = true ∨ t.mentions u = true) := by
  -- along the fold a symbol is parametric or one of those still to be replaced
  have hfold : ∀ (l : List Symbol) (r : Row α),
      (∀ v, r.mentions v = true → (v ∈ l ∨ ¬ t.isBasic v = true) ∧
        (row.mentions v = true ∨ t.mentions v = true)) →
      ∀ v, (l.foldl t.replace r).mentions v = true →
        ¬ t.isBasic v = true ∧ (row.mentions v = true ∨ t.mentions v = true) := by
    intro l
    induction l with
    | nil =>
        intro r hr v hv
        exact ⟨(hr v hv).1.resolve_left List.not_mem_nil, (hr v hv).2⟩
    | cons s l ih =>
        intro r hr
        rw [List.foldl_cons]
        refine ih _ ?_
        intro v hv
        rcases mentions_of_replace ht hv with ⟨hm, hself⟩ | ⟨hb, hm⟩
        · refine ⟨?_, (hr v hm).2⟩
          rcases (hr v hm).1 with hmem | hb
          · exact (List.mem_cons.mp hmem).symm.imp_right hself
          · exact Or.inr hb
        · exact ⟨Or.inr hb, Or.inr hm⟩
  rw [reduce_eq] at hu
  refine hfold _ row (fun v hv => ⟨?_, Or.inl hv⟩) u hu
  by_cases hb : t.isBasic v = true
  · exact Or.inl (List.mem_filter.mpr ⟨OrderedMap.mem_keys_iff.mpr hv, hb⟩)
  · exact Or.inr hb

/-- A reduced row without artificials suits the tableau. -/
theorem Tidy.suits_reduce {t : Tableau α} (ht : t.Tidy) {row : Row α}
    (hrow : ∀ u, row.mentions u = true → u.isArtificial = false) :
    t.Suits (t.reduce row).orient := by
  intro u hu
  obtain ⟨hb, hm⟩ := mentions_of_reduce ht.separated (Row.mentions_orient.mp hu)
  exact ⟨hb, hm.elim (hrow u) (ht.settled u)⟩

/-- A reduced row over known symbols fits. -/
theorem WellFormed.fits_reduce {t : Tableau α} (ht : t.WellFormed) {row : Row α}
    (hknown : ∀ u, row.mentions u = true →
      (u.isExternal = true ∨ u.index < t.nextIndex) ∧ u.isArtificial = false) :
    t.Fits (t.reduce row).orient := by
  intro u hu
  obtain ⟨hb, hm⟩ := mentions_of_reduce ht.separated (Row.mentions_orient.mp hu)
  refine ⟨hb, ?_⟩
  rcases hm with hm | hm
  · exact hknown u hm
  · exact ⟨ht.numbered u hm, ht.settled u hm⟩

/-- Whatever every absorption keeps, absorbing rows over known symbols one after
    the other keeps too.  The rows that are absorbed hold symbols of the pending
    ones and of the tableau. -/
theorem absorbAll_induction {P : Tableau α → Prop} {Q : Symbol → Prop}
    (hstep : ∀ t t' row reason, P t → t.WellFormed → t.Fits row →
      (∀ u, row.mentions u = true → Q u ∨ t.mentions u = true) →
      t.absorb reason row = .ok t' → P t') :
    ∀ {pending : List (Symbol × Row α)} {t t' : Tableau α}, P t → t.WellFormed →
      (∀ a ∈ pending, ∀ u, a.2.mentions u = true → Q u) →
      (∀ u, Q u → (u.isExternal = true ∨ u.index < t.nextIndex) ∧ u.isArtificial = false) →
      absorbAll pending t = .ok t' → P t' ∧ t'.WellFormed := by
  intro pending
  induction pending with
  | nil =>
      intro t t' hP ht _ _ h
      obtain rfl := Except.ok.inj h
      exact ⟨hP, ht⟩
  | cons a pending ih =>
      intro t t' hP ht hpending hknown h
      have hhead := hpending a (List.mem_cons_self ..)
      have hrow : ∀ u, (t.reduce a.2).orient.mentions u = true →
          Q u ∨ t.mentions u = true := fun u hu =>
        (mentions_of_reduce ht.separated (Row.mentions_orient.mp hu)).2.imp_left (hhead u)
      have hfits := ht.fits_reduce fun u hu => hknown u (hhead u hu)
      rw [absorbAll_cons] at h
      split at h
      · exact nomatch h
      · next t₁ habs =>
          -- the tableau knows at least as many symbols as before
          obtain ⟨ht₁, hnext, -⟩ := ht.absorb hfits habs
          refine ih (hstep _ _ _ _ hP ht hfits hrow habs) ht₁
            (fun b hb => hpending b (List.mem_cons_of_mem _ hb)) (fun u hu => ?_) h
          obtain ⟨hnum, hart⟩ := hknown u hu
          exact ⟨hnum.imp_right fun h => Nat.lt_trans h hnext, hart⟩

omit [Scalar α] in
theorem row?_filter_iff {t : Tableau α} {p : Symbol → Row α → Bool} {s : Symbol} {row : Row α} :
    Tableau.row? { t with rows := t.rows.filter p } s = some row
      ↔ t.row? s = some row ∧ p s row = true := by
  show (t.rows.filter p).get? s = some row ↔ _
  rw [OrderedMap.get?_filter]
  exact Option.filter_eq_some_iff

omit [Scalar α] in
theorem row?_of_filter {t : Tableau α} {p : Symbol → Row α → Bool} {s : Symbol} {row : Row α}
    (h : Tableau.row? { t with rows := t.rows.filter p } s = some row) :
    t.row? s = some row :=
  (row?_filter_iff.mp h).1

omit [Scalar α] in
theorem mentions_of_filter {t : Tableau α} {p : Symbol → Row α → Bool} {u : Symbol}
    (h : Tableau.mentions { t with rows := t.rows.filter p } u = true) : t.mentions u = true := by
  rcases mentions_iff.mp h with hb | ⟨s, row, hs, hm⟩
  · obtain ⟨row, hr⟩ := isBasic_iff.mp hb
    exact mentions_of_isBasic (isBasic_of_row? (row?_of_filter hr))
  · exact mentions_of_row (row?_of_filter hs) hm

omit [Scalar α] in
/-- Fewer rows leave a tableau tidy. -/
theorem Tidy.filter {t : Tableau α} (ht : t.Tidy) (p : Symbol → Row α → Bool) :
    Tidy { t with rows := t.rows.filter p } where
  separated s row u hs hu := by
    rw [Bool.eq_false_iff]
    intro hb
    obtain ⟨r, hr⟩ := isBasic_iff.mp hb
    exact ht.separated.not_mentions (row?_of_filter hs) (isBasic_of_row? (row?_of_filter hr)) hu
  layered s row hs hd := ht.layered s row (row?_of_filter hs) hd
  settled u hu := ht.settled u (mentions_of_filter hu)

omit [Scalar α] in
/-- Fewer rows leave a tableau well formed. -/
theorem WellFormed.filter {t : Tableau α} (ht : t.WellFormed) (p : Symbol → Row α → Bool) :
    WellFormed { t with rows := t.rows.filter p } where
  separated := (ht.tidy.filter p).separated
  numbered u hu := ht.numbered u (mentions_of_filter hu)
  dummies := (ht.tidy.filter p).layered
  settled := (ht.tidy.filter p).settled

theorem mem_negativeRows_iff {t : Tableau α} {a : Symbol × Row α} :
    a ∈ t.negativeRows ↔
      ∃ row, t.row? a.1 = some row ∧ t.isNegative a.1 row = true ∧ a.2 = row.setTerm a.1 (-1) := by
  rw [negativeRows, List.mem_map]
  constructor
  · rintro ⟨b, hb, rfl⟩
    obtain ⟨hmem, hneg⟩ := List.mem_filter.mp hb
    exact ⟨b.2, OrderedMap.mem_entries_iff.mp hmem, hneg, rfl⟩
  · rintro ⟨row, hrow, hneg, heq⟩
    exact ⟨(a.1, row), List.mem_filter.mpr ⟨OrderedMap.mem_entries_iff.mpr hrow, hneg⟩,
      Prod.ext rfl heq.symm⟩

/-- Whose row is taken out is gone from the rows that are left. -/
theorem Separated.absent_negativeRows {t : Tableau α} (ht : t.Separated) {a : Symbol × Row α}
    (ha : a ∈ t.negativeRows) :
    ¬ Tableau.mentions { t with rows := t.rows.filter fun s row => !t.isNegative s row } a.1
      = true := by
  obtain ⟨row, hrow, hneg, -⟩ := mem_negativeRows_iff.mp ha
  intro hs
  rcases mentions_iff.mp hs with hb | ⟨v, r, hr, hm⟩
  · obtain ⟨r, hr⟩ := isBasic_iff.mp hb
    obtain ⟨hold, htest⟩ := row?_filter_iff.mp hr
    obtain rfl := Option.some.inj (hrow.symm.trans hold)
    rw [hneg] at htest
    exact nomatch htest
  · exact ht.not_mentions (row?_of_filter hr) (isBasic_of_row? hrow) hm

/-- No row that is taken out mentions the symbol of a later one. -/
theorem Separated.apart_negativeRows {t : Tableau α} (ht : t.Separated) :
    t.negativeRows.Pairwise fun a b => ¬ a.2.mentions b.1 = true := by
  have hnodup : (t.negativeRows.map (·.1)).Nodup := by
    rw [negativeRows, List.map_map]
    exact t.rows.nodup_keys.sublist (List.filter_sublist.map _)
  refine (List.pairwise_map.mp hnodup).imp_of_mem fun ha hb hne hm => ?_
  obtain ⟨row, hrow, -, heq⟩ := mem_negativeRows_iff.mp ha
  obtain ⟨other, hother, -, -⟩ := mem_negativeRows_iff.mp hb
  rw [heq] at hm
  exact ht.not_mentions hrow (isBasic_of_row? hother)
    ((Row.mentions_setTerm hm).resolve_left hne.symm)

/-- The rows that a repair takes out mention only symbols of the tableau. -/
theorem mentions_of_negativeRows {t : Tableau α} {a : Symbol × Row α} (ha : a ∈ t.negativeRows)
    {u : Symbol} (hu : a.2.mentions u = true) : t.mentions u = true := by
  obtain ⟨row, hrow, -, heq⟩ := mem_negativeRows_iff.mp ha
  rw [heq] at hu
  rcases Row.mentions_setTerm hu with rfl | hm
  · exact mentions_of_isBasic (isBasic_of_row? hrow)
  · exact mentions_of_row hrow hm

/-- The rows that a repair takes out are over known symbols. -/
theorem WellFormed.known_negativeRows {t : Tableau α} (ht : t.WellFormed)
    {a : Symbol × Row α} (ha : a ∈ t.negativeRows) {u : Symbol} (hu : a.2.mentions u = true) :
    (u.isExternal = true ∨ u.index < t.nextIndex) ∧ u.isArtificial = false :=
  ⟨ht.numbered u (mentions_of_negativeRows ha hu), ht.settled u (mentions_of_negativeRows ha hu)⟩

/-- Whatever every absorption keeps holds after a repair if it holds of the
    rows that are in bounds. -/
theorem repair_induction {P : Tableau α → Prop} {t t' : Tableau α}
    (hstep : ∀ u u' row reason, P u → u.WellFormed → u.Fits row →
      (∀ s, row.mentions s = true → t.mentions s = true ∨ u.mentions s = true) →
      u.absorb reason row = .ok u' → P u')
    (hP : P { t with rows := t.rows.filter fun s row => !t.isNegative s row })
    (ht : t.WellFormed) (h : t.repair = .ok t') : P t' :=
  (absorbAll_induction (Q := fun u => t.mentions u = true) hstep hP (ht.filter _)
    (fun _ ha _ hu => mentions_of_negativeRows ha hu)
    (fun u hu => ⟨ht.numbered u hu, ht.settled u hu⟩) h).1

/-- Repairing keeps a tableau well formed. -/
theorem WellFormed.repair {t t' : Tableau α} (ht : t.WellFormed) (h : t.repair = .ok t') :
    t'.WellFormed ∧ t.nextIndex ≤ t'.nextIndex ∧ t'.epsilon = t.epsilon :=
  repair_induction
    (P := fun u => u.WellFormed ∧ t.nextIndex ≤ u.nextIndex ∧ u.epsilon = t.epsilon)
    (fun u u' row reason hu hwf hfits _ habs => by
      obtain ⟨hwf', hnext, heps⟩ := hwf.absorb hfits habs
      exact ⟨hwf', Nat.le_trans hu.2.1 (Nat.le_of_lt hnext), heps.trans hu.2.2⟩)
    ⟨ht.filter _, Nat.le_refl _, rfl⟩ ht h

/-- Repairing brings no symbol in. -/
theorem WellFormed.mentions_of_repair {t t' : Tableau α} (ht : t.WellFormed)
    (h : t.repair = .ok t') {s : Symbol} (hs : t'.mentions s = true) : t.mentions s = true :=
  repair_induction (P := fun u => ∀ s, u.mentions s = true → t.mentions s = true)
    (fun _ _ _ _ hu hwf hfits hrow habs s hs => by
      rcases hwf.tidy.mentions_of_absorb hfits.suits habs hs with hm | hm
      · exact hu s hm
      · exact (hrow s hm).elim id (hu s))
    (fun _ hs => mentions_of_filter hs) ht h s hs

end Tableau

end LinearConstraints
