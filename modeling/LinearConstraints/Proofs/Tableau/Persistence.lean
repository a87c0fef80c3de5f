import LinearConstraints.Proofs.Row.Cells
import LinearConstraints.Proofs.Tableau.Upkeep
import Mathlib.Data.List.Basic

/-! # Which symbols a tableau keeps

    An exchange solves a row for another of its symbols, and whatever cell it
    prunes from the other rows is still a cell of that one.  So phase one
    loses no symbol, however much it prunes, and neither do imposing and
    repairing, which are made of it.  Only withdrawing drops a row.

    The number of rows is kept in the same way, unless the row of the
    artificial runs empty.  It does not, because it is anchored: it alone
    mentions some symbol, the marker of the relation or the symbol whose row
    is being repaired, and no exchange can bring that symbol in unless the
    artificial goes out. -/

namespace LinearConstraints

variable {α : Type} [Scalar α]

/-- What an arithmetic has to grant for symbols to last: plus and minus one are
    no rounding noise, and a row that does not move blocks no move. -/
structure Scalar.Steady (epsilon : α) : Prop where
  one : Scalar.negligible (1 : α) = false
  neg_one : Scalar.negligible (-1 : α) = false
  rest : ∀ direction : Direction, ¬ direction.rate 0 < -epsilon

namespace Tableau

variable {t : Tableau α}

/-! ## Rows and columns -/

omit [Scalar α] in
theorem mentions_insertRow {s u : Symbol} {row : Row α} {next : Nat}
    (hfresh : ¬ t.isBasic s = true) (h : t.mentions u = true ∨ row.mentions u = true) :
    Tableau.mentions { t with rows := t.rows.insert s row, nextIndex := next } u = true := by
  rcases h with h | h
  · rcases mentions_iff.mp h with hb | ⟨v, r, hr, hu⟩
    · exact mentions_of_isBasic (OrderedMap.mem_insert_iff.mpr (Or.inr hb))
    · refine mentions_of_row ((OrderedMap.get?_insert_of_ne _ _ ?_).trans hr) hu
      rintro rfl
      exact hfresh (isBasic_of_row? hr)
  · exact mentions_of_row (OrderedMap.get?_insert_self ..) h

omit [Scalar α] in
theorem mentions_eraseColumn {s u : Symbol} (hne : u ≠ s) (h : t.mentions u = true) :
    (t.eraseColumn s).mentions u = true := by
  rcases mentions_iff.mp h with hb | ⟨v, r, hr, hu⟩
  · exact mentions_of_isBasic (OrderedMap.mem_mapValues_iff.mpr hb)
  · have hcolumn : (t.eraseColumn s).row? v = some (r.eraseTerm s) := by
      rw [row?_eraseColumn, hr]
      rfl
    exact mentions_of_row hcolumn (Row.mentions_eraseTerm.mpr ⟨hne, hu⟩)

/-- A definition of a symbol that occurs nowhere joins the other rows. -/
theorem mentions_define_fresh {s u : Symbol} {definition : Row α} (hs : ¬ t.mentions s = true)
    (h : u = s ∨ t.mentions u = true ∨ definition.mentions u = true) :
    (t.define s definition).mentions u = true := by
  rcases h with rfl | h | h
  · exact mentions_of_isBasic (isBasic_define_iff.mpr (Or.inl rfl))
  · rcases mentions_iff.mp h with hb | ⟨v, r, hr, hu⟩
    · exact mentions_of_isBasic (isBasic_define_iff.mpr (Or.inr hb))
    · have hne : v ≠ s := fun hv => hs (hv ▸ mentions_of_isBasic (isBasic_of_row? hr))
      exact mentions_of_row ((row?_define_fresh hs hne).trans hr) hu
  · exact mentions_of_row (row?_define_self ..) h

/-- Solving a row for another symbol loses none: what is pruned elsewhere is
    still mentioned by the row itself. -/
theorem mentions_define_exchange (hunit : Scalar.negligible (-1 : α) = false)
    {leaving entering u : Symbol} {row definition : Row α} (hrow : t.row? leaving = some row)
    (hsame : ∀ v, row.mentions v = true → definition.mentions v = true)
    (hent : ¬ t.isBasic entering = true) (h : t.mentions u = true) :
    ((t.eraseRow leaving).define entering (definition.exchange leaving entering)).mentions u
      = true := by
  by_cases he : u = entering
  · exact mentions_of_isBasic (isBasic_define_iff.mpr (Or.inl he))
  by_cases hd : (definition.exchange leaving entering).mentions u = true
  · exact mentions_of_row (row?_define_self ..) hd
  -- the symbol is neither the leaving one nor in its row, so its own cells are left alone
  have hnot : ¬ (u = leaving ∨ definition.mentions u = true) :=
    fun h => hd ((Row.mentions_exchange_iff hunit).mpr ⟨he, h⟩)
  rcases mentions_iff.mp h with hb | ⟨v, r, hr, hu⟩
  · refine mentions_of_isBasic (isBasic_define_iff.mpr (Or.inr ?_))
    exact isBasic_eraseRow_iff.mpr ⟨fun hl => hnot (Or.inl hl), hb⟩
  · have hleaving : v ≠ leaving := by
      rintro rfl
      obtain rfl := Option.some.inj (hrow.symm.trans hr)
      exact hnot (Or.inr (hsame u hu))
    have hentering : v ≠ entering := fun hv => hent (hv ▸ isBasic_of_row? hr)
    have hget : ((t.eraseRow leaving).define entering
        (definition.exchange leaving entering)).row? v
          = some (r.substitute entering (definition.exchange leaving entering)) := by
      rw [row?_define_of_ne _ _ hentering, row?_eraseRow_of_ne t hleaving, hr]
      rfl
    exact mentions_of_row hget (Row.mentions_substitute_of_not_mentions he hu hd)

/-! ## The search -/

/-- Whether a basic symbol is anchored by a parametric one that its row alone
    mentions. -/
structure Anchored (t : Tableau α) (objective anchor : Symbol) : Prop where
  parametric : ¬ t.isBasic anchor = true
  held : ∃ row, t.row? objective = some row ∧ row.mentions anchor = true
  alone : ∀ s row, t.row? s = some row → row.mentions anchor = true → s = objective

/-- What a search carries on from where it starts: all symbols and rows, and the
    anchor as long as the objective is basic. -/
structure Carries (t : Tableau α) (objective anchor : Symbol) (u : Tableau α) : Prop where
  separated : u.Separated
  epsilon_eq : u.epsilon = t.epsilon
  mentions : ∀ s, t.mentions s = true → u.mentions s = true
  size_eq : u.size = t.size
  anchored : u.isBasic objective = true → u.Anchored objective anchor

variable {objective anchor leaving entering : Symbol}

/-- An anchored row can only be left by its own basic symbol. -/
theorem Anchored.exchange (hsteady : Scalar.Steady t.epsilon) (ht : t.Separated)
    (h : t.Anchored objective anchor)
    (hmove : t.nextMove objective = .exchange leaving entering)
    (hb : (t.exchange leaving entering).isBasic objective = true) :
    (t.exchange leaving entering).Anchored objective anchor := by
  obtain ⟨row, direction, hrow, -, hent, hleav⟩ := exists_of_nextMove hmove
  obtain ⟨r, hr, -, hrate⟩ := row?_of_leaving? hleav
  have hentering : ¬ t.isBasic entering = true := ht.not_isBasic_entering hrow hent
  have hobjective : objective ≠ entering := fun he => hentering (he ▸ isBasic_of_row? hrow)
  have hother : leaving ≠ objective := by
    rintro rfl
    exact ((isBasic_exchange_iff hr).mp hb).elim hobjective fun h => h.1 rfl
  have hrest : ¬ r.mentions anchor = true := fun hm => hother (h.alone leaving r hr hm)
  have hanchor : anchor ≠ entering := by
    rintro rfl
    rw [LinearForm.coefficient_of_get?_none (LinearForm.get?_eq_none_of_not_mentions hrest)]
      at hrate
    exact hsteady.rest direction hrate
  have hdefinition : ¬ (r.exchange leaving entering).mentions anchor = true := by
    intro hm
    rcases (Row.mentions_exchange hm).2 with rfl | hm
    · exact h.parametric (isBasic_of_row? hr)
    · exact hrest hm
  refine ⟨fun hm => ?_, ?_, fun s r' hr' hm => ?_⟩
  · exact ((isBasic_exchange_iff hr).mp hm).elim hanchor fun hm => h.parametric hm.2
  · obtain ⟨old, hold, hm⟩ := h.held
    refine ⟨old.substitute entering (r.exchange leaving entering), ?_,
      Row.mentions_substitute_of_not_mentions hanchor hm hdefinition⟩
    rw [row?_exchange_of_ne hr hobjective hother.symm, hold]
    rfl
  · rw [exchange_of_row? hr] at hr'
    rcases row?_of_define hr' with ⟨-, rfl⟩ | ⟨-, old, hold, rfl⟩
    · exact absurd hm hdefinition
    · rcases Row.mentions_substitute hm with hm | hm
      · exact h.alone s old (row?_of_eraseRow hold).2 hm.2
      · exact absurd hm.2 hdefinition

theorem Carries.exchange (hsteady : Scalar.Steady t.epsilon) {u : Tableau α}
    (h : t.Carries objective anchor u)
    (hmove : u.nextMove objective = .exchange leaving entering) :
    t.Carries objective anchor (u.exchange leaving entering) := by
  obtain ⟨row, direction, hrow, -, hent, hleav⟩ := exists_of_nextMove hmove
  obtain ⟨r, hr, -, -⟩ := row?_of_leaving? hleav
  have hentering : ¬ u.isBasic entering = true := h.separated.not_isBasic_entering hrow hent
  refine ⟨h.separated.exchange hr, (epsilon_exchange ..).trans h.epsilon_eq, fun s hs => ?_,
    (size_exchange hr hentering).trans h.size_eq, fun hb => ?_⟩
  · rw [exchange_of_row? hr]
    exact mentions_define_exchange hsteady.neg_one hr (fun _ hv => hv) hentering
      (h.mentions s hs)
  · exact (h.anchored (isBasic_of_row? hrow)).exchange (h.epsilon_eq ▸ hsteady) h.separated hmove
      hb

/-- Retiring an artificial loses no other symbol and no row. -/
theorem Carries.retire (hunit : Scalar.negligible (-1 : α) = false) {u : Tableau α}
    (h : t.Carries objective anchor u) :
    (∀ s, s ≠ objective → t.mentions s = true → (u.retire objective).mentions s = true) ∧
      (u.retire objective).size = t.size := by
  rw [retire_eq, size_eraseColumn, ← h.size_eq]
  rcases vacate_cases u objective with ⟨-, hv⟩ | ⟨row, hrow, hsucc, hv⟩ |
    ⟨row, entering, hrow, hsucc, hv⟩
  · rw [hv]
    exact ⟨fun s hne hs => mentions_eraseColumn hne (h.mentions s hs), rfl⟩
  · -- the anchor is in the row
    obtain ⟨r, hr, hm⟩ := (h.anchored (isBasic_of_row? hrow)).held
    obtain rfl := Option.some.inj (hrow.symm.trans hr)
    exact absurd hm (not_mentions_of_successor? hsucc anchor)
  · have hentering : ¬ u.isBasic entering = true :=
      fun hb => h.separated.not_mentions hrow hb (successor?_spec hsucc).1
    rw [hv]
    refine ⟨fun s hne hs => mentions_eraseColumn hne ?_, ?_⟩
    · exact mentions_define_exchange hunit hrow (fun _ hv => hv) hentering (h.mentions s hs)
    · rw [size_define, size_eraseRow (isBasic_of_row? hrow)]
      exact fun hb => hentering (isBasic_eraseRow_iff.mp hb).2

/-! ## Absorbing and imposing -/

/-- Whether one tableau is another one with more symbols and rows. -/
structure Extends (t : Tableau α) (rows : Nat) (t' : Tableau α) : Prop where
  mentions : ∀ s, t.mentions s = true → t'.mentions s = true
  size_eq : t'.size = t.size + rows

/-- A row that mentions a symbol of its own is absorbed whole. -/
theorem WellFormed.extends_absorb (ht : t.WellFormed) (hsteady : Scalar.Steady t.epsilon)
    {row : Row α} (hrow : t.Fits row) (hanchor : row.mentions anchor = true)
    (hfresh : ¬ t.mentions anchor = true) {reason : Refusal α} {t' : Tableau α}
    (h : t.absorb reason row = .ok t') :
    t.Extends 1 t' ∧ ∀ s, row.mentions s = true → t'.mentions s = true := by
  obtain ⟨u, hu, -, rfl⟩ := exists_of_absorb h
  have hnew : ¬ t.isBasic (.artificial t.nextIndex) = true :=
    fun hb => ht.toOrderly.not_mentions_new rfl rfl (mentions_of_isBasic hb)
  have hstart : (t.charge row).Carries (.artificial t.nextIndex) anchor (t.charge row) := by
    refine ⟨(ht.charge hrow).orderly.separated, rfl, fun _ hs => hs, rfl, fun _ => ?_⟩
    refine ⟨fun hb => ?_, ⟨row, OrderedMap.get?_insert_self .., hanchor⟩, fun s r hr hm => ?_⟩
    · rcases OrderedMap.mem_insert_iff.mp hb with rfl | hb
      · exact nomatch (hrow _ hanchor).2.2
      · exact hfresh (mentions_of_isBasic hb)
    · rcases row?_of_insertRow hr with ⟨hs, -⟩ | ⟨-, hold⟩
      · exact hs
      · exact absurd (mentions_of_row hold hm) hfresh
  have hend : (t.charge row).Carries (.artificial t.nextIndex) anchor u :=
    (descend_induction (P := (t.charge row).Carries (.artificial t.nextIndex) anchor)
      (fun _ _ _ h hmove => Carries.exchange (t := t.charge row) hsteady h hmove) hstart hu).1
  obtain ⟨hmentions, hsize⟩ := hend.retire hsteady.neg_one
  refine ⟨⟨fun s hs => hmentions s ?_ (mentions_insertRow hnew (Or.inl hs)), ?_⟩,
    fun s hs => hmentions s ?_ (mentions_insertRow hnew (Or.inr hs))⟩
  · rintro rfl
    exact nomatch ht.settled _ hs
  · rw [hsize]
    exact size_insertRow hnew
  · rintro rfl
    exact nomatch (hrow _ hs).2.2

theorem negligible_markerSign {epsilon : α} (h : Scalar.Steady epsilon) (c : Comparison) :
    Scalar.negligible (markerSign c : α) = false := by
  cases c with
  | equal => exact h.one
  | atMost => exact h.one
  | atLeast => exact h.neg_one

/-- The row of a relation mentions its marker. -/
theorem marker_mem_rowOf (hsteady : Scalar.Steady t.epsilon) (r : Relation α) :
    (t.rowOf r).mentions (t.marker r.comparison) = true :=
  Row.mentions_orient.mpr (Row.mentions_setTerm_self (negligible_markerSign hsteady r.comparison))

/-- Imposing a relation adds a row and mentions the marker. -/
theorem WellFormed.extends_impose (ht : t.WellFormed) (hsteady : Scalar.Steady t.epsilon)
    {editable : VariableId → Bool} {r : Relation α} {marker : Symbol} {t' : Tableau α}
    (h : t.impose editable r = .ok (marker, t')) :
    t.Extends 1 t' ∧ t'.mentions marker = true := by
  have hmarker := marker_mem_rowOf hsteady r
  have hfresh : ¬ t.mentions (t.marker r.comparison) = true :=
    ht.toOrderly.not_mentions_new (marker_kind t _).1 (marker_index t _)
  obtain ⟨rfl, ⟨subject, hsub, rfl⟩ | ⟨-, -, -, rfl⟩ | ⟨-, -, habs⟩⟩ := impose_cases h
  · have hnew := (ht.subject_fresh hsub).1
    refine ⟨⟨fun s hs => ?_, ?_⟩, ?_⟩
    · exact mentions_define_fresh (t := { t with nextIndex := t.nextIndex + 1 }) hnew
        (Or.inr (Or.inl hs))
    · exact size_define (t := { t with nextIndex := t.nextIndex + 1 })
        fun hb => hnew (mentions_of_isBasic hb)
    · refine mentions_define_fresh (t := { t with nextIndex := t.nextIndex + 1 }) hnew ?_
      by_cases hs : t.marker r.comparison = subject
      · exact Or.inl hs
      · exact Or.inr (Or.inr (Row.mentions_isolate.mpr ⟨hs, hmarker⟩))
  · have hnew : ¬ t.isBasic (t.marker r.comparison) = true :=
      fun hb => hfresh (mentions_of_isBasic hb)
    exact ⟨⟨fun s hs => mentions_insertRow hnew (Or.inl hs), size_insertRow hnew⟩,
      mentions_of_isBasic (OrderedMap.mem_insert_iff.mpr (Or.inl rfl))⟩
  · obtain ⟨hextends, hrow⟩ :=
      ht.next.extends_absorb hsteady (ht.fits_rowOf r) hmarker hfresh habs
    exact ⟨⟨hextends.mentions, hextends.size_eq⟩, hrow _ hmarker⟩

/-! ## Repairing -/

/-- What a reduced row no longer mentions, the tableau does. -/
theorem mentions_reduce (t : Tableau α) {row : Row α} {u : Symbol} (hu : row.mentions u = true) :
    t.mentions u = true ∨ (t.reduce row).mentions u = true := by
  rw [reduce_eq]
  refine List.foldlRecOn (motive := fun r => t.mentions u = true ∨ r.mentions u = true) _
    t.replace (Or.inr hu) fun r hr s _ => ?_
  rcases hr with h | hr
  · exact Or.inl h
  simp only [replace]
  cases hs : t.row? s with
  | none => exact Or.inr hr
  | some definition =>
      by_cases hne : u = s
      · exact Or.inl (hne ▸ mentions_of_isBasic (isBasic_of_row? hs))
      · by_cases hd : definition.mentions u = true
        · exact Or.inl (mentions_of_row hs hd)
        · exact Or.inr (Row.mentions_substitute_of_not_mentions hne hr hd)

/-- Whether equations wait to be absorbed: each mentions its own symbol, which
    is neither in the tableau nor in the equations before. -/
structure Awaits (t : Tableau α) (pending : List (Symbol × Row α)) : Prop where
  known : ∀ a ∈ pending, ∀ u, a.2.mentions u = true →
    (u.isExternal = true ∨ u.index < t.nextIndex) ∧ u.isArtificial = false
  own : ∀ a ∈ pending, a.2.mentions a.1 = true
  absent : ∀ a ∈ pending, ¬ t.mentions a.1 = true
  apart : pending.Pairwise fun a b => ¬ a.2.mentions b.1 = true

/-- Absorbing the first of the equations that wait adds a row and no symbols but
    those of the equation, and leaves the others waiting. -/
theorem Awaits.absorb {own : Symbol} {row : Row α} {pending : List (Symbol × Row α)}
    (h : t.Awaits ((own, row) :: pending)) (ht : t.WellFormed)
    (hsteady : Scalar.Steady t.epsilon) {reason : Refusal α} {u : Tableau α}
    (habs : t.absorb reason (t.reduce row).orient = .ok u) :
    u.WellFormed ∧ u.epsilon = t.epsilon ∧ u.size = t.size + 1 ∧
      (∀ s, u.mentions s = true ↔ t.mentions s = true ∨ row.mentions s = true) ∧
      u.Awaits pending := by
  obtain ⟨hapart, hrest⟩ := List.pairwise_cons.mp h.apart
  have hmem : (own, row) ∈ (own, row) :: pending := List.mem_cons_self ..
  have hown : (t.reduce row).orient.mentions own = true :=
    Row.mentions_orient.mpr ((t.mentions_reduce (h.own _ hmem)).resolve_left (h.absent _ hmem))
  have hreduced : ∀ s, (t.reduce row).orient.mentions s = true →
      ¬ t.isBasic s = true ∧ (row.mentions s = true ∨ t.mentions s = true) :=
    fun s hs => mentions_of_reduce ht.separated (Row.mentions_orient.mp hs)
  have hfits := ht.fits_reduce (h.known _ hmem)
  obtain ⟨hu, hnext, heps⟩ := ht.absorb hfits habs
  obtain ⟨hextends, hrow⟩ := ht.extends_absorb hsteady hfits hown (h.absent _ hmem) habs
  -- the symbols are those of the tableau and of the row before it was reduced
  have hmentions : ∀ s, u.mentions s = true ↔ t.mentions s = true ∨ row.mentions s = true := by
    intro s
    constructor
    · intro hs
      rcases ht.tidy.mentions_of_absorb hfits.suits habs hs with hs | hs
      · exact Or.inl hs
      · exact (hreduced s hs).2.symm
    · rintro (hs | hs)
      · exact hextends.mentions s hs
      · rcases t.mentions_reduce hs with hs | hs
        · exact hextends.mentions s hs
        · exact hrow s (Row.mentions_orient.mpr hs)
  refine ⟨hu, heps, hextends.size_eq, hmentions, fun b hb s hs => ?_,
    fun b hb => h.own b (List.mem_cons_of_mem _ hb), fun b hb hs => ?_, hrest⟩
  · obtain ⟨hnum, hart⟩ := h.known b (List.mem_cons_of_mem _ hb) s hs
    exact ⟨hnum.imp_right fun h => Nat.lt_trans h hnext, hart⟩
  · rcases (hmentions b.1).mp hs with hs | hs
    · exact h.absent b (List.mem_cons_of_mem _ hb) hs
    · exact hapart b hb hs

/-- Absorbing what waits adds a row for each equation, and neither loses a
    symbol nor brings another one in. -/
theorem Awaits.absorbAll :
    ∀ {pending : List (Symbol × Row α)} {t t' : Tableau α}, t.WellFormed →
      Scalar.Steady t.epsilon → t.Awaits pending → absorbAll pending t = .ok t' →
      t'.size = t.size + pending.length ∧
        ∀ s, t'.mentions s = true ↔ t.mentions s = true ∨ ∃ a ∈ pending, a.2.mentions s = true := by
  intro pending
  induction pending with
  | nil =>
      intro t t' _ _ _ h
      obtain rfl := Except.ok.inj h
      refine ⟨rfl, fun s => ⟨Or.inl, fun h => h.resolve_right ?_⟩⟩
      rintro ⟨_, ha, _⟩
      exact List.not_mem_nil ha
  | cons a pending ih =>
      obtain ⟨own, row⟩ := a
      intro t t' ht hsteady hawaits h
      rw [absorbAll_cons] at h
      cases habs : t.absorb (.unrepairable own) (t.reduce row).orient with
      | error e =>
          rw [habs] at h
          cases h
      | ok u =>
          rw [habs] at h
          obtain ⟨hu, heps, hone, hmentions, hlater⟩ := hawaits.absorb ht hsteady habs
          obtain ⟨hsize, hiff⟩ := ih hu (heps ▸ hsteady) hlater h
          refine ⟨?_, fun s => ?_⟩
          · rw [hsize, hone, List.length_cons]
            omega
          · rw [hiff, hmentions, List.exists_mem_cons_iff, or_assoc]

/-- What is taken out to be repaired waits to be absorbed again. -/
theorem WellFormed.awaits_negativeRows (ht : t.WellFormed) (hsteady : Scalar.Steady t.epsilon) :
    Awaits { t with rows := t.rows.filter fun s row => !t.isNegative s row } t.negativeRows := by
  refine ⟨fun a ha s hs => ht.known_negativeRows ha hs, fun a ha => ?_,
    fun a ha => ht.separated.absent_negativeRows ha, ht.separated.apart_negativeRows⟩
  obtain ⟨row, -, -, heq⟩ := mem_negativeRows_iff.mp ha
  rw [heq]
  exact Row.mentions_setTerm_self hsteady.neg_one

/-- Between them, the rows left and the rows taken out mention what the tableau
    does. -/
theorem mentions_filter_or_negativeRows (hunit : Scalar.negligible (-1 : α) = false)
    {u : Symbol} :
    (Tableau.mentions { t with rows := t.rows.filter fun s row => !t.isNegative s row } u = true ∨
        ∃ a ∈ t.negativeRows, a.2.mentions u = true)
      ↔ t.mentions u = true := by
  constructor
  · rintro (h | ⟨a, ha, hu⟩)
    · exact mentions_of_filter h
    · exact mentions_of_negativeRows ha hu
  · intro h
    obtain ⟨s, row, hrow, hu⟩ : ∃ s row, t.row? s = some row ∧ (u = s ∨ row.mentions u = true) := by
      rcases mentions_iff.mp h with hb | ⟨s, row, hrow, hu⟩
      · obtain ⟨row, hrow⟩ := isBasic_iff.mp hb
        exact ⟨u, row, hrow, Or.inl rfl⟩
      · exact ⟨s, row, hrow, Or.inr hu⟩
    by_cases hneg : t.isNegative s row = true
    · refine Or.inr ⟨(s, row.setTerm s (-1)), mem_negativeRows_iff.mpr ⟨row, hrow, hneg, rfl⟩, ?_⟩
      by_cases hs : u = s
      · exact hs ▸ Row.mentions_setTerm_self hunit
      · exact (Row.mentions_setTerm_of_ne row _ hs).trans (hu.resolve_left hs)
    · have htest : (!t.isNegative s row) = true :=
        (Bool.not_eq_true' _).mpr (Bool.eq_false_iff.mpr hneg)
      have hkept : Tableau.row?
          { t with rows := t.rows.filter fun s row => !t.isNegative s row } s = some row :=
        row?_filter_iff.mpr ⟨hrow, htest⟩
      rcases hu with rfl | hu
      · exact Or.inl (mentions_of_isBasic (isBasic_of_row? hkept))
      · exact Or.inl (mentions_of_row hkept hu)

/-- Repairing keeps the number of rows, and neither loses a symbol nor brings
    another one in. -/
theorem WellFormed.extends_repair (ht : t.WellFormed) (hsteady : Scalar.Steady t.epsilon)
    {t' : Tableau α} (h : t.repair = .ok t') :
    t'.size = t.size ∧ ∀ s, t'.mentions s = true ↔ t.mentions s = true := by
  obtain ⟨hsize, hiff⟩ :=
    (ht.awaits_negativeRows hsteady).absorbAll (ht.filter _) hsteady h
  refine ⟨?_, fun s => (hiff s).trans (mentions_filter_or_negativeRows hsteady.neg_one)⟩
  rw [hsize, negativeRows, List.length_map, size, size, OrderedMap.size, OrderedMap.size,
    List.length_eq_length_filter_add (l := t.rows.entries) fun a => t.isNegative a.1 a.2]
  exact Nat.add_comm ..

end Tableau

end LinearConstraints
