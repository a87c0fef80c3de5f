import LinearConstraints.Proofs.PhaseOne.Search
import LinearConstraints.Tableau.Insertion
import LinearConstraints.Tableau.Removal
import LinearConstraints.Tableau.Repair

/-! # Well-formed tableaux

    Four facts about the symbols of a tableau hold between calls whatever the
    numbers are: basic symbols are mentioned in no row, made-up symbols have
    numbers below the next one to be given, rows of dummies hold only dummies,
    and no artificial occurs.  The first three hold within phase one as well,
    where just one artificial may occur, and that one is struck out at the
    end.

    The arguments only follow which symbols an operation can bring into a row.
    Dummies stay among themselves because they never enter during the search,
    and because both places that may solve a row for a dummy, the end of phase
    one and the withdrawal of an equation, do so in rows of dummies wherever
    other dummies are concerned.

    The numbers serve only to make new symbols that occur nowhere.  What holds
    without them is kept apart: a tidy tableau has no artificials, so the next
    one is new whatever its number. -/

namespace LinearConstraints.Tableau

variable {α : Type}

/-- What holds of the symbols of a tableau even within phase one. -/
structure Orderly (t : Tableau α) : Prop where
  /-- Basic symbols are mentioned in no row. -/
  separated : t.Separated
  /-- Made-up symbols have been numbered. -/
  numbered : ∀ s, t.mentions s = true → s.isExternal = true ∨ s.index < t.nextIndex
  /-- Rows of dummies hold only dummies. -/
  dummies : ∀ s row, t.row? s = some row → s.isDummy = true → row.onlyDummies = true

/-- What holds of the symbols of a tableau between calls. -/
structure WellFormed (t : Tableau α) : Prop extends t.Orderly where
  /-- No artificial occurs. -/
  settled : ∀ s, t.mentions s = true → s.isArtificial = false

/-- Whether rows of dummies hold only dummies. -/
def Layered (t : Tableau α) : Prop :=
  ∀ s row, t.row? s = some row → s.isDummy = true → row.onlyDummies = true

/-- What holds between calls, numbers aside. -/
structure Tidy (t : Tableau α) : Prop where
  /-- Basic symbols are mentioned in no row. -/
  separated : t.Separated
  /-- Rows of dummies hold only dummies. -/
  layered : t.Layered
  /-- No artificial occurs. -/
  settled : ∀ s, t.mentions s = true → s.isArtificial = false

/-- What holds within phase one, numbers aside: just one artificial may occur. -/
structure Hosts (t : Tableau α) (artificial : Symbol) : Prop where
  /-- Basic symbols are mentioned in no row. -/
  separated : t.Separated
  /-- Rows of dummies hold only dummies. -/
  layered : t.Layered
  /-- There is no other artificial. -/
  only : ∀ s, t.mentions s = true → s.isArtificial = true → s = artificial

/-- Whether a row can join a tidy tableau: its symbols are parametric and no
    artificials. -/
def Suits (t : Tableau α) (row : Row α) : Prop :=
  ∀ u, row.mentions u = true → ¬ t.isBasic u = true ∧ u.isArtificial = false

/-- Whether a row can join the tableau: its symbols are parametric, numbered
    and no artificials. -/
def Fits (t : Tableau α) (row : Row α) : Prop :=
  ∀ u, row.mentions u = true →
    ¬ t.isBasic u = true ∧ (u.isExternal = true ∨ u.index < t.nextIndex) ∧
      u.isArtificial = false

theorem WellFormed.tidy {t : Tableau α} (ht : t.WellFormed) : t.Tidy :=
  ⟨ht.separated, ht.dummies, ht.settled⟩

theorem Fits.suits {t : Tableau α} {row : Row α} (h : t.Fits row) : t.Suits row :=
  fun u hu => ⟨(h u hu).1, (h u hu).2.2⟩

theorem wellFormed_empty (epsilon : α) : (empty epsilon).WellFormed where
  separated _ _ _ h _ := nomatch h
  numbered _ h := nomatch h
  dummies _ _ h _ := nomatch h
  settled _ h := nomatch h

/-- A new symbol occurs nowhere yet. -/
theorem Orderly.not_mentions_new {t : Tableau α} (ht : t.Orderly) {s : Symbol}
    (hs : s.isExternal = false) (hi : s.index = t.nextIndex) : ¬ t.mentions s = true := by
  intro h
  rcases ht.numbered s h with h | h
  · rw [hs] at h
    exact nomatch h
  · omega

/-- Nor does an artificial, whatever its number. -/
theorem Tidy.not_mentions_artificial {t : Tableau α} (ht : t.Tidy) (i : Nat) :
    ¬ t.mentions (.artificial i) = true := by
  intro h
  exact nomatch ht.settled _ h

/-! ## Adding a row -/

theorem row?_of_insertRow {t : Tableau α} {s u : Symbol} {row r : Row α} {next : Nat}
    (h : Tableau.row? { t with rows := t.rows.insert s row, nextIndex := next } u = some r) :
    (u = s ∧ r = row) ∨ (u ≠ s ∧ t.row? u = some r) := by
  by_cases hu : u = s
  · subst hu
    have : some row = some r := (OrderedMap.get?_insert_self ..).symm.trans h
    exact Or.inl ⟨rfl, (Option.some.inj this).symm⟩
  · exact Or.inr ⟨hu, (OrderedMap.get?_insert_of_ne _ _ hu).symm.trans h⟩

theorem mentions_of_insertRow {t : Tableau α} {s u : Symbol} {row : Row α} {next : Nat}
    (h : Tableau.mentions { t with rows := t.rows.insert s row, nextIndex := next } u = true) :
    u = s ∨ t.mentions u = true ∨ row.mentions u = true := by
  rcases mentions_iff.mp h with h | ⟨v, r, hv, hu⟩
  · rcases OrderedMap.mem_insert_iff.mp h with h | h
    · exact Or.inl h
    · exact Or.inr (Or.inl (mentions_of_isBasic h))
  · rcases row?_of_insertRow hv with ⟨-, rfl⟩ | ⟨-, hold⟩
    · exact Or.inr (Or.inr hu)
    · exact Or.inr (Or.inl (mentions_of_row hold hu))

theorem Layered.insertRow {t : Tableau α} (ht : t.Layered) {s : Symbol} {row : Row α}
    {next : Nat} (hdummy : s.isDummy = true → row.onlyDummies = true) :
    Layered { t with rows := t.rows.insert s row, nextIndex := next } := by
  intro u r hr hu
  rcases row?_of_insertRow hr with ⟨rfl, rfl⟩ | ⟨-, hold⟩
  · exact hdummy hu
  · exact ht u r hold hu

/-- A row that fits can be given to a new symbol. -/
theorem Orderly.insertRow {t : Tableau α} (ht : t.Orderly) {s : Symbol} {row : Row α}
    {next : Nat} (hnext : t.nextIndex ≤ next) (hnum : s.index < next)
    (hfresh : ¬ t.mentions s = true) (hself : ¬ row.mentions s = true)
    (hbasic : ∀ u, row.mentions u = true → ¬ t.isBasic u = true)
    (hrow : ∀ u, row.mentions u = true → u.isExternal = true ∨ u.index < next)
    (hdummy : s.isDummy = true → row.onlyDummies = true) :
    Orderly { t with rows := t.rows.insert s row, nextIndex := next } where
  separated := ht.separated.insertRow hfresh hself hbasic
  numbered u hu := by
    rcases mentions_of_insertRow hu with rfl | h | h
    · exact Or.inr hnum
    · exact (ht.numbered u h).imp_right fun h => Nat.lt_of_lt_of_le h hnext
    · exact hrow u h
  dummies := Layered.insertRow ht.dummies hdummy

/-! ## Exchanging and retiring -/

/-- Dummy rows do not see what happens to symbols of other kinds. -/
theorem Layered.not_mentions_of_dummy {t : Tableau α} (ht : t.Layered) {s u : Symbol}
    {row : Row α} (hrow : t.row? s = some row) (hs : s.isDummy = true)
    (hu : u.isDummy = false) : ¬ row.mentions u = true := by
  intro h
  have := Row.onlyDummies_iff.mp (ht s row hrow hs) u h
  rw [hu] at this
  exact nomatch this

variable [Scalar α]

theorem Layered.exchange {t : Tableau α} (ht : t.Layered) {leaving entering : Symbol}
    {row : Row α} (hrow : t.row? leaving = some row) (hdummy : entering.isDummy = false) :
    (t.exchange leaving entering).Layered := by
  intro u r hr hu
  rw [exchange_of_row? hrow] at hr
  rcases row?_of_define hr with ⟨rfl, -⟩ | ⟨-, old, hold, rfl⟩
  · rw [hdummy] at hu
    exact nomatch hu
  · have hold := (row?_of_eraseRow hold).2
    rw [Row.substitute_of_not_mentions (ht.not_mentions_of_dummy hold hu hdummy)]
    exact ht u old hold hu

theorem Hosts.exchange {t : Tableau α} {artificial : Symbol} (ht : t.Hosts artificial)
    {leaving entering : Symbol} {row : Row α} (hrow : t.row? leaving = some row)
    (hent : t.mentions entering = true) (hdummy : entering.isDummy = false) :
    (t.exchange leaving entering).Hosts artificial where
  separated := ht.separated.exchange hrow
  layered := ht.layered.exchange hrow hdummy
  only u hu ha := by
    rcases mentions_of_exchange hrow hu with rfl | h
    · exact ht.only u hent ha
    · exact ht.only u h ha

theorem Orderly.exchange {t : Tableau α} (ht : t.Orderly) {leaving entering : Symbol}
    {row : Row α} (hrow : t.row? leaving = some row) (hent : t.mentions entering = true)
    (hdummy : entering.isDummy = false) : (t.exchange leaving entering).Orderly where
  separated := ht.separated.exchange hrow
  numbered u hu := by
    rw [nextIndex_exchange]
    rcases mentions_of_exchange hrow hu with rfl | h
    · exact ht.numbered u hent
    · exact ht.numbered u h
  dummies := Layered.exchange ht.dummies hrow hdummy

omit [Scalar α] in
theorem successor?_spec {row : Row α} {entering : Symbol}
    (h : successor? row = some entering) :
    row.mentions entering = true ∧ (entering.isDummy = true → row.onlyDummies = true) := by
  unfold successor? at h
  rcases Option.or_eq_some_iff.mp h with hfind | ⟨hnone, hhead⟩
  · refine ⟨OrderedMap.mem_keys_iff.mp (List.mem_of_find?_eq_some hfind), ?_⟩
    intro hd
    have := List.find?_some hfind
    rw [Symbol.isPivotable, hd] at this
    exact nomatch this
  · refine ⟨OrderedMap.mem_keys_iff.mp (List.mem_of_head? hhead), ?_⟩
    intro _
    refine Row.onlyDummies_iff.mpr fun u hu => ?_
    have := List.find?_eq_none.mp hnone u (OrderedMap.mem_keys_iff.mpr hu)
    simpa [Symbol.isPivotable] using this

omit [Scalar α] in
/-- Only a row without cells has no successor. -/
theorem not_mentions_of_successor? {row : Row α} (h : successor? row = none) (s : Symbol) :
    ¬ row.mentions s = true := by
  intro hs
  have hkeys : row.terms.keys = [] := List.head?_eq_none_iff.mp (Option.or_eq_none_iff.mp h).2
  have hmem := OrderedMap.mem_keys_iff.mpr hs
  rw [hkeys] at hmem
  exact nomatch hmem

/-- The tableau of `retire` before the column of the artificial is struck out. -/
def vacate (t : Tableau α) (artificial : Symbol) : Tableau α :=
  match t.row? artificial with
  | none => t
  | some row =>
      match successor? row with
      | none => t.eraseRow artificial
      | some entering =>
          (t.eraseRow artificial).define entering
            (Row.exchange { row with constant := 0 } artificial entering)

theorem retire_eq (t : Tableau α) (artificial : Symbol) :
    t.retire artificial = (t.vacate artificial).eraseColumn artificial := rfl

/-- The ways an artificial gives its row up. -/
theorem vacate_cases (t : Tableau α) (artificial : Symbol) :
    (t.row? artificial = none ∧ t.vacate artificial = t) ∨
      (∃ row, t.row? artificial = some row ∧ successor? row = none ∧
        t.vacate artificial = t.eraseRow artificial) ∨
      ∃ row entering, t.row? artificial = some row ∧ successor? row = some entering ∧
        t.vacate artificial = (t.eraseRow artificial).define entering
          (Row.exchange { row with constant := 0 } artificial entering) := by
  simp only [vacate]
  cases hrow : t.row? artificial with
  | none => exact Or.inl ⟨rfl, rfl⟩
  | some row =>
      cases hsucc : successor? row with
      | none => exact Or.inr (Or.inl ⟨row, rfl, hsucc, by simp [hsucc]⟩)
      | some entering => exact Or.inr (Or.inr ⟨row, entering, rfl, hsucc, by simp [hsucc]⟩)

@[simp] theorem epsilon_retire (t : Tableau α) (artificial : Symbol) :
    (t.retire artificial).epsilon = t.epsilon := by
  rw [retire_eq]
  rcases vacate_cases t artificial with ⟨-, h⟩ | ⟨_, -, -, h⟩ | ⟨_, _, -, -, h⟩ <;>
    · rw [h]
      rfl

@[simp] theorem nextIndex_retire (t : Tableau α) (artificial : Symbol) :
    (t.retire artificial).nextIndex = t.nextIndex := by
  rw [retire_eq]
  rcases vacate_cases t artificial with ⟨-, h⟩ | ⟨_, -, -, h⟩ | ⟨_, _, -, -, h⟩ <;>
    · rw [h]
      rfl

section Vacate

variable {t : Tableau α} {artificial : Symbol}

omit [Scalar α] in
/-- A symbol of the artificial's row is another one. -/
private theorem ne_of_mentions_row (ht : t.Separated) {row : Row α} {u : Symbol}
    (hrow : t.row? artificial = some row) (hu : row.mentions u = true) : u ≠ artificial := by
  rintro rfl
  exact ht.not_mentions hrow (isBasic_of_row? hrow) hu

theorem separated_vacate (ht : t.Separated) : (t.vacate artificial).Separated := by
  rcases vacate_cases t artificial with ⟨-, h⟩ | ⟨_, -, -, h⟩ | ⟨row, entering, hrow, -, h⟩
  · rw [h]
    exact ht
  · rw [h]
    exact ht.eraseRow artificial
  · rw [h]
    refine (ht.eraseRow artificial).define ?_ ?_
    · intro hm
      exact (Row.mentions_exchange hm).1 rfl
    · intro u hu hb
      obtain ⟨hne, hb⟩ := isBasic_eraseRow_iff.mp hb
      rcases (Row.mentions_exchange hu).2 with rfl | hm
      · exact hne rfl
      · exact ht.not_mentions hrow hb hm

theorem mentions_of_vacate {u : Symbol}
    (hu : (t.vacate artificial).mentions u = true) : t.mentions u = true := by
  rcases vacate_cases t artificial with ⟨-, h⟩ | ⟨_, -, -, h⟩ | ⟨row, entering, hrow, hsucc, h⟩
  · rwa [h] at hu
  · rw [h] at hu
    exact mentions_of_eraseRow hu
  · rw [h] at hu
    rcases mentions_of_define hu with rfl | hu | hu
    · exact mentions_of_row hrow (successor?_spec hsucc).1
    · exact mentions_of_eraseRow hu
    · rcases (Row.mentions_exchange hu).2 with rfl | hm
      · exact mentions_of_isBasic (isBasic_of_row? hrow)
      · exact mentions_of_row hrow hm

theorem not_isBasic_vacate (ht : t.Separated) :
    ¬ (t.vacate artificial).isBasic artificial = true := by
  intro hb
  rcases vacate_cases t artificial with ⟨hnone, h⟩ | ⟨_, -, -, h⟩ | ⟨row, entering, hrow, hsucc, h⟩
  · rw [h] at hb
    exact not_isBasic_of_row? hnone hb
  · rw [h] at hb
    exact (isBasic_eraseRow_iff.mp hb).1 rfl
  · rw [h] at hb
    rcases isBasic_define_iff.mp hb with heq | hb
    · exact ne_of_mentions_row ht hrow (successor?_spec hsucc).1 heq.symm
    · exact (isBasic_eraseRow_iff.mp hb).1 rfl

/-- A retired artificial is gone, and no other symbol has come. -/
theorem mentions_of_retire (ht : t.Separated) {u : Symbol}
    (hu : (t.retire artificial).mentions u = true) : u ≠ artificial ∧ t.mentions u = true := by
  rw [retire_eq] at hu
  rcases mentions_of_eraseColumn hu with hb | ⟨hne, hm⟩
  · refine ⟨?_, mentions_of_vacate (mentions_of_isBasic hb)⟩
    rintro rfl
    exact not_isBasic_vacate ht hb
  · exact ⟨hne, mentions_of_vacate hm⟩

/-- Before the column goes, rows of dummies hold only dummies and the
    artificial. -/
theorem dummies_vacate (ht : t.Layered) {s : Symbol} {row : Row α}
    (hrow : (t.vacate artificial).row? s = some row) (hs : s.isDummy = true) {u : Symbol}
    (hu : row.mentions u = true) : u.isDummy = true ∨ u = artificial := by
  rcases vacate_cases t artificial with ⟨-, h⟩ | ⟨_, -, -, h⟩ | ⟨art, entering, hart, hsucc, h⟩
  · rw [h] at hrow
    exact Or.inl (Row.onlyDummies_iff.mp (ht s row hrow hs) u hu)
  · rw [h] at hrow
    exact Or.inl (Row.onlyDummies_iff.mp (ht s row (row?_of_eraseRow hrow).2 hs) u hu)
  · rw [h] at hrow
    -- solved for a dummy, the row of the artificial was one of dummies
    have hnew : entering.isDummy = true →
        (Row.exchange { art with constant := 0 } artificial entering).mentions u = true →
        u.isDummy = true ∨ u = artificial := by
      intro hent hm
      rcases (Row.mentions_exchange hm).2 with rfl | hm
      · exact Or.inr rfl
      · exact Or.inl (Row.onlyDummies_iff.mp ((successor?_spec hsucc).2 hent) u hm)
    rcases row?_of_define hrow with ⟨rfl, rfl⟩ | ⟨-, old, hold, rfl⟩
    · exact hnew hs hu
    · have hold := Row.onlyDummies_iff.mp (ht s old (row?_of_eraseRow hold).2 hs)
      rcases Row.mentions_substitute hu with hm | ⟨hent, hm⟩
      · exact Or.inl (hold u hm.2)
      · exact hnew (hold entering hent) hm

end Vacate

/-- Once its only artificial is retired, a tableau is tidy. -/
theorem Hosts.retire {t : Tableau α} {artificial : Symbol} (ht : t.Hosts artificial) :
    (t.retire artificial).Tidy where
  separated := (separated_vacate ht.separated).eraseColumn artificial
  layered := by
    intro s row hrow hs
    rw [retire_eq, row?_eraseColumn] at hrow
    obtain ⟨old, hold, rfl⟩ := Option.map_eq_some_iff.mp hrow
    refine Row.onlyDummies_iff.mpr fun u hu => ?_
    obtain ⟨hne, hm⟩ := Row.mentions_eraseTerm.mp hu
    exact (dummies_vacate ht.layered hold hs hm).resolve_right hne
  settled := by
    intro u hu
    obtain ⟨hne, hm⟩ := mentions_of_retire ht.separated hu
    rw [Bool.eq_false_iff]
    intro ha
    exact hne (ht.only u hm ha)

/-- Once its only artificial is retired, a tableau is well formed. -/
theorem Orderly.retire {t : Tableau α} (ht : t.Orderly) {artificial : Symbol}
    (honly : ∀ s, t.mentions s = true → s.isArtificial = true → s = artificial) :
    (t.retire artificial).WellFormed := by
  have hosts : t.Hosts artificial := ⟨ht.separated, ht.dummies, honly⟩
  refine ⟨⟨hosts.retire.separated, fun u hu => ?_, hosts.retire.layered⟩, hosts.retire.settled⟩
  rw [nextIndex_retire]
  exact ht.numbered u (mentions_of_retire ht.separated hu).2

end LinearConstraints.Tableau
