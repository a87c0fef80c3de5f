import LinearConstraints.Proofs.Form.Mentions
import LinearConstraints.Tableau.Basic

/-! # The rows of a changed tableau

    Every change of a tableau is described by what it does to `row?`, so that
    later proofs look rows up instead of opening the maps.  With it comes what
    a change does to the symbols a tableau mentions. -/

namespace LinearConstraints.Tableau

variable {α : Type}

/-! ## Reading -/

theorem isBasic_iff {t : Tableau α} {s : Symbol} :
    t.isBasic s = true ↔ ∃ row, t.row? s = some row :=
  OrderedMap.contains_iff

theorem isBasic_of_row? {t : Tableau α} {s : Symbol} {row : Row α} (h : t.row? s = some row) :
    t.isBasic s = true :=
  isBasic_iff.mpr ⟨row, h⟩

theorem row?_eq_none_of_not_isBasic {t : Tableau α} {s : Symbol} (h : ¬ t.isBasic s = true) :
    t.row? s = none := by
  cases hs : t.row? s with
  | none => rfl
  | some row => exact absurd (isBasic_of_row? hs) h

/-- A symbol without a row is not basic. -/
theorem not_isBasic_of_row? {t : Tableau α} {s : Symbol} (h : t.row? s = none) :
    ¬ t.isBasic s = true := by
  intro hb
  obtain ⟨row, hrow⟩ := isBasic_iff.mp hb
  rw [h] at hrow
  exact nomatch hrow

theorem mentions_iff {t : Tableau α} {s : Symbol} :
    t.mentions s = true ↔
      t.isBasic s = true ∨ ∃ u row, t.row? u = some row ∧ row.mentions s = true := by
  simp only [mentions]
  rw [Bool.or_eq_true, OrderedMap.any_iff]
  exact Iff.rfl

theorem mentions_of_isBasic {t : Tableau α} {s : Symbol} (h : t.isBasic s = true) :
    t.mentions s = true :=
  mentions_iff.mpr (Or.inl h)

theorem mentions_of_row {t : Tableau α} {s u : Symbol} {row : Row α} (hu : t.row? u = some row)
    (hs : row.mentions s = true) : t.mentions s = true :=
  mentions_iff.mpr (Or.inr ⟨u, row, hu, hs⟩)

/-- A separated tableau mentions no basic symbol in a row. -/
theorem Separated.not_mentions {t : Tableau α} (h : t.Separated) {s u : Symbol} {row : Row α}
    (hs : t.row? s = some row) (hu : t.isBasic u = true) : ¬ row.mentions u = true := by
  intro hm
  have := h s row u hs hm
  rw [hu] at this
  exact nomatch this

/-- Whether a tableau is separated can be told from its entries. -/
theorem separated_iff {t : Tableau α} :
    t.Separated ↔ (t.rows.all fun _ row => row.terms.keys.all fun u => !t.isBasic u) = true := by
  rw [OrderedMap.all_iff]
  constructor
  · intro h s row hrow
    refine List.all_eq_true.mpr fun u hu => ?_
    rw [h s row u hrow (OrderedMap.mem_keys_iff.mp hu)]
    rfl
  · intro h s row u hrow hu
    have := List.all_eq_true.mp (h s row hrow) u (OrderedMap.mem_keys_iff.mpr hu)
    rwa [Bool.not_eq_true'] at this

instance (t : Tableau α) : Decidable t.Separated := decidable_of_iff _ separated_iff.symm

/-! ## Taking rows and columns away -/

theorem row?_eraseRow_self (t : Tableau α) (s : Symbol) : (t.eraseRow s).row? s = none :=
  OrderedMap.get?_erase_self ..

theorem row?_eraseRow_of_ne (t : Tableau α) {s u : Symbol} (h : u ≠ s) :
    (t.eraseRow s).row? u = t.row? u :=
  OrderedMap.get?_erase_of_ne _ h

/-- A row that is left was there before. -/
theorem row?_of_eraseRow {t : Tableau α} {s u : Symbol} {row : Row α}
    (h : (t.eraseRow s).row? u = some row) : u ≠ s ∧ t.row? u = some row := by
  have hne : u ≠ s := by
    rintro rfl
    rw [row?_eraseRow_self] at h
    exact nomatch h
  exact ⟨hne, by rwa [row?_eraseRow_of_ne t hne] at h⟩

theorem isBasic_eraseRow_iff {t : Tableau α} {s u : Symbol} :
    (t.eraseRow s).isBasic u = true ↔ u ≠ s ∧ t.isBasic u = true :=
  OrderedMap.mem_erase_iff

theorem size_eraseRow {t : Tableau α} {s : Symbol} (h : t.isBasic s = true) :
    (t.eraseRow s).size + 1 = t.size :=
  OrderedMap.size_erase h

theorem mentions_of_eraseRow {t : Tableau α} {s u : Symbol}
    (h : (t.eraseRow s).mentions u = true) : t.mentions u = true := by
  rcases mentions_iff.mp h with h | ⟨v, row, hv, hu⟩
  · exact mentions_of_isBasic (isBasic_eraseRow_iff.mp h).2
  · exact mentions_of_row (row?_of_eraseRow hv).2 hu

theorem Separated.eraseRow {t : Tableau α} (ht : t.Separated) (s : Symbol) :
    (t.eraseRow s).Separated := by
  intro v row u hv hu
  rw [Bool.eq_false_iff]
  intro hb
  exact ht.not_mentions (row?_of_eraseRow hv).2 (isBasic_eraseRow_iff.mp hb).2 hu

theorem row?_eraseColumn (t : Tableau α) (s u : Symbol) :
    (t.eraseColumn s).row? u = (t.row? u).map fun row => row.eraseTerm s :=
  OrderedMap.get?_mapValues ..

@[simp] theorem size_eraseColumn (t : Tableau α) (s : Symbol) :
    (t.eraseColumn s).size = t.size :=
  OrderedMap.size_mapValues ..

theorem mentions_of_eraseColumn {t : Tableau α} {s u : Symbol}
    (h : (t.eraseColumn s).mentions u = true) :
    t.isBasic u = true ∨ (u ≠ s ∧ t.mentions u = true) := by
  rcases mentions_iff.mp h with h | ⟨v, row, hv, hu⟩
  · exact Or.inl (OrderedMap.mem_mapValues_iff.mp h)
  · rw [row?_eraseColumn] at hv
    obtain ⟨old, hold, rfl⟩ := Option.map_eq_some_iff.mp hv
    obtain ⟨hne, hm⟩ := Row.mentions_eraseTerm.mp hu
    exact Or.inr ⟨hne, mentions_of_row hold hm⟩

theorem Separated.eraseColumn {t : Tableau α} (ht : t.Separated) (s : Symbol) :
    (t.eraseColumn s).Separated := by
  intro v row u hv hu
  rw [Bool.eq_false_iff]
  intro hb
  rw [row?_eraseColumn] at hv
  obtain ⟨old, hold, rfl⟩ := Option.map_eq_some_iff.mp hv
  exact ht.not_mentions hold (OrderedMap.mem_mapValues_iff.mp hb)
    (Row.mentions_eraseTerm.mp hu).2

/-! ## Adding a row for a new symbol -/

/-- A row for a symbol that occurs nowhere can be added without a change to
    the others. -/
theorem Separated.insertRow {t : Tableau α} (ht : t.Separated) {s : Symbol} {row : Row α}
    {next : Nat} (hfresh : ¬ t.mentions s = true) (hself : ¬ row.mentions s = true)
    (hbasic : ∀ u, row.mentions u = true → ¬ t.isBasic u = true) :
    Separated { t with rows := t.rows.insert s row, nextIndex := next } := by
  intro v r u hv hu
  rw [Bool.eq_false_iff]
  intro hb
  have hcase : u = s ∨ t.isBasic u = true := OrderedMap.mem_insert_iff.mp hb
  clear hb
  by_cases hs : v = s
  · subst hs
    have hr : r = row := by
      have : some row = some r := (OrderedMap.get?_insert_self ..).symm.trans hv
      exact (Option.some.inj this).symm
    subst hr
    rcases hcase with rfl | hb
    · exact hself hu
    · exact hbasic u hu hb
  · have hold : t.row? v = some r := (OrderedMap.get?_insert_of_ne _ _ hs).symm.trans hv
    rcases hcase with rfl | hb
    · exact hfresh (mentions_of_row hold hu)
    · exact ht.not_mentions hold hb hu

theorem size_insertRow {t : Tableau α} {s : Symbol} {row : Row α} {next : Nat}
    (h : ¬ t.isBasic s = true) :
    size { t with rows := t.rows.insert s row, nextIndex := next } = t.size + 1 :=
  OrderedMap.size_insert row h

/-! ## Defining a symbol -/

variable [Scalar α]

/-- A row of a separated tableau depends on parametric symbols only. -/
theorem Separated.evaluate_congr {t : Tableau α} (ht : t.Separated) {value value' : Symbol → α}
    (h : ∀ u, ¬ t.isBasic u = true → value u = value' u) {s : Symbol} {row : Row α}
    (hrow : t.row? s = some row) : row.evaluate value = row.evaluate value' :=
  LinearForm.evaluate_congr fun u hu => h u fun hb => ht.not_mentions hrow hb hu

theorem valueOf_of_row? {t : Tableau α} {s : Symbol} {row : Row α} (h : t.row? s = some row) :
    t.valueOf s = row.constant := by
  simp only [valueOf]
  rw [h]

theorem valueOf_of_not_isBasic {t : Tableau α} {s : Symbol} (h : ¬ t.isBasic s = true) :
    t.valueOf s = 0 := by
  simp only [valueOf]
  rw [row?_eq_none_of_not_isBasic h]

/-- A new row gives its symbol its constant and leaves the other values alone. -/
theorem valueOf_insertRow (t : Tableau α) (s u : Symbol) (row : Row α) (next : Nat) :
    valueOf { t with rows := t.rows.insert s row, nextIndex := next } u
      = if u = s then row.constant else t.valueOf u := by
  split
  · next h =>
      subst h
      exact valueOf_of_row? (OrderedMap.get?_insert_self ..)
  · next h =>
      simp only [valueOf, row?]
      rw [OrderedMap.get?_insert_of_ne _ _ h]

theorem row?_substitute (t : Tableau α) (s u : Symbol) (definition : Row α) :
    (t.substitute s definition).row? u
      = (t.row? u).map fun row => row.substitute s definition :=
  OrderedMap.get?_mapValues ..

@[simp] theorem size_substitute (t : Tableau α) (s : Symbol) (definition : Row α) :
    (t.substitute s definition).size = t.size :=
  OrderedMap.size_mapValues ..

theorem mentions_of_substitute {t : Tableau α} {s u : Symbol} {definition : Row α}
    (h : (t.substitute s definition).mentions u = true) :
    t.mentions u = true ∨ definition.mentions u = true := by
  rcases mentions_iff.mp h with h | ⟨v, row, hv, hu⟩
  · exact Or.inl (mentions_of_isBasic (OrderedMap.mem_mapValues_iff.mp h))
  · rw [row?_substitute] at hv
    obtain ⟨old, hold, rfl⟩ := Option.map_eq_some_iff.mp hv
    rcases Row.mentions_substitute hu with h | h
    · exact Or.inl (mentions_of_row hold h.2)
    · exact Or.inr h.2

theorem row?_define_self (t : Tableau α) (s : Symbol) (definition : Row α) :
    (t.define s definition).row? s = some definition :=
  OrderedMap.get?_insert_self ..

theorem row?_define_of_ne (t : Tableau α) {s u : Symbol} (definition : Row α) (h : u ≠ s) :
    (t.define s definition).row? u
      = (t.row? u).map fun row => row.substitute s definition :=
  (OrderedMap.get?_insert_of_ne _ _ h).trans (row?_substitute t s u definition)

/-- The rows of a tableau with one more definition: the definition itself and
    the old rows with the symbol replaced. -/
theorem row?_of_define {t : Tableau α} {s u : Symbol} {definition row : Row α}
    (h : (t.define s definition).row? u = some row) :
    (u = s ∧ row = definition) ∨
      (u ≠ s ∧ ∃ old, t.row? u = some old ∧ row = old.substitute s definition) := by
  by_cases hu : u = s
  · subst hu
    rw [row?_define_self, Option.some.injEq] at h
    exact Or.inl ⟨rfl, h.symm⟩
  · rw [row?_define_of_ne t definition hu] at h
    obtain ⟨old, hold, heq⟩ := Option.map_eq_some_iff.mp h
    exact Or.inr ⟨hu, old, hold, heq.symm⟩

theorem isBasic_define_iff {t : Tableau α} {s u : Symbol} {definition : Row α} :
    (t.define s definition).isBasic u = true ↔ u = s ∨ t.isBasic u = true := by
  refine OrderedMap.mem_insert_iff.trans ?_
  refine or_congr_right ?_
  exact OrderedMap.mem_mapValues_iff

theorem size_define {t : Tableau α} {s : Symbol} {definition : Row α}
    (h : ¬ t.isBasic s = true) : (t.define s definition).size = t.size + 1 := by
  refine (OrderedMap.size_insert definition ?_).trans ?_
  · intro hs
    exact h (OrderedMap.mem_mapValues_iff.mp hs)
  · exact congrArg (· + 1) (size_substitute t s definition)

/-- Taking a new row away again leaves what it was put into. -/
theorem eraseRow_define {t : Tableau α} {s : Symbol} (definition : Row α)
    (h : ¬ t.isBasic s = true) :
    (t.define s definition).eraseRow s = t.substitute s definition := by
  have hrows : ((t.define s definition).eraseRow s).rows = (t.substitute s definition).rows := by
    refine OrderedMap.ext fun u => ?_
    by_cases hu : u = s
    · subst hu
      refine (OrderedMap.get?_erase_self ..).trans (Eq.symm ?_)
      refine (row?_substitute t u u definition).trans ?_
      rw [row?_eq_none_of_not_isBasic h]
      rfl
    · exact (OrderedMap.get?_erase_of_ne _ hu).trans (OrderedMap.get?_insert_of_ne _ _ hu)
  exact congrArg (fun rows => (⟨rows, t.nextIndex, t.epsilon⟩ : Tableau α)) hrows

theorem mentions_of_define {t : Tableau α} {s u : Symbol} {definition : Row α}
    (h : (t.define s definition).mentions u = true) :
    u = s ∨ t.mentions u = true ∨ definition.mentions u = true := by
  rcases mentions_iff.mp h with h | ⟨v, row, hv, hu⟩
  · rcases isBasic_define_iff.mp h with h | h
    · exact Or.inl h
    · exact Or.inr (Or.inl (mentions_of_isBasic h))
  · rcases row?_of_define hv with ⟨-, rfl⟩ | ⟨-, old, hold, rfl⟩
    · exact Or.inr (Or.inr hu)
    · rcases Row.mentions_substitute hu with h | h
      · exact Or.inr (Or.inl (mentions_of_row hold h.2))
      · exact Or.inr (Or.inr h.2)

/-- A definition over parametric symbols that leaves its own symbol out can be
    added. -/
theorem Separated.define {t : Tableau α} (ht : t.Separated) {s : Symbol} {definition : Row α}
    (hself : ¬ definition.mentions s = true)
    (hbasic : ∀ u, definition.mentions u = true → ¬ t.isBasic u = true) :
    (t.define s definition).Separated := by
  intro v row u hv hu
  rw [Bool.eq_false_iff]
  intro hb
  -- a symbol of the new rows is neither the defined one nor an old basic one
  have hfresh : u ≠ s ∧ ¬ t.isBasic u = true := by
    rcases row?_of_define hv with ⟨-, rfl⟩ | ⟨-, old, hold, rfl⟩
    · refine ⟨?_, hbasic u hu⟩
      rintro rfl
      exact hself hu
    · rcases Row.mentions_substitute hu with h | h
      · exact ⟨h.1, fun hb => ht.not_mentions hold hb h.2⟩
      · refine ⟨?_, hbasic u h.2⟩
        rintro rfl
        exact hself h.2
  rcases isBasic_define_iff.mp hb with h | h
  · exact hfresh.1 h
  · exact hfresh.2 h

/-! ## Exchanging two symbols -/

theorem exchange_of_row? {t : Tableau α} {leaving entering : Symbol} {row : Row α}
    (h : t.row? leaving = some row) :
    t.exchange leaving entering
      = (t.eraseRow leaving).define entering (row.exchange leaving entering) := by
  simp only [exchange]
  rw [h]

theorem row?_exchange_self {t : Tableau α} {leaving entering : Symbol} {row : Row α}
    (h : t.row? leaving = some row) :
    (t.exchange leaving entering).row? entering = some (row.exchange leaving entering) := by
  rw [exchange_of_row? h, row?_define_self]

theorem row?_exchange_of_ne {t : Tableau α} {leaving entering u : Symbol} {row : Row α}
    (h : t.row? leaving = some row) (he : u ≠ entering) (hl : u ≠ leaving) :
    (t.exchange leaving entering).row? u
      = (t.row? u).map fun r => r.substitute entering (row.exchange leaving entering) := by
  rw [exchange_of_row? h, row?_define_of_ne _ _ he, row?_eraseRow_of_ne t hl]

theorem isBasic_exchange_iff {t : Tableau α} {leaving entering u : Symbol} {row : Row α}
    (h : t.row? leaving = some row) :
    (t.exchange leaving entering).isBasic u = true
      ↔ u = entering ∨ (u ≠ leaving ∧ t.isBasic u = true) := by
  rw [exchange_of_row? h, isBasic_define_iff, isBasic_eraseRow_iff]

/-- An exchange keeps the number of rows. -/
theorem size_exchange {t : Tableau α} {leaving entering : Symbol} {row : Row α}
    (hrow : t.row? leaving = some row) (hent : ¬ t.isBasic entering = true) :
    (t.exchange leaving entering).size = t.size := by
  rw [exchange_of_row? hrow, size_define, size_eraseRow (isBasic_of_row? hrow)]
  intro hb
  exact hent (isBasic_eraseRow_iff.mp hb).2

theorem mentions_of_exchange {t : Tableau α} {leaving entering u : Symbol} {row : Row α}
    (hrow : t.row? leaving = some row) (h : (t.exchange leaving entering).mentions u = true) :
    u = entering ∨ t.mentions u = true := by
  rw [exchange_of_row? hrow] at h
  rcases mentions_of_define h with h | h | h
  · exact Or.inl h
  · exact Or.inr (mentions_of_eraseRow h)
  · rcases (Row.mentions_exchange h).2 with rfl | h
    · exact Or.inr (mentions_of_isBasic (isBasic_of_row? hrow))
    · exact Or.inr (mentions_of_row hrow h)

theorem Separated.exchange {t : Tableau α} (ht : t.Separated) {leaving entering : Symbol}
    {row : Row α} (hrow : t.row? leaving = some row) :
    (t.exchange leaving entering).Separated := by
  rw [exchange_of_row? hrow]
  refine (ht.eraseRow leaving).define ?_ ?_
  · intro h
    exact (Row.mentions_exchange h).1 rfl
  · intro u hu hb
    obtain ⟨hne, hb⟩ := isBasic_eraseRow_iff.mp hb
    rcases (Row.mentions_exchange hu).2 with rfl | h
    · exact hne rfl
    · exact ht.not_mentions hrow hb h

end LinearConstraints.Tableau
