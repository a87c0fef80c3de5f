import LinearConstraints.Proofs.Tableau.InPlace
import LinearConstraints.Proofs.Tableau.Rows

/-! # The moves of phase one

    What is known of a move without any law of arithmetic: where the entering
    and the leaving symbol come from, and of what kind they are. -/

namespace LinearConstraints

variable {α : Type} [Scalar α]

theorem foldl_least_mem {ι : Type} :
    ∀ (rest : List (ι × α)) (first : ι × α),
      rest.foldl (fun best a => if a.2 < best.2 then a else best) first ∈ first :: rest := by
  intro rest
  induction rest with
  | nil => intro first; exact List.mem_cons_self ..
  | cons a rest ih =>
      intro first
      rw [List.foldl_cons]
      split
      · exact List.mem_cons_of_mem _ (ih a)
      · rcases List.mem_cons.mp (ih first) with h | h
        · rw [h]
          exact List.mem_cons_self ..
        · exact List.mem_cons_of_mem _ (List.mem_cons_of_mem _ h)

/-- The least key is one of the list. -/
theorem mem_of_leastBy? {ι : Type} {l : List (ι × α)} {i : ι} (h : leastBy? l = some i) :
    ∃ x, (i, x) ∈ l := by
  cases l with
  | nil => exact nomatch h
  | cons first rest =>
      have hi := Option.some.inj h
      refine ⟨(rest.foldl (fun best a => if a.2 < best.2 then a else best) first).2, ?_⟩
      rw [← hi]
      exact foldl_least_mem rest first

theorem leastBy?_eq_none_iff {ι : Type} {l : List (ι × α)} : leastBy? l = none ↔ l = [] := by
  cases l with
  | nil => exact ⟨fun _ => rfl, fun _ => rfl⟩
  | cons first rest => exact ⟨fun h => (nomatch h), fun h => (nomatch h)⟩

namespace Tableau

/-! ## The symbols of a move -/

/-- Whether moving a symbol with the given coefficient lowers a row, and the
    way it then moves. -/
def Lowers (t : Tableau α) (s : Symbol) (c : α) (direction : Direction) : Prop :=
  (s.isRestricted = true ∧ c < -t.epsilon ∧ direction = .up) ∨
    (s.isExternal = true ∧ t.epsilon < Scalar.magnitude c ∧
      direction = if c < 0 then .up else .down)

theorem Lowers.not_isDummy {t : Tableau α} {s : Symbol} {c : α} {direction : Direction}
    (h : t.Lowers s c direction) : s.isDummy = false := by
  cases s with
  | dummy i => rcases h with h | h <;> exact nomatch h.1
  | external v => rfl
  | slack i => rfl
  | artificial i => rfl

/-- The test that `entering?` applies to a cell. -/
theorem lowers_of_test {t : Tableau α} {u s : Symbol} {c : α} {direction : Direction}
    (h : (if u.isRestricted ∧ c < -t.epsilon then some (u, Direction.up)
      else if u.isExternal ∧ t.epsilon < Scalar.magnitude c then
        some (u, if c < 0 then .up else .down)
      else none) = some (s, direction)) :
    u = s ∧ t.Lowers s c direction := by
  split at h
  · next hr =>
      obtain ⟨rfl, rfl⟩ := Prod.mk.inj (Option.some.inj h)
      exact ⟨rfl, Or.inl ⟨hr.1, hr.2, rfl⟩⟩
  · split at h
    · next he =>
        obtain ⟨rfl, hd⟩ := Prod.mk.inj (Option.some.inj h)
        exact ⟨rfl, Or.inr ⟨he.1, he.2, hd.symm⟩⟩
    · exact nomatch h

theorem lowers_of_entering? {t : Tableau α} {objective : Row α} {entering : Symbol}
    {direction : Direction} (h : t.entering? objective = some (entering, direction)) :
    ∃ c, objective.terms.get? entering = some c ∧ t.Lowers entering c direction := by
  obtain ⟨⟨u, c⟩, hu, htest⟩ := List.exists_of_findSome?_eq_some h
  obtain ⟨rfl, hlow⟩ := lowers_of_test htest
  exact ⟨c, OrderedMap.mem_entries_iff.mp hu, hlow⟩

/-- What enters is a parametric symbol. -/
theorem Separated.not_isBasic_entering {t : Tableau α} (ht : t.Separated)
    {objective entering : Symbol} {row : Row α} {direction : Direction}
    (hrow : t.row? objective = some row) (h : t.entering? row = some (entering, direction)) :
    ¬ t.isBasic entering = true := by
  obtain ⟨c, hc, -⟩ := lowers_of_entering? h
  exact fun hb => ht.not_mentions hrow hb (LinearForm.mentions_iff.mpr ⟨c, hc⟩)

/-- The ratios are those of the restricted rows that the move lowers. -/
theorem mem_ratios_iff {t : Tableau α} {entering s : Symbol} {direction : Direction} {x : α} :
    (s, x) ∈ t.ratios entering direction ↔
      ∃ row, t.row? s = some row ∧ s.isRestricted = true ∧
        direction.rate (row.coefficient entering) < -t.epsilon ∧
        x = row.constant / -direction.rate (row.coefficient entering) := by
  simp only [ratios]
  rw [List.mem_filterMap]
  constructor
  · rintro ⟨⟨u, row⟩, hu, htest⟩
    simp only at htest
    split at htest
    · next h =>
        obtain ⟨rfl, rfl⟩ := Prod.mk.inj (Option.some.inj htest)
        exact ⟨row, OrderedMap.mem_entries_iff.mp hu, h.1, h.2, rfl⟩
    · exact nomatch htest
  · rintro ⟨row, hrow, hs, hrate, rfl⟩
    refine ⟨(s, row), OrderedMap.mem_entries_iff.mpr hrow, ?_⟩
    simp only
    rw [if_pos ⟨hs, hrate⟩]

theorem row?_of_leaving? {t : Tableau α} {entering leaving : Symbol} {direction : Direction}
    (h : t.leaving? entering direction = some leaving) :
    ∃ row, t.row? leaving = some row ∧ leaving.isRestricted = true ∧
      direction.rate (row.coefficient entering) < -t.epsilon := by
  obtain ⟨x, hx⟩ := mem_of_leastBy? h
  obtain ⟨row, hrow, hs, hrate, -⟩ := mem_ratios_iff.mp hx
  exact ⟨row, hrow, hs, hrate⟩

/-- What an exchange is made of. -/
theorem exists_of_nextMove {t : Tableau α} {objective leaving entering : Symbol}
    (h : t.nextMove objective = .exchange leaving entering) :
    ∃ row direction, t.row? objective = some row ∧ ¬ row.constant ≤ t.epsilon ∧
      t.entering? row = some (entering, direction) ∧
      t.leaving? entering direction = some leaving := by
  unfold nextMove at h
  split at h
  · exact nomatch h
  · next row hrow =>
      split at h
      · exact nomatch h
      · next hpos =>
          split at h
          · exact nomatch h
          · next entering' direction hent =>
              split at h
              · exact nomatch h
              · next leaving' hleav =>
                  obtain ⟨rfl, rfl⟩ := Move.exchange.inj h
                  exact ⟨row, direction, hrow, hpos, hent, hleav⟩

/-- In an exchange the leaving symbol is basic and restricted, and the entering
    one occurs and is no dummy. -/
theorem kinds_of_nextMove {t : Tableau α} {objective leaving entering : Symbol}
    (h : t.nextMove objective = .exchange leaving entering) :
    (∃ row, t.row? leaving = some row) ∧ leaving.isRestricted = true ∧
      t.mentions entering = true ∧ entering.isDummy = false := by
  obtain ⟨row, direction, hrow, -, hent, hleav⟩ := exists_of_nextMove h
  obtain ⟨c, hc, hlow⟩ := lowers_of_entering? hent
  obtain ⟨row', hrow', hres, -⟩ := row?_of_leaving? hleav
  exact ⟨⟨row', hrow'⟩, hres, mentions_of_row hrow (LinearForm.mentions_iff.mpr ⟨c, hc⟩),
    hlow.not_isDummy⟩

/-! ## What an exchange leaves alone -/

@[simp] theorem epsilon_exchange (t : Tableau α) (leaving entering : Symbol) :
    (t.exchange leaving entering).epsilon = t.epsilon := by
  simp only [exchange]
  split <;> rfl

@[simp] theorem nextIndex_exchange (t : Tableau α) (leaving entering : Symbol) :
    (t.exchange leaving entering).nextIndex = t.nextIndex := by
  simp only [exchange]
  split <;> rfl

end Tableau

end LinearConstraints
