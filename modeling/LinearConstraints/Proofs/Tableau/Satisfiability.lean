import LinearConstraints.Proofs.Tableau.Representation

/-! # A relation is imposed if and only if it can hold

    Values of the variables satisfy a list of relations just when the markers
    can be given admissible values that balance them: a slack takes up what an
    inequality leaves, and a dummy has nothing to take up.  So with exact
    numbers a tableau accepts a relation if and only if some values satisfy it
    together with all those imposed before, and what it answers depends on
    nothing else. -/

namespace LinearConstraints

open Exact

/-- The value that its marker takes up. -/
def Relation.distance (value : VariableId → Rat) (r : Relation Rat) : Rat :=
  -r.normal.evaluate value / Tableau.markerSign r.comparison

/-- A relation holds where its distance is one its marker may have. -/
theorem Relation.holds_iff_distance {r : Relation Rat} {value : VariableId → Rat} :
    r.Holds value ↔
      match r.comparison with
      | .equal => r.distance value = 0
      | _ => 0 ≤ r.distance value := by
  rw [holds_iff]
  simp only [Relation.distance, Tableau.markerSign]
  cases r.comparison with
  | equal => simp
  | atMost => simp
  | atLeast => simp

/-- A marker balances its relation where it takes up the distance. -/
theorem Relation.balances_iff_distance {r : Relation Rat} {value : Symbol → Rat}
    {marker : Symbol} :
    r.Balances value marker ↔ value marker = r.distance fun v => value (.external v) := by
  rw [balances_iff, Relation.distance, eq_div_iff (Tableau.markerSign_ne_zero _)]
  constructor
  · intro h
    linarith
  · intro h
    linarith

namespace Marked

variable {imposed : List Imposed} {bound : Nat}

/-- In an admissible solution every relation holds. -/
theorem holds_of_balances (h : Marked imposed bound) {value : Symbol → Rat}
    (hadm : Tableau.Admissible value) (hbal : ∀ a ∈ imposed, a.1.Balances value a.2)
    {a : Imposed} (ha : a ∈ imposed) : a.1.Holds fun v => value (.external v) := by
  have hkind := h.kind a ha
  have hdist := Relation.balances_iff_distance.mp (hbal a ha)
  rw [Relation.holds_iff_distance, ← hdist]
  cases hc : a.1.comparison with
  | equal => exact hadm.dummy a.2 (by rw [hkind, hc]; rfl)
  | atMost => exact hadm.restricted a.2 (by rw [hkind, hc]; rfl)
  | atLeast => exact hadm.restricted a.2 (by rw [hkind, hc]; rfl)

end Marked

/-- Values of all symbols in which every marker takes up the distance of its
    relation. -/
def settle (imposed : List Imposed) (value : VariableId → Rat) : Symbol → Rat
  | .external v => value v
  | s =>
      match imposed.find? fun a => a.2 = s with
      | some a => a.1.distance value
      | none => 0

namespace Marked

variable {imposed : List Imposed} {bound : Nat}

theorem settle_marker (h : Marked imposed bound) (value : VariableId → Rat) {a : Imposed}
    (ha : a ∈ imposed) : settle imposed value a.2 = a.1.distance value := by
  have hfind : imposed.find? (fun b => decide (b.2 = a.2)) = some a := by
    obtain ⟨b, hb⟩ : ∃ b, imposed.find? (fun b => decide (b.2 = a.2)) = some b :=
      Option.isSome_iff_exists.mp (List.find?_isSome.mpr ⟨a, ha, decide_eq_true rfl⟩)
    have heq := List.find?_some hb
    rw [hb, h.eq_of_marker ha (List.mem_of_find?_eq_some hb) (of_decide_eq_true heq)]
  have hext := h.isExternal ha
  simp only [settle]
  split
  · next hs =>
      rw [hs] at hext
      exact nomatch hext
  · rw [hfind]

/-- A symbol that is made up is the marker of some relation, or else it is
    zero. -/
theorem settle_cases {value : VariableId → Rat} {s : Symbol} (hs : s.isExternal = false) :
    settle imposed value s = 0 ∨ ∃ a ∈ imposed, a.2 = s := by
  by_cases hmem : ∃ a ∈ imposed, a.2 = s
  · exact Or.inr hmem
  · left
    have hfind : imposed.find? (fun a => decide (a.2 = s)) = none :=
      List.find?_eq_none.mpr fun a ha heq => hmem ⟨a, ha, of_decide_eq_true heq⟩
    simp only [settle]
    split
    · exact nomatch hs
    · rw [hfind]

/-- If every relation holds, the markers have admissible values. -/
theorem admissible_settle (h : Marked imposed bound) {value : VariableId → Rat}
    (hholds : ∀ a ∈ imposed, a.1.Holds value) : Tableau.Admissible (settle imposed value) := by
  constructor
  · intro s hs
    rcases settle_cases (Symbol.not_isExternal_of_isRestricted hs) with hzero | ⟨a, ha, rfl⟩
    · rw [hzero]
    · have hrel := Relation.holds_iff_distance.mp (hholds a ha)
      have hkind := h.kind a ha
      rw [h.settle_marker value ha]
      cases hc : a.1.comparison with
      | equal =>
          rw [hkind, hc] at hs
          exact nomatch hs
      | atMost | atLeast =>
          rw [hc] at hrel
          exact hrel
  · intro s hs
    rcases settle_cases (Symbol.not_isExternal_of_isDummy hs) with hzero | ⟨a, ha, rfl⟩
    · exact hzero
    · have hrel := Relation.holds_iff_distance.mp (hholds a ha)
      have hkind := h.kind a ha
      rw [h.settle_marker value ha]
      cases hc : a.1.comparison with
      | equal =>
          rw [hc] at hrel
          exact hrel
      | atMost | atLeast =>
          rw [hkind, hc] at hs
          exact nomatch hs

theorem balances_settle (h : Marked imposed bound) (value : VariableId → Rat) {a : Imposed}
    (ha : a ∈ imposed) : a.1.Balances (settle imposed value) a.2 :=
  Relation.balances_iff_distance.mpr (h.settle_marker value ha)

end Marked

namespace Tableau.Faithful

variable {t : Tableau Rat} {imposed : List Imposed}

/-- The values a tableau gives its symbols are admissible. -/
theorem admissible_valueOf (h : t.Faithful imposed) : Admissible t.valueOf where
  restricted := h.ready.nonnegative
  dummy _ hs := h.grounded.valueOf_eq_zero hs

/-- They satisfy every relation imposed. -/
theorem holds_valueOf (h : t.Faithful imposed) {a : Imposed} (ha : a ∈ imposed) :
    a.1.Holds fun v => t.valueOf (.external v) :=
  h.marked.holds_of_balances h.admissible_valueOf
    ((h.satisfies_iff _).mp h.ready.separated.satisfies_valueOf) ha

/-- Admissible values that follow from parametric ones satisfy every relation
    imposed, too. -/
theorem holds_extend (h : t.Faithful imposed) {point : Symbol → Rat}
    (hadm : Admissible (t.extend point)) {a : Imposed} (ha : a ∈ imposed) :
    a.1.Holds fun v => t.extend point (.external v) :=
  h.marked.holds_of_balances hadm
    ((h.satisfies_iff _).mp (h.ready.separated.satisfies_extend point)) ha

/-- Values that spare nothing where a marker is parametric follow from those of
    the parametric variables. -/
theorem settle_eq_extend (h : t.Faithful imposed) {value : VariableId → Rat}
    {point : Symbol → Rat} (hpoint : ∀ s, s.isExternal = false → point s = 0)
    (hvars : ∀ v, ¬ t.isBasic (.external v) = true → t.mentions (.external v) = true →
      value v = point (.external v))
    (htight : ∀ a ∈ imposed, ¬ t.isBasic a.2 = true → a.1.distance value = 0) {s : Symbol}
    (hs : t.mentions s = true) : settle imposed value s = t.extend point s := by
  have hmade : ∀ u : Symbol, u.isExternal = false → ¬ t.isBasic u = true →
      settle imposed value u = point u := by
    intro u hext hb
    rw [hpoint u hext]
    rcases Marked.settle_cases hext with hzero | ⟨a, ha, rfl⟩
    · exact hzero
    · rw [h.marked.settle_marker value ha, htight a ha hb]
  refine h.ready.separated.eq_extend
    ((h.satisfies_iff _).mpr fun a ha => h.marked.balances_settle value ha)
    (fun u hu hb => ?_) hs
  cases u with
  | external v => exact hvars v hb hu
  | slack i | dummy i | artificial i => exact hmade _ rfl hb

/-- A relation is imposed if and only if it can hold together with the others,
    and refused as unsatisfiable if it cannot. -/
theorem impose_iff (h : t.Faithful imposed) {r : Relation Rat} (hr : r.normal.Pruned)
    (editable : VariableId → Bool) :
    ((∃ a, t.impose editable r = .ok a) ↔
        ∃ value, r.Holds value ∧ ∀ a ∈ imposed, a.1.Holds value) ∧
      ∀ reason, t.impose editable r = .error reason → reason = .unsatisfiable r := by
  refine ⟨⟨?_, ?_⟩, fun reason herr => (h.ready.impose_error h.wellFormed herr).1⟩
  · rintro ⟨⟨m, t'⟩, himpose⟩
    have h' := h.impose hr himpose
    refine ⟨fun v => t'.valueOf (.external v), ?_, fun a ha => ?_⟩
    · exact h'.holds_valueOf (a := (r, m)) (List.mem_append_right _ (List.mem_singleton_self _))
    · exact h'.holds_valueOf (List.mem_append_left _ ha)
  · rintro ⟨value, hrel, hrest⟩
    cases himpose : t.impose editable r with
    | ok a => exact ⟨a, rfl⟩
    | error reason =>
        exfalso
        have hmarked := h.marked.append r (Nat.lt_succ_self _)
        have hall : ∀ a ∈ imposed ++ [(r, r.comparison.mark t.nextIndex)], a.1.Holds value :=
          List.forall_mem_append.mpr ⟨hrest, List.forall_mem_singleton.mpr hrel⟩
        have hsat := (h.satisfies_iff _).mpr fun a ha =>
          hmarked.balances_settle value (List.mem_append_left _ ha)
        refine (h.ready.impose_error h.wellFormed himpose).2 _ (hmarked.admissible_settle hall)
          hsat ((h.wellFormed.evaluate_rowOf_eq_zero_iff hsat hr).mpr ?_)
        rw [marker_eq_mark]
        exact hmarked.balances_settle (a := (r, _)) value
          (List.mem_append_right _ (List.mem_singleton_self _))

end Tableau.Faithful

end LinearConstraints
