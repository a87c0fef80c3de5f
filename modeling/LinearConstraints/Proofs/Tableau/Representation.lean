import LinearConstraints.Proofs.Tableau.Withdrawal

/-! # A tableau stands for the relations imposed on it

    With exact numbers the solutions of a tableau are the values for which
    every imposed relation balances with its marker.  Imposing a relation adds
    its balance to the list and withdrawing one takes exactly that balance out
    again, because every other relation has a marker of its own: setting one
    marker free frees its own relation and no other.

    What a tableau mentions follows from its solutions, since only a symbol
    that makes a difference to them occurs.  So no trace of a withdrawn
    relation is left, and every marker can be found. -/

namespace LinearConstraints

open Exact

/-- A relation with the marker it was given. -/
abbrev Imposed := Relation Rat × Symbol

/-! ## Markers -/

/-- Without one of its entries a list in which no key comes twice is shorter by
    one. -/
theorem length_filter_ne {β κ : Type} [DecidableEq κ] (key : β → κ) {l : List β}
    (hnodup : (l.map key).Nodup) {a : β} (ha : a ∈ l) :
    (l.filter fun b => key b ≠ key a).length + 1 = l.length := by
  have hmem : key a ∈ l.map key := List.mem_map_of_mem ha
  have hmap : (l.filter fun b => key b ≠ key a).map key = (l.map key).erase (key a) := by
    rw [hnodup.erase_eq_filter, List.filter_map]
    congr 1
    refine List.filter_congr fun b _ => Bool.eq_iff_iff.mpr ?_
    simp
  have hlength := congrArg List.length hmap
  rw [List.length_map, List.length_erase_of_mem hmem, List.length_map] at hlength
  have := List.length_pos_of_mem ha
  omega

/-- Whether every relation has a marker of its own, with a number below the
    bound. -/
structure Marked (imposed : List Imposed) (bound : Nat) : Prop where
  /-- No marker has been given twice. -/
  nodup : (imposed.map (·.2)).Nodup
  /-- Every marker is of the kind of its relation. -/
  kind : ∀ a ∈ imposed, a.2 = a.1.comparison.mark a.2.index
  /-- Its number has been given before. -/
  below : ∀ a ∈ imposed, a.2.index < bound

namespace Marked

variable {imposed : List Imposed} {bound : Nat}

theorem nil (bound : Nat) : Marked [] bound where
  nodup := List.nodup_nil
  kind _ ha := nomatch ha
  below _ ha := nomatch ha

theorem isExternal (h : Marked imposed bound) {a : Imposed} (ha : a ∈ imposed) :
    a.2.isExternal = false := by
  rw [h.kind a ha]
  exact Comparison.mark_isExternal ..

/-- A marker belongs to one relation only. -/
theorem eq_of_marker (h : Marked imposed bound) {a b : Imposed} (ha : a ∈ imposed)
    (hb : b ∈ imposed) (heq : b.2 = a.2) : b = a :=
  List.inj_on_of_nodup_map h.nodup hb ha heq

theorem append (h : Marked imposed bound) (r : Relation Rat) {bound' : Nat}
    (hbound : bound < bound') : Marked (imposed ++ [(r, r.comparison.mark bound)]) bound' where
  nodup := by
    rw [List.map_append, List.nodup_append]
    refine ⟨h.nodup, List.nodup_singleton _, ?_⟩
    rintro m hm m' hm' rfl
    obtain ⟨a, ha, rfl⟩ := List.mem_map.mp hm
    have hindex := h.below a ha
    rw [List.mem_singleton.mp hm', Comparison.mark_index] at hindex
    exact lt_irrefl _ hindex
  kind := by
    refine List.forall_mem_append.mpr ⟨h.kind, List.forall_mem_singleton.mpr ?_⟩
    rw [Comparison.mark_index]
  below := by
    refine List.forall_mem_append.mpr ⟨fun a ha => lt_trans (h.below a ha) hbound,
      List.forall_mem_singleton.mpr ?_⟩
    rw [Comparison.mark_index]
    exact hbound

theorem filter (h : Marked imposed bound) (p : Imposed → Bool) :
    Marked (imposed.filter p) bound where
  nodup := h.nodup.sublist (List.filter_sublist.map _)
  kind a ha := h.kind a (List.mem_filter.mp ha).1
  below a ha := h.below a (List.mem_filter.mp ha).1

/-- Without one of its markers a list is shorter by one. -/
theorem length_filter (h : Marked imposed bound) {a : Imposed} (ha : a ∈ imposed) :
    (imposed.filter fun b => b.2 ≠ a.2).length + 1 = imposed.length :=
  length_filter_ne (·.2) h.nodup ha

end Marked

/-! ## Balances and single values -/

/-- The value of a made-up symbol does not change an expression. -/
theorem Expression.evaluate_update (e : Expression Rat) (value : Symbol → Rat) {s : Symbol}
    (hs : s.isExternal = false) (x : Rat) :
    e.evaluate (fun v => Function.update value s x (.external v))
      = e.evaluate fun v => value (.external v) := by
  refine LinearForm.evaluate_congr fun v _ => Function.update_of_ne ?_ ..
  rintro rfl
  exact nomatch hs

/-- Only its own marker among all markers matters to a relation. -/
theorem Relation.balances_update_of_ne {r : Relation Rat} {value : Symbol → Rat}
    {marker s : Symbol} (hs : s.isExternal = false) (hne : marker ≠ s) (x : Rat) :
    r.Balances (Function.update value s x) marker ↔ r.Balances value marker := by
  rw [balances_iff, balances_iff, Expression.evaluate_update _ _ hs, Function.update_of_ne hne]

/-- Of the variables only those of the relation matter. -/
theorem Relation.balances_update_external {r : Relation Rat} {value : Symbol → Rat}
    {marker : Symbol} (hm : marker.isExternal = false) {v : VariableId} (hv : ¬ v ∈ r.vars)
    (x : Rat) :
    r.Balances (Function.update value (.external v) x) marker ↔ r.Balances value marker := by
  have hne : marker ≠ .external v := by
    rintro rfl
    exact nomatch hm
  have hsame : r.normal.evaluate (fun u => Function.update value (.external v) x (.external u))
      = r.normal.evaluate fun u => value (.external u) := by
    refine LinearForm.evaluate_congr fun u hu => Function.update_of_ne ?_ ..
    intro h
    obtain rfl := Symbol.external.inj h
    exact hv (OrderedMap.mem_keys_iff.mpr hu)
  rw [balances_iff, balances_iff, hsame, Function.update_of_ne hne]

/-- Exactly one value of its marker balances a relation. -/
theorem Relation.balances_update_self {r : Relation Rat} {value : Symbol → Rat}
    {marker : Symbol} (hm : marker.isExternal = false) {x : Rat} :
    r.Balances (Function.update value marker x) marker
      ↔ x = -r.normal.evaluate (fun v => value (.external v))
        / Tableau.markerSign r.comparison := by
  rw [balances_iff, Expression.evaluate_update _ _ hm, Function.update_self,
    eq_div_iff (Tableau.markerSign_ne_zero _)]
  constructor
  · intro h
    linarith
  · intro h
    linarith

namespace Tableau

/-- What every call keeps so that a tableau goes on standing for its relations. -/
structure Faithful (t : Tableau Rat) (imposed : List Imposed) : Prop where
  wellFormed : t.WellFormed
  grounded : t.Grounded
  ready : t.Ready
  /-- The solutions are the values for which every relation balances. -/
  satisfies_iff : ∀ value, t.Satisfies value ↔ ∀ a ∈ imposed, a.1.Balances value a.2
  size_eq : t.size = imposed.length
  /-- Every relation has a marker of its own. -/
  marked : Marked imposed t.nextIndex

namespace Faithful

variable {t t' : Tableau Rat} {imposed : List Imposed} {r : Relation Rat}

/-- A variable that occurs is one of an imposed relation. -/
theorem mem_vars (h : t.Faithful imposed) {v : VariableId}
    (hv : t.mentions (.external v) = true) : ∃ a ∈ imposed, v ∈ a.1.vars := by
  by_contra hnone
  refine not_mentions_of_independent h.ready.separated h.ready.pruned (fun value x hval => ?_) hv
  refine (h.satisfies_iff _).mpr fun a ha => ?_
  rw [Relation.balances_update_external (h.marked.isExternal ha) fun hmem => hnone ⟨a, ha, hmem⟩]
  exact (h.satisfies_iff value).mp hval a ha

/-- Every marker occurs. -/
theorem mentions_marker (h : t.Faithful imposed) {a : Imposed} (ha : a ∈ imposed) :
    t.mentions a.2 = true := by
  by_contra hgone
  have hext := h.marked.isExternal ha
  have hval := h.ready.separated.satisfies_valueOf
  -- otherwise its relation would balance whatever the marker is
  have hany : ∀ x, a.1.Balances (Function.update t.valueOf a.2 x) a.2 := fun x =>
    (h.satisfies_iff _).mp ((satisfies_update hgone x).mpr hval) a ha
  have h₀ := (Relation.balances_update_self hext).mp (hany 0)
  have h₁ := (Relation.balances_update_self hext).mp (hany 1)
  rw [← h₀] at h₁
  exact one_ne_zero h₁

/-! ## The calls on a tableau -/

theorem empty : (Tableau.empty (0 : Rat)).Faithful [] where
  wellFormed := wellFormed_empty 0
  grounded := grounded_empty 0
  ready := ⟨(wellFormed_empty 0).separated, fun _ _ h => (nomatch h), rfl, fun _ _ => le_refl _⟩
  satisfies_iff _ := ⟨fun _ _ ha => (nomatch ha), fun _ _ _ h => (nomatch h)⟩
  size_eq := rfl
  marked := .nil _

/-- Imposing a relation adds its balance. -/
theorem impose (h : t.Faithful imposed) (hr : r.normal.Pruned) {editable : VariableId → Bool}
    {m : Symbol} (himpose : t.impose editable r = .ok (m, t')) :
    t'.Faithful (imposed ++ [(r, m)]) := by
  obtain ⟨hwf, hnext, -⟩ := h.wellFormed.impose himpose
  have hjoined := h.ready.impose h.wellFormed himpose
  obtain ⟨rfl, -⟩ := impose_cases himpose
  refine ⟨hwf, h.grounded.impose h.wellFormed himpose, hjoined.ready, fun value => ?_, ?_, ?_⟩
  · rw [hjoined.satisfies_iff, List.forall_mem_append, List.forall_mem_singleton, h.satisfies_iff]
    refine and_congr_right fun hval => ?_
    exact h.wellFormed.evaluate_rowOf_eq_zero_iff ((h.satisfies_iff value).mpr hval) hr
  · rw [hjoined.size_eq, h.size_eq, List.length_append]
    rfl
  · rw [marker_eq_mark]
    exact h.marked.append r hnext

/-- Withdrawing a relation takes its balance out, and no other. -/
theorem exists_withdraw (h : t.Faithful imposed) {a : Imposed} (ha : a ∈ imposed) :
    ∃ t', t.withdraw a.2 = .ok t' ∧ t'.Faithful (imposed.filter fun b => b.2 ≠ a.2) := by
  obtain ⟨t', ht', hfreed⟩ := h.ready.exists_withdraw h.wellFormed h.grounded (h.mentions_marker ha)
  obtain ⟨hwf, hnext, -⟩ := h.wellFormed.withdraw ht'
  have hext := h.marked.isExternal ha
  refine ⟨t', ht', hwf, h.grounded.withdraw ht', hfreed.ready, fun value => ?_, ?_,
    hnext ▸ h.marked.filter _⟩
  · rw [hfreed.satisfies_iff]
    constructor
    · rintro ⟨x, hx⟩ b hb
      obtain ⟨hb, hne⟩ := List.mem_filter.mp hb
      have hne : b.2 ≠ a.2 := of_decide_eq_true hne
      exact (Relation.balances_update_of_ne hext hne x).mp ((h.satisfies_iff _).mp hx b hb)
    · intro hval
      refine ⟨-a.1.normal.evaluate (fun v => value (.external v)) / markerSign a.1.comparison,
        (h.satisfies_iff _).mpr fun b hb => ?_⟩
      by_cases heq : b.2 = a.2
      · obtain rfl := h.marked.eq_of_marker ha hb heq
        exact (Relation.balances_update_self hext).mpr rfl
      · rw [Relation.balances_update_of_ne hext heq]
        exact hval b (List.mem_filter.mpr ⟨hb, decide_eq_true heq⟩)
  · have hlength := h.marked.length_filter ha
    have := hfreed.size_eq
    have := h.size_eq
    omega

end Faithful

end Tableau

end LinearConstraints
