import LinearConstraints.Proofs.World.WriteBack

/-! # Which symbol is given a row

    Where a relation introduces variables, its row goes to one of them and no
    other row changes.  It goes to one that no caller means to set, if there is
    any, and of several to the first.  So an editable variable becomes basic
    only where all variables introduced are editable, but then it does even
    beside a slack that could have been given the row. -/

namespace LinearConstraints

/-- In a list whose entries precede one another in turn, a search finds the
    first of all entries that pass. -/
theorem find?_eq_some_iff_of_pairwise {ι : Type} {precedes : ι → ι → Prop} {l : List ι}
    (hl : l.Pairwise precedes) (hasymm : ∀ a b, precedes a b → ¬ precedes b a) {p : ι → Bool}
    {a : ι} :
    l.find? p = some a ↔
      a ∈ l ∧ p a = true ∧ ∀ b ∈ l, p b = true → b = a ∨ precedes a b := by
  have hfirst : ∀ {c}, l.find? p = some c → ∀ b ∈ l, p b = true → b = c ∨ precedes c b := by
    intro c h b hb hpass
    obtain ⟨-, before, after, rfl, hfail⟩ := List.find?_eq_some_iff_append.mp h
    rcases List.mem_append.mp hb with hb | hb
    · have hnot := hfail b hb
      rw [hpass] at hnot
      exact nomatch hnot
    · rcases List.mem_cons.mp hb with rfl | hb
      · exact Or.inl rfl
      · exact Or.inr ((List.pairwise_cons.mp (List.pairwise_append.mp hl).2.1).1 b hb)
  constructor
  · exact fun h => ⟨List.mem_of_find?_eq_some h, List.find?_some h, hfirst h⟩
  · rintro ⟨hmem, hpass, hmin⟩
    cases h : l.find? p with
    | none => exact absurd hpass (List.find?_eq_none.mp h a hmem)
    | some c =>
        -- each of the two would precede the other
        rcases hfirst h a hmem hpass with rfl | hca
        · rfl
        · rcases hmin c (List.mem_of_find?_eq_some h) (List.find?_some h) with rfl | hac
          · rfl
          · exact absurd hac (hasymm c a hca)

open Exact in
/-- A relation that balances no longer does when one of its variables is one
    more. -/
theorem Relation.not_balances_update {r : Relation Rat} (hr : r.normal.Pruned) {v : VariableId}
    (hv : v ∈ r.vars) {marker : Symbol} (hm : marker.isExternal = false)
    {value : Symbol → Rat} (h : r.Balances value marker) :
    ¬ r.Balances (Function.update value (.external v) (value (.external v) + 1)) marker := by
  have hne : marker ≠ .external v := by
    rintro rfl
    exact nomatch hm
  have hupdate : (fun u => Function.update value (.external v) (value (.external v) + 1)
      (.external u)) = Function.update (fun u => value (.external u)) v (value (.external v) + 1) :=
    Function.update_comp_eq_of_injective value (fun _ _ h => Symbol.external.inj h) v _
  have hcoefficient := hr.coefficient_ne_zero (OrderedMap.mem_keys_iff.mp hv)
  intro h'
  rw [balances_iff, hupdate, Function.update_of_ne hne,
    LinearForm.evaluate_update] at h'
  rw [balances_iff] at h
  exact hcoefficient (by linarith)

namespace Tableau

section Preference

variable {α : Type} [Scalar α] {t t' : Tableau α} {r : Relation α} {marker : Symbol}
variable {editable : VariableId → Bool} {u v : VariableId}

/-- Whether a relation brings a variable into a tableau: its row mentions it and
    no row of the tableau does. -/
def Introduces (t : Tableau α) (r : Relation α) (v : VariableId) : Prop :=
  v ∈ r.vars ∧ (t.rowOf r).mentions (.external v) = true ∧ ¬ t.mentions (.external v) = true

/-- Whether a variable is given a row before another one.  Those that a caller
    means to set come last, and among equals the order is that of making. -/
def Precedes (editable : VariableId → Bool) (u v : VariableId) : Prop :=
  (editable u = false ∧ editable v = true) ∨ (editable u = editable v ∧ u < v)

theorem Precedes.asymm (h : Precedes editable u v) : ¬ Precedes editable v u := by
  rcases h with ⟨hu, hv⟩ | ⟨heq, hlt⟩
  · rintro (⟨hv', -⟩ | ⟨heq, -⟩)
    · exact Bool.false_ne_true (hv'.symm.trans hv)
    · exact Bool.false_ne_true (hu.symm.trans (heq.symm.trans hv))
  · rintro (⟨hv', hu'⟩ | ⟨-, hlt'⟩)
    · exact Bool.false_ne_true (hv'.symm.trans (heq.symm.trans hu'))
    · exact Nat.lt_asymm hlt hlt'

/-- The variables of a relation in the order in which they are considered. -/
def candidates (editable : VariableId → Bool) (r : Relation α) : List VariableId :=
  r.vars.filter (fun v => !editable v) ++ r.vars.filter editable

theorem mem_candidates_iff : v ∈ candidates editable r ↔ v ∈ r.vars := by
  rw [candidates, List.mem_append, List.mem_filter, List.mem_filter, ← and_or_left,
    and_iff_left_iff_imp]
  intro _
  cases editable v
  · exact Or.inl rfl
  · exact Or.inr rfl

theorem pairwise_candidates (editable : VariableId → Bool) (r : Relation α) :
    (candidates editable r).Pairwise (Precedes editable) := by
  have hascending : r.vars.Pairwise (· < ·) :=
    List.pairwise_map.mpr (r.normal.terms.ascending.imp fun h => Nat.compare_eq_lt.mp h)
  have hequal : ∀ b : Bool, (r.vars.filter fun v => editable v == b).Pairwise
      (Precedes editable) := by
    intro b
    refine (hascending.filter _).imp_of_mem fun hu hv hlt => Or.inr ⟨?_, hlt⟩
    rw [eq_of_beq (List.mem_filter.mp hu).2, eq_of_beq (List.mem_filter.mp hv).2]
  refine List.pairwise_append.mpr ⟨?_, ?_, fun u hu v hv => Or.inl ⟨?_, ?_⟩⟩
  · simpa using hequal false
  · simpa using hequal true
  · exact (Bool.not_eq_true' _).mp (List.mem_filter.mp hu).2
  · exact (List.mem_filter.mp hv).2

/-- The test that a candidate has to pass. -/
def isIntroduced (t : Tableau α) (r : Relation α) (v : VariableId) : Bool :=
  (t.rowOf r).mentions (.external v) && !t.mentions (.external v)

theorem introduces_iff_isIntroduced (editable : VariableId → Bool) :
    t.Introduces r v ↔ v ∈ candidates editable r ∧ t.isIntroduced r v = true := by
  rw [mem_candidates_iff, Introduces, isIntroduced, Bool.and_eq_true, Bool.not_eq_true',
    Bool.not_eq_true]

/-- The slack is only considered where no candidate passes. -/
theorem subject?_eq : t.subject? editable r (t.rowOf r) =
    (((candidates editable r).find? (t.isIntroduced r)).map Symbol.external).or
      (if (t.marker r.comparison).isSlack ∧ (t.rowOf r).coefficient (t.marker r.comparison) < 0
        then some (t.marker r.comparison) else none) := by
  have hsearch : ((candidates editable r).map Symbol.external).find? (fun s =>
      (t.rowOf r).mentions s && !t.mentions s) =
        ((candidates editable r).find? (t.isIntroduced r)).map Symbol.external := by
    rw [List.find?_map]
    rfl
  rw [candidates] at hsearch
  simp only [subject?, candidates, hsearch]
  cases List.find? (t.isIntroduced r) _ with
  | some v => rfl
  | none => rfl

/-- The variable that takes the row, if one does, is the first that passes. -/
theorem subject?_eq_external_iff_find? :
    t.subject? editable r (t.rowOf r) = some (.external u) ↔
      (candidates editable r).find? (t.isIntroduced r) = some u := by
  have hkind := (marker_kind t r.comparison).1
  rw [subject?_eq]
  cases (candidates editable r).find? (t.isIntroduced r) with
  | some v => simp
  | none =>
      simp only [Option.map_none, Option.none_or, reduceCtorEq, iff_false]
      intro h
      split at h
      · rw [Option.some.inj h] at hkind
        cases hkind
      · cases h

/-- The row goes to the first variable that is introduced. -/
theorem subject?_eq_external_iff :
    t.subject? editable r (t.rowOf r) = some (.external u) ↔
      t.Introduces r u ∧ ∀ v, t.Introduces r v → v = u ∨ Precedes editable u v := by
  rw [subject?_eq_external_iff_find?, find?_eq_some_iff_of_pairwise
    (pairwise_candidates editable r) fun _ _ => Precedes.asymm, ← and_assoc,
    ← introduces_iff_isIntroduced editable]
  refine and_congr_right fun _ => forall_congr' fun v => ?_
  rw [introduces_iff_isIntroduced editable, and_imp]

/-- Where a variable is introduced, one of those that are takes the row. -/
theorem Introduces.exists_subject (h : t.Introduces r v) (editable : VariableId → Bool) :
    ∃ u, t.subject? editable r (t.rowOf r) = some (.external u) := by
  obtain ⟨hmem, hpass⟩ := (introduces_iff_isIntroduced editable).mp h
  obtain ⟨u, hu⟩ := Option.isSome_iff_exists.mp (List.find?_isSome.mpr ⟨v, hmem, hpass⟩)
  exact ⟨u, subject?_eq_external_iff_find?.mpr hu⟩

/-- A relation that introduces a variable is imposed, and the first variable that
    it introduces is all that becomes basic. -/
theorem Introduces.exists_impose (h : t.Introduces r v) (editable : VariableId → Bool) :
    ∃ u t', t.impose editable r = .ok (t.marker r.comparison, t') ∧
      t.Introduces r u ∧ (∀ v, t.Introduces r v → v = u ∨ Precedes editable u v) ∧
      ∀ s, t'.isBasic s = true ↔ s = .external u ∨ t.isBasic s = true := by
  obtain ⟨u, hu⟩ := h.exists_subject editable
  obtain ⟨hintro, hfirst⟩ := subject?_eq_external_iff.mp hu
  have himpose := impose_eq editable r t
  rw [hu] at himpose
  exact ⟨u, _, himpose, hintro, hfirst, fun s => isBasic_define_iff⟩

/-- Where a variable is introduced that no caller means to set, no editable one
    becomes basic. -/
theorem Introduces.isBasic_impose_iff (h : t.Introduces r v) (hedit : editable v = false)
    (himpose : t.impose editable r = .ok (marker, t')) (hu : editable u = true) :
    t'.isBasic (.external u) = true ↔ t.isBasic (.external u) = true := by
  obtain ⟨w, t'', himpose', -, hfirst, hbasic⟩ := h.exists_impose editable
  obtain ⟨-, rfl⟩ := Prod.mk.inj (Except.ok.inj (himpose.symm.trans himpose'))
  rw [hbasic, or_iff_right]
  intro heq
  obtain rfl := Symbol.external.inj heq
  rcases hfirst v h with rfl | ⟨hw, -⟩ | ⟨hsame, -⟩
  · exact Bool.false_ne_true (hedit.symm.trans hu)
  · exact Bool.false_ne_true (hw.symm.trans hu)
  · exact Bool.false_ne_true (hedit.symm.trans (hsame.symm.trans hu))

/-- Where all variables introduced are editable, one of them becomes basic,
    whether or not the slack could have been given the row. -/
theorem Introduces.exists_isBasic_impose (h : t.Introduces r v)
    (hedit : ∀ v, t.Introduces r v → editable v = true)
    (himpose : t.impose editable r = .ok (marker, t')) :
    ∃ u, editable u = true ∧ t.Introduces r u ∧ t'.isBasic (.external u) = true := by
  obtain ⟨u, t'', himpose', hintro, -, hbasic⟩ := h.exists_impose editable
  obtain ⟨-, rfl⟩ := Prod.mk.inj (Except.ok.inj (himpose.symm.trans himpose'))
  exact ⟨u, hedit u hintro, hintro, (hbasic _).mpr (Or.inl rfl)⟩

end Preference

open Exact

/-- With exact numbers no cell of a variable is lost that the tableau does not
    mention. -/
theorem WellFormed.introduces_iff {t : Tableau Rat} (ht : t.WellFormed) {r : Relation Rat}
    (hr : r.normal.Pruned) {v : VariableId} :
    t.Introduces r v ↔ v ∈ r.vars ∧ ¬ t.mentions (.external v) = true := by
  refine ⟨fun h => ⟨h.1, h.2.2⟩, fun ⟨hv, hnew⟩ => ⟨hv, ?_, hnew⟩⟩
  by_contra hlost
  have hmarker := (marker_kind t r.comparison).1
  -- the relation and its marker balance at some solution of the tableau
  obtain ⟨value, hvalue, hbalance⟩ : ∃ value, t.Satisfies value ∧
      r.Balances value (t.marker r.comparison) :=
    ⟨_, (satisfies_update (ht.not_mentions_marker r.comparison) _).mpr
      ht.separated.satisfies_valueOf, (Relation.balances_update_self hmarker).mpr rfl⟩
  -- without a cell of the variable they would still do if it were one more
  let value' := Function.update value (.external v) (value (.external v) + 1)
  have hvalue' : t.Satisfies value' := (satisfies_update hnew _).mpr hvalue
  have hsame : (t.rowOf r).evaluate value' = (t.rowOf r).evaluate value := by
    refine LinearForm.evaluate_congr fun u hu => Function.update_of_ne ?_ ..
    rintro rfl
    exact hlost hu
  refine Relation.not_balances_update hr hv hmarker hbalance ?_
  rw [← ht.evaluate_rowOf_eq_zero_iff hvalue' hr, hsame, ht.evaluate_rowOf_eq_zero_iff hvalue hr]
  exact hbalance

end Tableau

namespace World

open Exact

variable {w : World Rat} {s : SolverId} {solver : Solver Rat} {c : ConstraintId}
variable {x : Constraint Rat} {v : VariableId}

/-- What none of its constraints speaks of does not occur in a solver. -/
theorem Reachable.not_mentions_of_not_involves (hw : w.Reachable)
    (hs : w.solvers.get? s = some solver) (heps : solver.tableau.epsilon = 0)
    (hv : ¬ w.Involves s v) : ¬ solver.tableau.mentions (.external v) = true := by
  obtain ⟨ledger, hk⟩ := hw.kept.exists_ledger s solver hs
  intro hm
  obtain ⟨a, ha, hmem⟩ := (hk.arises.faithful heps).mem_vars hm
  obtain ⟨e, he, rfl⟩ := List.mem_map.mp ha
  exact hv ⟨e.relation, (hk.attached_iff hs).mpr ⟨e, he, rfl⟩, hmem⟩

/-- A constraint with a variable that is new to a solver is accepted.  If it is
    one that no caller means to set, the editable variables that were parametric
    stay so. -/
theorem Reachable.add_keeps_parametric (hw : w.Reachable) (hs : w.solvers.get? s = some solver)
    (heps : solver.tableau.epsilon = 0) (hx : w.constraints[c]? = some x)
    (hfree : x.owner? = none) (hv : v ∈ x.relation.vars) (hnew : ¬ w.Involves s v) :
    ∃ w' solver', (add s c).run w = .ok () w' ∧ w'.solvers.get? s = some solver' ∧
      (w.isEditable v = false → ∀ u, w.isEditable u = true →
        (solver'.tableau.isBasic (.external u) = true ↔
          solver.tableau.isBasic (.external u) = true)) := by
  obtain ⟨ledger, hk⟩ := hw.kept.exists_ledger s solver hs
  have hintro := ((hk.arises.faithful heps).wellFormed.introduces_iff
    (hw.kept.formulated c x hx).pruned_normal).mpr
      ⟨hv, hw.not_mentions_of_not_involves hs heps hnew⟩
  obtain ⟨u, t', himpose, -⟩ := hintro.exists_impose w.isEditable
  have hrun := run_add s c w
  simp only [hs, hx, hfree, himpose] at hrun
  exact ⟨_, _, hrun, OrderedMap.get?_insert_self .., fun hedit _ hu =>
    hintro.isBasic_impose_iff hedit himpose hu⟩

end World

end LinearConstraints
