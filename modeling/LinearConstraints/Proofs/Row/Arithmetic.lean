import LinearConstraints.Proofs.Form.Evaluation
import LinearConstraints.Proofs.Row.Cells

/-! # Rows over fractions

    A row over fractions is an equation in disguise, and the operations on
    rows are steps of elimination.  What they do to the constant holds under
    any tolerance, since pruning concerns cells only.  What they do to the
    value of a row is exact only where nothing but zeros is pruned. -/

namespace LinearConstraints

/-! ## Rows without zero cells -/

section Pruned

variable [Tolerance] {κ : Type} [Ord κ]

/-- Whether no unknown has the coefficient zero. -/
def LinearForm.Pruned (f : LinearForm κ Rat) : Prop :=
  ∀ k c, f.terms.get? k = some c → c ≠ 0

omit [Tolerance] in
theorem LinearForm.pruned_ofConstant (c : Rat) :
    (LinearForm.ofConstant c : LinearForm κ Rat).Pruned := by
  intro k c' h
  exact nomatch h

/-- In a pruned form an unknown that occurs has a coefficient other than zero. -/
theorem LinearForm.Pruned.coefficient_ne_zero {f : LinearForm κ Rat} (hf : f.Pruned) {k : κ}
    (hk : f.mentions k = true) : f.coefficient k ≠ 0 := by
  obtain ⟨c, hc⟩ := mentions_iff.mp hk
  rw [coefficient_of_get? hc]
  exact hf k c hc

/-- A coefficient other than zero belongs to an unknown that occurs. -/
theorem LinearForm.get?_of_coefficient_ne_zero {f : LinearForm κ Rat} {k : κ}
    (h : f.coefficient k ≠ 0) : f.terms.get? k = some (f.coefficient k) := by
  cases hk : f.terms.get? k with
  | none => exact absurd (coefficient_of_get?_none hk) h
  | some c => rw [coefficient_of_get? hk]

variable [Std.TransOrd κ] [Std.LawfulEqOrd κ]

/-- Pruned forms that have the same value everywhere are equal: the constant is
    the value at zero, and a coefficient is what a value of one adds to it. -/
theorem LinearForm.Pruned.eq_of_evaluate_eq [DecidableEq κ] {f g : LinearForm κ Rat}
    (hf : f.Pruned) (hg : g.Pruned) (h : ∀ value, f.evaluate value = g.evaluate value) :
    f = g := by
  have hconstant : f.constant = g.constant := by
    have hzero : ∀ a : LinearForm κ Rat, a.evaluate (fun _ => 0) = a.constant := fun a =>
      evaluate_eq_constant fun _ _ => rfl
    rw [← hzero f, h, hzero g]
  have hcoefficient : ∀ k, f.coefficient k = g.coefficient k := by
    intro k
    have hone := h (Function.update (fun _ => 0) k 1)
    rw [evaluate_update, evaluate_update, h] at hone
    linarith
  have hget : ∀ {a b : LinearForm κ Rat} {k : κ} {c : Rat}, a.Pruned →
      a.coefficient k = b.coefficient k → a.terms.get? k = some c → b.terms.get? k = some c := by
    intro a b k c ha hk hc
    have hne : b.coefficient k ≠ 0 := by
      rw [← hk, coefficient_of_get? hc]
      exact ha k c hc
    rw [get?_of_coefficient_ne_zero hne, ← hk, coefficient_of_get? hc]
  have hterms : f.terms = g.terms := by
    refine OrderedMap.ext fun k => Option.ext fun c => ⟨?_, ?_⟩
    · exact hget hf (hcoefficient k)
    · exact hget hg (hcoefficient k).symm
  cases f
  cases g
  cases hconstant
  cases hterms
  rfl

theorem LinearForm.Pruned.addTerm {drop : Rat → Bool} (hdrop : drop 0 = true)
    {f : LinearForm κ Rat} (hf : f.Pruned) (k : κ) (c : Rat) : (f.addTerm drop k c).Pruned := by
  intro u d hu
  rcases get?_of_addTerm hu with hu | hkeep
  · exact hf u d hu
  · rintro rfl
    exact nomatch hdrop.symm.trans hkeep

theorem LinearForm.Pruned.addMultiple {drop : Rat → Bool} (hdrop : drop 0 = true)
    {f : LinearForm κ Rat} (hf : f.Pruned) (g : LinearForm κ Rat) (factor : Rat) :
    (f.addMultiple drop g factor).Pruned :=
  OrderedMap.foldl_induction (P := LinearForm.Pruned) hf
    fun _ k c _ h => h.addTerm hdrop k (c * factor)

end Pruned

namespace Row

variable [Tolerance]

theorem negligible_zero : Scalar.negligible (0 : Rat) = true := by
  rw [Scalar.negligible_iff]
  exact Or.inl rfl

omit [Tolerance] in
theorem pruned_eraseTerm {r : Row Rat} (hr : r.Pruned) (s : Symbol) : (r.eraseTerm s).Pruned := by
  intro u c hu
  have hne : u ≠ s := by
    rintro rfl
    rw [eraseTerm, OrderedMap.get?_erase_self] at hu
    exact nomatch hu
  rw [eraseTerm, OrderedMap.get?_erase_of_ne _ hne] at hu
  exact hr u c hu

theorem pruned_setTerm {r : Row Rat} (hr : r.Pruned) (s : Symbol) (c : Rat) :
    (r.setTerm s c).Pruned := by
  simp only [setTerm]
  split
  · exact pruned_eraseTerm hr s
  · next hc =>
      intro u d hu
      by_cases hs : u = s
      · subst hs
        rw [OrderedMap.get?_insert_self, Option.some.injEq] at hu
        rintro rfl
        subst hu
        exact hc negligible_zero
      · rw [OrderedMap.get?_insert_of_ne _ _ hs] at hu
        exact hr u d hu

theorem pruned_addTerm {r : Row Rat} (hr : r.Pruned) (s : Symbol) (c : Rat) :
    (r.addTerm s c).Pruned :=
  hr.addTerm negligible_zero s c

theorem pruned_addMultiple {r : Row Rat} (hr : r.Pruned) (other : Row Rat) (factor : Rat) :
    (r.addMultiple other factor).Pruned :=
  hr.addMultiple negligible_zero other factor

theorem pruned_negate {r : Row Rat} (hr : r.Pruned) : r.negate.Pruned := by
  intro u c hu
  rw [negate, OrderedMap.get?_mapValues] at hu
  obtain ⟨d, hd, rfl⟩ := Option.map_eq_some_iff.mp hu
  exact neg_ne_zero.mpr (hr u d hd)

theorem pruned_orient {r : Row Rat} (hr : r.Pruned) : r.orient.Pruned := by
  simp only [orient]
  split
  · exact pruned_negate hr
  · exact hr

theorem pruned_substitute {r : Row Rat} (hr : r.Pruned) (s : Symbol) (definition : Row Rat) :
    (r.substitute s definition).Pruned := by
  simp only [substitute]
  split
  · exact pruned_addMultiple (pruned_eraseTerm hr s) definition _
  · exact hr

theorem pruned_isolate {r : Row Rat} (hr : r.Pruned) (s : Symbol) : (r.isolate s).Pruned := by
  have hfactor : -1 / r.terms.getD s 1 ≠ 0 := by
    refine div_ne_zero (by norm_num) ?_
    simp only [OrderedMap.getD]
    cases hs : r.terms.get? s with
    | none => exact one_ne_zero
    | some c => exact hr s c hs
  intro u c hu
  rw [isolate, OrderedMap.get?_mapValues] at hu
  obtain ⟨d, hd, rfl⟩ := Option.map_eq_some_iff.mp hu
  exact mul_ne_zero (pruned_eraseTerm hr s u d hd) hfactor

theorem pruned_exchange {r : Row Rat} (hr : r.Pruned) (leaving entering : Symbol) :
    (r.exchange leaving entering).Pruned :=
  pruned_isolate (pruned_setTerm hr leaving (-1)) entering

/-! ## Constants -/

theorem constant_addMultiple (r other : Row Rat) (factor : Rat) :
    (r.addMultiple other factor).constant = r.constant + other.constant * factor :=
  OrderedMap.foldl_induction
    (P := fun sum : Row Rat => sum.constant = r.constant + other.constant * factor)
    rfl fun _ _ _ _ h => h

theorem constant_substitute (r : Row Rat) (s : Symbol) (definition : Row Rat) :
    (r.substitute s definition).constant
      = r.constant + definition.constant * r.coefficient s := by
  simp only [substitute]
  split
  · next c hc =>
      rw [constant_addMultiple, LinearForm.coefficient_of_get? hc]
      rfl
  · next hc =>
      rw [LinearForm.coefficient_of_get?_none hc]
      ring

theorem constant_isolate {r : Row Rat} {s : Symbol} {c : Rat} (hc : r.terms.get? s = some c) :
    (r.isolate s).constant = -r.constant / c := by
  simp only [isolate, OrderedMap.getD, hc, Option.getD_some]
  ring

theorem constant_exchange {r : Row Rat} {leaving entering : Symbol} {c : Rat}
    (hc : r.terms.get? entering = some c) (hne : entering ≠ leaving) :
    (r.exchange leaving entering).constant = -r.constant / c :=
  constant_isolate (by rw [get?_setTerm_of_ne r _ hne, hc])

theorem orient_constant_nonneg (r : Row Rat) : 0 ≤ r.orient.constant := by
  simp only [orient]
  split
  · next h => exact neg_nonneg.mpr (le_of_lt h)
  · next h => exact not_lt.mp h

/-! ## Values that hold under any tolerance -/

theorem evaluate_eraseTerm (value : Symbol → Rat) (r : Row Rat) (s : Symbol) :
    (r.eraseTerm s).evaluate value = r.evaluate value - r.coefficient s * value s :=
  LinearForm.evaluate_erase value r s

theorem evaluate_mapValues_mul (value : Symbol → Rat) (r : Row Rat) (factor : Rat) :
    LinearForm.evaluate value ⟨r.constant * factor, r.terms.mapValues fun c => c * factor⟩
      = r.evaluate value * factor := by
  rw [LinearForm.evaluate_eq, LinearForm.evaluate_eq]
  show r.constant * factor
    + LinearForm.total value (r.terms.entries.map fun a => (a.1, a.2 * factor)) = _
  rw [LinearForm.total_map_mul value fun s => s]
  ring

theorem evaluate_negate (value : Symbol → Rat) (r : Row Rat) :
    r.negate.evaluate value = -r.evaluate value := by
  have h := evaluate_mapValues_mul value r (-1)
  have hneg : r.negate = ⟨r.constant * -1, r.terms.mapValues fun c => c * -1⟩ := by
    simp only [negate]
    congr 1
    · ring
    · congr 1
      funext c
      ring
  rw [hneg, h]
  ring

/-- Orienting a row does not change where it vanishes. -/
theorem evaluate_orient_eq_zero_iff {value : Symbol → Rat} {r : Row Rat} :
    r.orient.evaluate value = 0 ↔ r.evaluate value = 0 := by
  simp only [orient]
  split
  · rw [evaluate_negate, neg_eq_zero]
  · exact Iff.rfl

theorem evaluate_isolate (value : Symbol → Rat) {r : Row Rat} {s : Symbol} {c : Rat}
    (hc : r.terms.get? s = some c) (hne : c ≠ 0) :
    (r.isolate s).evaluate value = value s - r.evaluate value / c := by
  have h := evaluate_mapValues_mul value (r.eraseTerm s) (-1 / c)
  have hisolate : r.isolate s = ⟨(r.eraseTerm s).constant * (-1 / c),
      (r.eraseTerm s).terms.mapValues fun d => d * (-1 / c)⟩ := by
    simp only [isolate, eraseTerm, OrderedMap.getD, hc, Option.getD_some]
  rw [hisolate, h, evaluate_eraseTerm, LinearForm.coefficient_of_get? hc]
  field_simp
  ring

/-- A symbol has the value of its definition exactly where the row vanishes that
    it was isolated from. -/
theorem eq_evaluate_isolate_iff {value : Symbol → Rat} {r : Row Rat} {s : Symbol}
    (hc : r.coefficient s ≠ 0) :
    value s = (r.isolate s).evaluate value ↔ r.evaluate value = 0 := by
  rw [evaluate_isolate value (LinearForm.get?_of_coefficient_ne_zero hc) hc]
  constructor
  · intro h
    have hzero : r.evaluate value / r.coefficient s = 0 := by linarith
    exact (div_eq_zero_iff.mp hzero).resolve_right hc
  · intro h
    rw [h, zero_div, sub_zero]

end Row

/-! ## Values where only zeros are pruned -/

namespace Row

open Exact

theorem negligible_iff_eq_zero {c : Rat} : Scalar.negligible c = true ↔ c = 0 := by
  rw [Scalar.negligible_iff]
  constructor
  · rintro (h | h)
    · exact eq_of_beq h
    · exfalso
      unfold Scalar.magnitude at h
      split at h
      · next hc => exact absurd h (not_lt.mpr (neg_nonneg.mpr (le_of_lt hc)))
      · next hc => exact hc h
  · rintro rfl
    exact Or.inl rfl

theorem evaluate_addTerm (value : Symbol → Rat) (r : Row Rat) (s : Symbol) (c : Rat) :
    (r.addTerm s c).evaluate value = r.evaluate value + c * value s :=
  LinearForm.evaluate_addTerm (fun _ h => negligible_iff_eq_zero.mp h) value r s c

theorem evaluate_addMultiple (value : Symbol → Rat) (r other : Row Rat) (factor : Rat) :
    (r.addMultiple other factor).evaluate value
      = r.evaluate value + other.evaluate value * factor :=
  LinearForm.evaluate_addMultiple (fun _ h => negligible_iff_eq_zero.mp h) value r other factor

theorem evaluate_setTerm (value : Symbol → Rat) (r : Row Rat) (s : Symbol) (c : Rat) :
    (r.setTerm s c).evaluate value = r.evaluate value + (c - r.coefficient s) * value s := by
  simp only [setTerm]
  split
  · next h =>
      rw [negligible_iff_eq_zero.mp h, LinearForm.evaluate_erase]
      ring
  · exact LinearForm.evaluate_insert value r s c

theorem evaluate_substitute (value : Symbol → Rat) (r : Row Rat) (s : Symbol)
    (definition : Row Rat) :
    (r.substitute s definition).evaluate value
      = r.evaluate value + r.coefficient s * (definition.evaluate value - value s) := by
  simp only [substitute]
  split
  · next c hc =>
      rw [evaluate_addMultiple, evaluate_eraseTerm, LinearForm.coefficient_of_get? hc]
      ring
  · next hc =>
      rw [LinearForm.coefficient_of_get?_none hc]
      ring

/-- Solved for another symbol, a definition misses by what it missed before,
    rescaled. -/
theorem evaluate_exchange (value : Symbol → Rat) {r : Row Rat} {leaving entering : Symbol}
    {c : Rat} (hc : r.terms.get? entering = some c) (hne : c ≠ 0)
    (hleaving : ¬ r.mentions leaving = true) :
    (r.exchange leaving entering).evaluate value
      = value entering + (value leaving - r.evaluate value) / c := by
  have hdiff : entering ≠ leaving := by
    rintro rfl
    exact hleaving (LinearForm.mentions_iff.mpr ⟨c, hc⟩)
  have hzero : r.coefficient leaving = 0 :=
    LinearForm.coefficient_of_get?_none (LinearForm.get?_eq_none_of_not_mentions hleaving)
  have hget : (r.setTerm leaving (-1)).terms.get? entering = some c := by
    rw [get?_setTerm_of_ne r _ hdiff, hc]
  simp only [exchange]
  rw [evaluate_isolate value hget hne, evaluate_setTerm, hzero]
  field_simp
  ring

end Row

end LinearConstraints
