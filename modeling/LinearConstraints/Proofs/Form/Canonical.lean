import LinearConstraints.Proofs.Form.Formulas
import LinearConstraints.Proofs.Form.Operations

/-! # A built expression is the normal form of its formula

    A formula is worth the same as the expression it builds, whatever values
    the variables have.  The expression has no zero coefficient, and a linear
    form without zero coefficients is determined by its values: the constant
    is its value at zero, and a coefficient is what one more of the variable
    adds.  So two formulas that mean the same build the same expression, and
    the variables that are reported are just those that make a difference. -/

namespace LinearConstraints

section AnyTolerance

variable [Tolerance]

/-- A formula that can be built is worth the same as what it builds. -/
theorem Formula.evaluate_build (value : VariableId → Rat) (f : Formula Rat) :
    ∀ {e : Expression Rat}, f.build = .ok e → e.evaluate value = f.value value := by
  induction f with
  | number c =>
      intro e h
      obtain rfl := Except.ok.inj h
      exact Expression.evaluate_ofNumber value c
  | var v =>
      intro e h
      obtain rfl := Except.ok.inj h
      exact Expression.evaluate_ofVariable value v
  | terms list constant =>
      intro e h
      obtain rfl := Except.ok.inj h
      exact Expression.evaluate_ofTerms value list constant
  | plus a b iha ihb =>
      intro e h
      obtain ⟨x, hx, h⟩ := exists_of_bind h
      obtain ⟨y, hy, h⟩ := exists_of_bind h
      obtain rfl := Except.ok.inj h
      rw [Expression.evaluate_plus, iha hx, ihb hy]
      rfl
  | minus a b iha ihb =>
      intro e h
      obtain ⟨x, hx, h⟩ := exists_of_bind h
      obtain ⟨y, hy, h⟩ := exists_of_bind h
      obtain rfl := Except.ok.inj h
      rw [Expression.evaluate_minus, iha hx, ihb hy, sub_eq_add_neg]
      rfl
  | times a b iha ihb =>
      intro e h
      obtain ⟨x, hx, h⟩ := exists_of_bind h
      obtain ⟨y, hy, h⟩ := exists_of_bind h
      rw [Expression.evaluate_times value h, iha hx, ihb hy]
      rfl
  | divide a b iha ihb =>
      intro e h
      obtain ⟨x, hx, h⟩ := exists_of_bind h
      obtain ⟨y, hy, h⟩ := exists_of_bind h
      rw [Expression.evaluate_divide value h, iha hx, ihb hy]
      rfl
  | negate a iha =>
      intro e h
      obtain ⟨x, hx, h⟩ := exists_of_bind h
      obtain rfl := Except.ok.inj h
      rw [Expression.evaluate_scale, iha hx, mul_neg_one]
      rfl
  | scale factor a iha =>
      intro e h
      obtain ⟨x, hx, h⟩ := exists_of_bind h
      obtain rfl := Except.ok.inj h
      rw [Expression.evaluate_scale, iha hx]
      rfl

/-! ## The variables that make a difference -/

/-- Whether what a function of the values comes to can be changed through one
    variable alone. -/
def DependsOn (meaning : (VariableId → Rat) → Rat) (v : VariableId) : Prop :=
  ∃ value x, meaning (Function.update value v x) ≠ meaning value

namespace Expression

/-- The variables of an expression without zero coefficients are those that its
    value depends on. -/
theorem mem_vars_iff_dependsOn {e : Expression Rat} (he : e.Pruned) {v : VariableId} :
    v ∈ vars e ↔ DependsOn (fun value => e.evaluate value) v := by
  constructor
  · intro hv
    have hne := he.coefficient_ne_zero (OrderedMap.mem_keys_iff.mp hv)
    refine ⟨fun _ => 0, 1, fun h => hne ?_⟩
    simp only [LinearForm.evaluate_update, sub_zero, mul_one, add_eq_left] at h
    exact h
  · rintro ⟨value, x, hne⟩
    by_contra hv
    refine hne (LinearForm.evaluate_congr fun u hu => Function.update_of_ne ?_ ..)
    rintro rfl
    exact hv (OrderedMap.mem_keys_iff.mpr hu)

/-- An expression without zero coefficients is a number if its value never
    changes. -/
theorem isNumber_iff_evaluate_eq {e : Expression Rat} (he : e.Pruned) :
    isNumber e = true ↔ ∀ value value', e.evaluate value = e.evaluate value' := by
  constructor
  · intro h value value'
    rw [evaluate_of_isNumber value h, evaluate_of_isNumber value' h]
  · intro h
    refine OrderedMap.isEmpty_iff.mpr fun v hv => ?_
    obtain ⟨value, x, hne⟩ := (mem_vars_iff_dependsOn he).mp (OrderedMap.mem_keys_iff.mpr hv)
    exact hne (h _ _)

end Expression

/-- What a formula builds has the value of the formula everywhere, no zero
    coefficient, and nothing else about it: any other formula builds the same
    expression just when it means the same.  So the expression is a number
    just when the formula is constant, and its variables, like those of a
    relation between two formulas, are the ones the value truly depends on. -/
theorem Formula.build_canonical {f : Formula Rat} {e : Expression Rat} (hf : f.build = .ok e) :
    (∀ value, e.evaluate value = f.value value) ∧
    (∀ v c, e.terms.get? v = some c → c ≠ 0) ∧
    (Expression.isNumber e = true ↔ ∀ value value', f.value value = f.value value') ∧
    (∀ v, v ∈ Expression.vars e ↔ DependsOn (fun value => f.value value) v) ∧
    ∀ (g : Formula Rat) (e' : Expression Rat), g.build = .ok e' →
      (e = e' ↔ ∀ value, f.value value = g.value value) ∧
      ∀ comparison, (Relation.vars ⟨e, comparison, e'⟩).Nodup ∧
        ∀ v, v ∈ Relation.vars ⟨e, comparison, e'⟩
          ↔ DependsOn (fun value => f.value value - g.value value) v := by
  have hvalue : ∀ value, e.evaluate value = f.value value :=
    fun value => f.evaluate_build value hf
  have hpruned : e.Pruned := f.pruned_build hf
  refine ⟨hvalue, hpruned, ?_, fun v => ?_, fun g e' hg => ⟨⟨?_, fun hsame => ?_⟩, fun c => ?_⟩⟩
  · rw [Expression.isNumber_iff_evaluate_eq hpruned]
    simp only [hvalue]
  · rw [Expression.mem_vars_iff_dependsOn hpruned]
    simp only [hvalue]
  · rintro rfl value
    rw [← hvalue, g.evaluate_build value hg]
  · refine hpruned.eq_of_evaluate_eq (g.pruned_build hg) fun value => ?_
    rw [hvalue, hsame, g.evaluate_build value hg]
  · refine ⟨OrderedMap.nodup_keys _, fun v => ?_⟩
    refine (Expression.mem_vars_iff_dependsOn (Expression.pruned_minus hpruned e')).trans ?_
    simp only [Expression.evaluate_minus, hvalue, g.evaluate_build _ hg]

end AnyTolerance

open Exact

/-- A formula in which one variable cancels out and another comes twice. -/
def Formula.cancelling : Formula Rat :=
  .divide (.minus (.scale 2 (.plus (.var 0) (.var 1))) (.plus (.var 0) (.var 0))) (.number 4)

/-- The same said term by term. -/
def Formula.halved : Formula Rat := .terms [(0, 1), (1, 1 / 4), (0, -1), (1, 1 / 4)] 0

/-- Both build half of the variable that is left, and the other one makes no
    difference to them. -/
theorem Formula.build_canonical_cancelling :
    ∃ e, cancelling.build = .ok e ∧ halved.build = .ok e ∧ Expression.vars e = [1] ∧
      (∀ value, cancelling.value value = halved.value value) ∧
      DependsOn (fun value => cancelling.value value) 1 ∧
      ¬ DependsOn (fun value => cancelling.value value) 0 := by
  have hc : cancelling.build = .ok ⟨0, (∅ : OrderedMap VariableId Rat).insert 1 (1 / 2)⟩ := by
    decide +kernel
  have hh : halved.build = .ok ⟨0, (∅ : OrderedMap VariableId Rat).insert 1 (1 / 2)⟩ := by
    decide +kernel
  obtain ⟨-, -, -, hvars, hcanonical⟩ := build_canonical hc
  refine ⟨_, hc, hh, rfl, (hcanonical _ _ hh).1.mp rfl, (hvars 1).mp (by decide), ?_⟩
  exact fun h => absurd ((hvars 0).mpr h) (by decide)

end LinearConstraints
