import LinearConstraints.Expression.Formula
import LinearConstraints.Proofs.Form.Evaluation
import LinearConstraints.Relation.Basic

/-! # Building an expression keeps its meaning

    Over fractions every operation on expressions does to their values what
    its name says: dropping a coefficient that has become zero takes nothing
    away.  So a formula that can be built at all is worth, under any values of
    the variables, what its operations come to when they are carried out on
    numbers. -/

namespace LinearConstraints

variable [Tolerance]

namespace Expression

theorem eq_zero_of_vanishes {c : Rat} (h : vanishes c = true) : c = 0 := eq_of_beq h

section Values

variable (value : VariableId → Rat)

theorem evaluate_ofNumber (c : Rat) : (ofNumber c).evaluate value = c := rfl

theorem evaluate_ofVariable (v : VariableId) : (ofVariable v).evaluate value = value v := by
  show 0 + 1 * value v = value v
  ring

theorem evaluate_ofTerms (terms : List (VariableId × Rat)) (constant : Rat) :
    (ofTerms terms constant).evaluate value
      = terms.foldl (fun sum t => sum + t.2 * value t.1) constant := by
  have hfold : ∀ start : Expression Rat,
      (terms.foldl (fun sum t => sum.addTerm vanishes t.1 t.2) start).evaluate value
        = terms.foldl (fun sum t => sum + t.2 * value t.1) (start.evaluate value) := by
    induction terms with
    | nil =>
        intro start
        rfl
    | cons t rest ih =>
        intro start
        rw [List.foldl_cons, ih, LinearForm.evaluate_addTerm fun _ => eq_zero_of_vanishes]
        rfl
  exact hfold _

theorem evaluate_plus (a b : Expression Rat) :
    (plus a b).evaluate value = a.evaluate value + b.evaluate value := by
  simp only [plus]
  rw [LinearForm.evaluate_addMultiple fun _ => eq_zero_of_vanishes, mul_one]

theorem evaluate_minus (a b : Expression Rat) :
    (minus a b).evaluate value = a.evaluate value - b.evaluate value := by
  simp only [minus]
  rw [LinearForm.evaluate_addMultiple fun _ => eq_zero_of_vanishes]
  ring

theorem evaluate_scale (factor : Rat) (e : Expression Rat) :
    (scale factor e).evaluate value = e.evaluate value * factor := by
  simp only [scale]
  rw [LinearForm.evaluate_foldl value factor fun sum v c =>
      LinearForm.evaluate_addTerm (fun _ => eq_zero_of_vanishes) value sum v (c * factor),
    evaluate_ofNumber, LinearForm.evaluate_eq value e]
  ring

/-- An expression without variables is worth its constant. -/
theorem evaluate_of_isNumber {e : Expression Rat} (h : isNumber e = true) :
    e.evaluate value = e.constant :=
  LinearForm.evaluate_eq_constant fun v hv => absurd hv (OrderedMap.isEmpty_iff.mp h v)

theorem evaluate_times {a b e : Expression Rat} (h : times a b = .ok e) :
    e.evaluate value = a.evaluate value * b.evaluate value := by
  unfold times at h
  split at h
  · next ha =>
      obtain rfl := Except.ok.inj h
      rw [evaluate_scale, evaluate_of_isNumber value ha, mul_comm]
  · split at h
    · next hb =>
        obtain rfl := Except.ok.inj h
        rw [evaluate_scale, evaluate_of_isNumber value hb]
    · cases h

theorem evaluate_divide {a b e : Expression Rat} (h : divide a b = .ok e) :
    e.evaluate value = a.evaluate value / b.evaluate value := by
  unfold divide at h
  split at h
  · next hb =>
      split at h
      · cases h
      · obtain rfl := Except.ok.inj h
        rw [evaluate_scale, evaluate_of_isNumber value hb, mul_one_div]
  · cases h

end Values

end Expression

/-- The normal form is the difference of the sides. -/
theorem Relation.evaluate_normal (r : Relation Rat) (value : VariableId → Rat) :
    r.normal.evaluate value = r.lhs.evaluate value - r.rhs.evaluate value :=
  Expression.evaluate_minus value r.lhs r.rhs

/-- What a relation says of its normal form. -/
theorem Relation.holds_iff {r : Relation Rat} {value : VariableId → Rat} :
    r.Holds value ↔
      match r.comparison with
      | .equal => r.normal.evaluate value = 0
      | .atMost => r.normal.evaluate value ≤ 0
      | .atLeast => 0 ≤ r.normal.evaluate value := by
  rw [evaluate_normal]
  simp only [Relation.Holds]
  cases r.comparison with
  | equal => exact sub_eq_zero.symm
  | atMost => exact sub_nonpos.symm
  | atLeast => exact sub_nonneg.symm

end LinearConstraints
