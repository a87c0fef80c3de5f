import LinearConstraints.Proofs.Form.Mentions
import LinearConstraints.Scalar.Rational
import Mathlib.Algebra.BigOperators.Group.List.Basic
import Mathlib.Algebra.Order.Field.Rat
import Mathlib.Tactic.FieldSimp
import Mathlib.Tactic.Linarith
import Mathlib.Tactic.LinearCombination
import Mathlib.Tactic.Ring

/-! # The value of a form over fractions

    Over fractions a form has the value of its constant plus the total of its
    terms, and every operation that drops nothing but zeros does to values
    what its name says.  Two facts carry the rest: placing an entry changes
    the total by the difference to the old coefficient, and striking an entry
    out takes its share away. -/

namespace LinearConstraints.LinearForm

/-! ## Totals of entry lists -/

section Totals

variable {κ : Type}

/-- The sum of coefficients times values. -/
def total (value : κ → Rat) (l : List (κ × Rat)) : Rat :=
  (l.map fun a => a.2 * value a.1).sum

@[simp] theorem total_nil (value : κ → Rat) : total value [] = 0 := rfl

@[simp] theorem total_cons (value : κ → Rat) (a : κ × Rat) (l : List (κ × Rat)) :
    total value (a :: l) = a.2 * value a.1 + total value l := by
  simp [total]

/-- Rescaled coefficients rescale the total, also under new names of the
    unknowns. -/
theorem total_map_mul {ι : Type} (value : κ → Rat) (name : ι → κ) (factor : Rat)
    (l : List (ι × Rat)) :
    total value (l.map fun a => (name a.1, a.2 * factor))
      = total (fun i => value (name i)) l * factor := by
  induction l with
  | nil => simp
  | cons a l ih =>
      rw [List.map_cons, total_cons, total_cons, ih]
      ring

theorem total_append (value : κ → Rat) (l₁ l₂ : List (κ × Rat)) :
    total value (l₁ ++ l₂) = total value l₁ + total value l₂ := by
  simp [total]

/-- Values add up. -/
theorem total_add (value value' : κ → Rat) (l : List (κ × Rat)) :
    total (fun k => value k + value' k) l
      = total value l + total value' l := by
  induction l with
  | nil => simp
  | cons a l ih =>
      rw [total_cons, total_cons, total_cons, ih]
      ring

variable [Ord κ]

private theorem lookup_eq_none_of_lt {k : κ} {l : List (κ × Rat)}
    (h : ∀ a ∈ l, compare k a.1 = .lt) : OrderedMap.lookup k l = none :=
  OrderedMap.lookup_eq_none fun a ha he => by
    rw [h a ha] at he
    exact nomatch he

variable [Std.LawfulEqOrd κ]

theorem total_strike (value : κ → Rat) (k : κ) :
    ∀ {l : List (κ × Rat)}, l.Pairwise (fun a b => compare a.1 b.1 = .lt) →
      total value (l.filter fun a => compare k a.1 ≠ .eq)
        = total value l - (OrderedMap.lookup k l).getD 0 * value k := by
  intro l
  induction l with
  | nil =>
      intro _
      simp [OrderedMap.lookup]
  | cons b rest ih =>
      obtain ⟨k', c'⟩ := b
      intro h
      obtain ⟨hk, hrest⟩ := List.pairwise_cons.mp h
      by_cases hc : compare k k' = .eq
      · have hkey : k = k' := Std.LawfulEqCmp.eq_of_compare hc
        subst hkey
        rw [List.filter_cons_of_neg (by simp), ih hrest, lookup_eq_none_of_lt hk]
        simp only [OrderedMap.lookup, if_pos hc, total_cons, Option.getD_some, Option.getD_none]
        ring
      · rw [List.filter_cons_of_pos (by simpa using hc), total_cons, ih hrest]
        simp only [OrderedMap.lookup, if_neg hc, total_cons]
        ring

variable [Std.TransOrd κ]

theorem total_place (value : κ → Rat) (k : κ) (c : Rat) :
    ∀ {l : List (κ × Rat)}, l.Pairwise (fun a b => compare a.1 b.1 = .lt) →
      total value (OrderedMap.place k c l)
        = total value l + (c - (OrderedMap.lookup k l).getD 0) * value k := by
  intro l
  induction l with
  | nil =>
      intro _
      simp [OrderedMap.place, OrderedMap.lookup]
  | cons b rest ih =>
      obtain ⟨k', c'⟩ := b
      intro h
      obtain ⟨hk, hrest⟩ := List.pairwise_cons.mp h
      simp only [OrderedMap.place]
      split
      · next hlt =>
          have hnone : OrderedMap.lookup k ((k', c') :: rest) = none := by
            refine lookup_eq_none_of_lt fun a ha => ?_
            rcases List.mem_cons.mp ha with rfl | ha
            · exact hlt
            · exact Std.TransCmp.lt_trans hlt (hk a ha)
          rw [hnone]
          simp [add_comm]
      · next heq =>
          have hkey : k = k' := Std.LawfulEqCmp.eq_of_compare heq
          subst hkey
          simp only [OrderedMap.lookup, if_pos heq, total_cons, Option.getD_some]
          ring
      · next hgt =>
          have hne : compare k k' ≠ .eq := by rw [hgt]; decide
          simp only [OrderedMap.lookup, if_neg hne, total_cons, ih hrest]
          ring

end Totals

/-! ## Values of forms -/

variable [Tolerance] {κ : Type} [Ord κ]

theorem evaluate_eq (value : κ → Rat) (f : LinearForm κ Rat) :
    f.evaluate value = f.constant + total value f.terms.entries := by
  show f.terms.entries.foldl (fun acc a => acc + a.2 * value a.1) f.constant = _
  generalize f.constant = c
  induction f.terms.entries generalizing c with
  | nil => simp
  | cons a l ih =>
      rw [List.foldl_cons, ih, total_cons]
      ring

@[simp] theorem evaluate_ofConstant (value : κ → Rat) (c : Rat) :
    (ofConstant c : LinearForm κ Rat).evaluate value = c := rfl

/-- Where all unknowns that occur are zero, the form is worth its constant. -/
theorem evaluate_eq_constant [Std.LawfulEqOrd κ] {value : κ → Rat} {f : LinearForm κ Rat}
    (h : ∀ k, f.mentions k = true → value k = 0) : f.evaluate value = f.constant := by
  rw [evaluate_congr h, evaluate_eq, total]
  simp

/-- A fold whose steps each add a multiple of a weight adds up to the weighted
    sum of the entries. -/
theorem evaluate_foldl {ι : Type} [Ord ι] {value : κ → Rat} (weight : ι → Rat) (factor : Rat)
    {f : LinearForm κ Rat → ι → Rat → LinearForm κ Rat}
    (hstep : ∀ sum i c, (f sum i c).evaluate value
      = sum.evaluate value + c * factor * weight i) (m : OrderedMap ι Rat)
    (start : LinearForm κ Rat) :
    (m.foldl f start).evaluate value
      = start.evaluate value + total weight m.entries * factor := by
  simp only [OrderedMap.foldl]
  generalize m.entries = l
  induction l generalizing start with
  | nil => simp
  | cons a l ih =>
      rw [List.foldl_cons, ih, hstep, total_cons]
      ring

section Change

variable [Std.TransOrd κ] [Std.LawfulEqOrd κ]

theorem evaluate_insert (value : κ → Rat) (f : LinearForm κ Rat) (k : κ) (c : Rat) :
    LinearForm.evaluate value { f with terms := f.terms.insert k c }
      = f.evaluate value + (c - f.coefficient k) * value k := by
  rw [evaluate_eq, evaluate_eq]
  show _ + total value (OrderedMap.place k c f.terms.entries) = _
  rw [total_place value k c f.terms.ascending]
  show _ = f.constant + _ + (c - (OrderedMap.lookup k f.terms.entries).getD 0) * value k
  ring

omit [Std.TransOrd κ] in
theorem evaluate_erase (value : κ → Rat) (f : LinearForm κ Rat) (k : κ) :
    LinearForm.evaluate value { f with terms := f.terms.erase k }
      = f.evaluate value - f.coefficient k * value k := by
  rw [evaluate_eq, evaluate_eq]
  show _ + total value (f.terms.entries.filter fun a => compare k a.1 ≠ .eq) = _
  rw [total_strike value k f.terms.ascending]
  show _ = f.constant + _ - (OrderedMap.lookup k f.terms.entries).getD 0 * value k
  ring

omit [Std.TransOrd κ] in
/-- Changing one value changes a form by its coefficient. -/
theorem evaluate_update [DecidableEq κ] (value : κ → Rat) (f : LinearForm κ Rat) (k : κ)
    (x : Rat) :
    f.evaluate (Function.update value k x)
      = f.evaluate value + f.coefficient k * (x - value k) := by
  have hrest : LinearForm.evaluate (Function.update value k x) { f with terms := f.terms.erase k }
      = LinearForm.evaluate value { f with terms := f.terms.erase k } := by
    refine evaluate_congr fun u hu => ?_
    exact Function.update_of_ne (OrderedMap.mem_erase_iff.mp hu).1 ..
  rw [evaluate_erase, evaluate_erase, Function.update_self] at hrest
  linear_combination hrest

variable {drop : Rat → Bool}

theorem evaluate_addTerm (hdrop : ∀ c, drop c = true → c = 0) (value : κ → Rat)
    (f : LinearForm κ Rat) (k : κ) (c : Rat) :
    (f.addTerm drop k c).evaluate value = f.evaluate value + c * value k := by
  simp only [addTerm]
  split
  · next h =>
      have hsum : f.coefficient k + c = 0 := hdrop _ h
      rw [evaluate_erase]
      linear_combination -value k * hsum
  · rw [evaluate_insert value f k]
    ring

theorem evaluate_addMultiple (hdrop : ∀ c, drop c = true → c = 0) (value : κ → Rat)
    (f g : LinearForm κ Rat) (factor : Rat) :
    (f.addMultiple drop g factor).evaluate value
      = f.evaluate value + g.evaluate value * factor := by
  have hstart : LinearForm.evaluate value { f with constant := f.constant + g.constant * factor }
      = f.evaluate value + g.constant * factor := by
    rw [evaluate_eq, evaluate_eq]
    ring
  simp only [addMultiple]
  rw [evaluate_foldl value factor fun sum k c => evaluate_addTerm hdrop value sum k _,
    hstart, evaluate_eq value g]
  ring

end Change

end LinearConstraints.LinearForm
