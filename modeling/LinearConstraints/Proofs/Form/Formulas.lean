import LinearConstraints.Proofs.Row.Arithmetic
import LinearConstraints.World.History

/-! # Formulas build expressions without zero coefficients

    Every operation on expressions drops the coefficients that come out as
    zero, so nothing that a caller can build has any.  Two simple kinds of
    relations are built at the end, for the worlds that show what can happen. -/

namespace LinearConstraints

section AnyScalar

variable {α : Type} [Scalar α]

namespace Expression

/-- Whether no coefficient is one that an expression does not keep. -/
def Sparse (e : Expression α) : Prop := ∀ v c, e.terms.get? v = some c → vanishes c = false

theorem Sparse.addTerm {e : Expression α} (he : e.Sparse) (v : VariableId) (c : α) :
    Sparse (LinearForm.addTerm vanishes e v c) := by
  intro u d hu
  rcases LinearForm.get?_of_addTerm hu with hu | hkeep
  · exact he u d hu
  · exact hkeep

theorem Sparse.addMultiple {e : Expression α} (he : e.Sparse) (e' : Expression α) (factor : α) :
    Sparse (LinearForm.addMultiple vanishes e e' factor) :=
  OrderedMap.foldl_induction (P := Sparse) he fun _ v c _ h => h.addTerm v (c * factor)

theorem sparse_ofNumber (c : α) : (ofNumber c).Sparse := by
  intro v d h
  exact nomatch h

theorem sparse_ofVariable (hone : vanishes (1 : α) = false) (v : VariableId) :
    (ofVariable v : Expression α).Sparse := by
  intro u c hu
  by_cases h : u = v
  · subst h
    have hc := (OrderedMap.get?_insert_self ..).symm.trans hu
    rw [← Option.some.inj hc]
    exact hone
  · exact nomatch (OrderedMap.get?_insert_of_ne _ _ h).symm.trans hu

theorem sparse_ofTerms (terms : List (VariableId × α)) (constant : α) :
    (ofTerms terms constant).Sparse :=
  List.foldlRecOn terms _ (sparse_ofNumber constant) fun _ h a _ => Sparse.addTerm h a.1 a.2

theorem sparse_scale (factor : α) (e : Expression α) : (scale factor e).Sparse :=
  OrderedMap.foldl_induction (P := Sparse) (sparse_ofNumber _) fun _ v c _ h =>
    h.addTerm v (c * factor)

theorem sparse_plus {a : Expression α} (ha : a.Sparse) (b : Expression α) : (plus a b).Sparse :=
  ha.addMultiple b 1

theorem sparse_minus {a : Expression α} (ha : a.Sparse) (b : Expression α) :
    (minus a b).Sparse :=
  ha.addMultiple b (-1)

theorem sparse_times {a b e : Expression α} (h : times a b = .ok e) : e.Sparse := by
  unfold times at h
  split at h
  · obtain rfl := Except.ok.inj h
    exact sparse_scale _ _
  · split at h
    · obtain rfl := Except.ok.inj h
      exact sparse_scale _ _
    · exact nomatch h

theorem sparse_divide {a b e : Expression α} (h : divide a b = .ok e) : e.Sparse := by
  unfold divide at h
  split at h
  · split at h
    · exact nomatch h
    · obtain rfl := Except.ok.inj h
      exact sparse_scale _ _
  · exact nomatch h

end Expression

/-- What comes out of two steps came through both of them. -/
theorem exists_of_bind {ε β γ : Type} {x : Except ε β} {f : β → Except ε γ} {c : γ}
    (h : x >>= f = .ok c) : ∃ b, x = .ok b ∧ f b = .ok c := by
  cases x with
  | ok b => exact ⟨b, rfl, h⟩
  | error e => exact nomatch h

/-- Formulas build expressions without vanishing coefficients, as long as one is
    none. -/
theorem Formula.sparse_build (hone : Expression.vanishes (1 : α) = false) (f : Formula α) :
    ∀ {e : Expression α}, f.build = .ok e → e.Sparse := by
  induction f with
  | number c =>
      intro e h
      obtain rfl := Except.ok.inj h
      exact Expression.sparse_ofNumber c
  | var v =>
      intro e h
      obtain rfl := Except.ok.inj h
      exact Expression.sparse_ofVariable hone v
  | terms list constant =>
      intro e h
      obtain rfl := Except.ok.inj h
      exact Expression.sparse_ofTerms list constant
  | plus a b iha ihb =>
      intro e h
      obtain ⟨x, hx, h⟩ := exists_of_bind h
      obtain ⟨y, -, h⟩ := exists_of_bind h
      obtain rfl := Except.ok.inj h
      exact Expression.sparse_plus (iha hx) y
  | minus a b iha ihb =>
      intro e h
      obtain ⟨x, hx, h⟩ := exists_of_bind h
      obtain ⟨y, -, h⟩ := exists_of_bind h
      obtain rfl := Except.ok.inj h
      exact Expression.sparse_minus (iha hx) y
  | times a b iha ihb =>
      intro e h
      obtain ⟨x, -, h⟩ := exists_of_bind h
      obtain ⟨y, -, h⟩ := exists_of_bind h
      exact Expression.sparse_times h
  | divide a b iha ihb =>
      intro e h
      obtain ⟨x, -, h⟩ := exists_of_bind h
      obtain ⟨y, -, h⟩ := exists_of_bind h
      exact Expression.sparse_divide h
  | negate a iha =>
      intro e h
      obtain ⟨x, -, h⟩ := exists_of_bind h
      obtain rfl := Except.ok.inj h
      exact Expression.sparse_scale _ x
  | scale factor a iha =>
      intro e h
      obtain ⟨x, -, h⟩ := exists_of_bind h
      obtain rfl := Except.ok.inj h
      exact Expression.sparse_scale factor x

end AnyScalar

/-! ## Fractions -/

variable [Tolerance]

namespace Expression

/-- Over fractions just zero vanishes. -/
theorem sparse_iff_pruned {e : Expression Rat} : e.Sparse ↔ e.Pruned := by
  simp only [Sparse, LinearForm.Pruned, vanishes, beq_eq_false_iff_ne]

theorem pruned_minus {a : Expression Rat} (ha : a.Pruned) (b : Expression Rat) :
    (minus a b).Pruned :=
  sparse_iff_pruned.mp (sparse_minus (sparse_iff_pruned.mpr ha) b)

end Expression

/-- Formulas build expressions without zero coefficients. -/
theorem Formula.pruned_build (f : Formula Rat) {e : Expression Rat} (h : f.build = .ok e) :
    e.Pruned :=
  Expression.sparse_iff_pruned.mp (f.sparse_build rfl h)

/-- The normal form of a relation between formulas has no zero coefficient. -/
theorem Relation.Formulated.pruned_normal {r : Relation Rat} (h : r.Formulated) :
    r.normal.Pruned := by
  obtain ⟨⟨f, hf⟩, -⟩ := h
  exact Expression.pruned_minus (f.pruned_build hf) r.rhs

/-! ## Relations of one or two variables -/

/-- A multiple of a variable is compared with a number. -/
def Relation.limit (factor : Rat) (v : VariableId) (c : Comparison) (bound : Rat) :
    Relation Rat :=
  ⟨Expression.scale factor (Expression.ofVariable v), c, Expression.ofNumber bound⟩

/-- One variable is a multiple of another. -/
def Relation.proportional (v : VariableId) (factor : Rat) (u : VariableId) : Relation Rat :=
  ⟨Expression.ofVariable v, .equal, Expression.scale factor (Expression.ofVariable u)⟩

theorem Relation.formulated_limit (factor : Rat) (v : VariableId) (c : Comparison)
    (bound : Rat) : (Relation.limit factor v c bound).Formulated :=
  ⟨⟨.scale factor (.var v), rfl⟩, ⟨.number bound, rfl⟩⟩

theorem Relation.formulated_proportional (v : VariableId) (factor : Rat) (u : VariableId) :
    (Relation.proportional v factor u).Formulated :=
  ⟨⟨.var v, rfl⟩, ⟨.scale factor (.var u), rfl⟩⟩

end LinearConstraints
