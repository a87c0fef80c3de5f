import LinearConstraints.Proofs.Form.Canonical

/-! # Which formulas can be built

    Building carries the nodes of a formula out one after the other, operands
    first and the left one before the right one.  It looks at the terms that
    are stored, but as built expressions are canonical it sees what their
    formulas stand for: a product is refused if both factors vary with the
    values of the variables, and a quotient if its divisor varies or is zero,
    no matter how they are written.  So building fails exactly if some node
    offends, and the error is that of the first one. -/

namespace LinearConstraints

namespace Formula

/-- The nodes of a formula in the order in which they are carried out. -/
def nodes {α : Type} : Formula α → List (Formula α)
  | .number c => [.number c]
  | .var v => [.var v]
  | .terms list constant => [.terms list constant]
  | .plus a b => a.nodes ++ (b.nodes ++ [.plus a b])
  | .minus a b => a.nodes ++ (b.nodes ++ [.minus a b])
  | .times a b => a.nodes ++ (b.nodes ++ [.times a b])
  | .divide a b => a.nodes ++ (b.nodes ++ [.divide a b])
  | .negate a => a.nodes ++ [.negate a]
  | .scale factor a => a.nodes ++ [.scale factor a]

variable [Tolerance]

/-- Whether what a formula comes to changes with the values of the variables. -/
def Varies (f : Formula Rat) : Prop := ∃ value value', f.value value ≠ f.value value'

/-- Whether a node has no linear result, by what its operands stand for, and the
    error to be reported. -/
inductive Offends : Formula Rat → FormulationError → Prop where
  /-- Both factors vary. -/
  | product {a b : Formula Rat} : a.Varies → b.Varies →
      Offends (.times a b) (.nonlinear .times)
  /-- The divisor varies. -/
  | divisor {a b : Formula Rat} : b.Varies → Offends (.divide a b) (.nonlinear .divide)
  /-- The divisor is zero. -/
  | zero {a b : Formula Rat} : (∀ value, b.value value = 0) →
      Offends (.divide a b) .divisionByZero

/-- Whether no node of a list offends. -/
def Clear (l : List (Formula Rat)) : Prop := ∀ f ∈ l, ∀ reason, ¬ f.Offends reason

/-- Whether some node of a list offends, and the first one with this error. -/
inductive FirstOffence : List (Formula Rat) → FormulationError → Prop where
  /-- The first node offends. -/
  | here {f : Formula Rat} {l : List (Formula Rat)} {reason : FormulationError} :
      f.Offends reason → FirstOffence (f :: l) reason
  /-- The first node does not offend, and another one does. -/
  | later {f : Formula Rat} {l : List (Formula Rat)} {reason : FormulationError} :
      (∀ reason', ¬ f.Offends reason') → FirstOffence l reason → FirstOffence (f :: l) reason

/-! ## Lists of nodes -/

/-- What is always zero does not vary. -/
theorem not_varies_of_eq_zero {f : Formula Rat} (h : ∀ value, f.value value = 0) :
    ¬ f.Varies := by
  rintro ⟨value, value', hne⟩
  exact hne ((h value).trans (h value').symm)

/-- A node offends in one way only. -/
theorem Offends.unique {f : Formula Rat} {reason reason' : FormulationError}
    (h : f.Offends reason) (h' : f.Offends reason') : reason = reason' := by
  cases h with
  | product => cases h' with
    | product => rfl
  | divisor hvaries => cases h' with
    | divisor => rfl
    | zero hzero => exact absurd hvaries (not_varies_of_eq_zero hzero)
  | zero hzero => cases h' with
    | divisor hvaries => exact absurd hvaries (not_varies_of_eq_zero hzero)
    | zero => rfl

theorem FirstOffence.unique {l : List (Formula Rat)} {reason reason' : FormulationError}
    (h : FirstOffence l reason) (h' : FirstOffence l reason') : reason = reason' := by
  induction h with
  | here hf => cases h' with
    | here hf' => exact hf.unique hf'
    | later hclear => exact absurd hf (hclear _)
  | later hclear _ ih => cases h' with
    | here hf => exact absurd hf (hclear _)
    | later _ h' => exact ih h'

theorem FirstOffence.not_clear {l : List (Formula Rat)} {reason : FormulationError}
    (h : FirstOffence l reason) : ¬ Clear l := by
  induction h with
  | here hf => exact fun hclear => hclear _ (List.mem_cons_self ..) _ hf
  | later _ _ ih => exact fun hclear => ih fun f hf => hclear f (List.mem_cons_of_mem _ hf)

theorem Clear.append {l m : List (Formula Rat)} (hl : Clear l) (hm : Clear m) :
    Clear (l ++ m) := by
  intro f hf
  rcases List.mem_append.mp hf with hf | hf
  · exact hl f hf
  · exact hm f hf

/-- An offence stays the first one, whatever comes after it. -/
theorem FirstOffence.append_right {l : List (Formula Rat)} {reason : FormulationError}
    (h : FirstOffence l reason) (m : List (Formula Rat)) : FirstOffence (l ++ m) reason := by
  induction h with
  | here hf => exact .here hf
  | later hclear _ ih => exact .later hclear ih

/-- Nodes that do not offend can come before the first offence. -/
theorem FirstOffence.append_left {l m : List (Formula Rat)} {reason : FormulationError}
    (hl : Clear l) (h : FirstOffence m reason) : FirstOffence (l ++ m) reason := by
  induction l with
  | nil => exact h
  | cons f l ih =>
      exact .later (hl f (List.mem_cons_self ..))
        (ih fun g hg => hl g (List.mem_cons_of_mem _ hg))

/-! ## Results of carrying nodes out -/

/-- Whether a result is the one to be expected of a list of nodes: an error if
    one of them offends, and then that of the first. -/
def Reports {β : Type} (l : List (Formula Rat)) : Except FormulationError β → Prop
  | .ok _ => Clear l
  | .error reason => FirstOffence l reason

/-- Further nodes are carried out if those before do not offend. -/
theorem Reports.bind {β γ : Type} {l m : List (Formula Rat)} {x : Except FormulationError β}
    {next : β → Except FormulationError γ} (hx : Reports l x)
    (hnext : ∀ b, x = .ok b → Reports m (next b)) : Reports (l ++ m) (x >>= next) := by
  cases x with
  | error reason => exact FirstOffence.append_right hx m
  | ok b =>
      have hm := hnext b rfl
      show Reports (l ++ m) (next b)
      cases hb : next b with
      | error reason =>
          rw [hb] at hm
          exact FirstOffence.append_left hx hm
      | ok c =>
          rw [hb] at hm
          exact Clear.append hx hm

/-- A node that never offends can be carried out. -/
theorem reports_pure {β : Type} {f : Formula Rat} (h : ∀ reason, ¬ f.Offends reason) (b : β) :
    Reports [f] (pure b : Except FormulationError β) := by
  intro g hg
  obtain rfl := List.mem_singleton.mp hg
  exact h

/-- What a formula builds is a number just when the formula does not vary. -/
theorem isNumber_iff_not_varies {f : Formula Rat} {e : Expression Rat} (h : f.build = .ok e) :
    Expression.isNumber e = true ↔ ¬ f.Varies := by
  rw [Expression.isNumber_iff_evaluate_eq (f.pruned_build h)]
  simp only [f.evaluate_build _ h, Varies, not_exists, ne_eq, not_not]

theorem reports_times {a b : Formula Rat} {x y : Expression Rat} (hx : a.build = .ok x)
    (hy : b.build = .ok y) : Reports [.times a b] (Expression.times x y) := by
  have ha := isNumber_iff_not_varies hx
  have hb := isNumber_iff_not_varies hy
  unfold Expression.times
  split
  · next hnumber =>
      refine reports_pure (fun reason h => ?_) _
      cases h with
      | product hvaries _ => exact ha.mp hnumber hvaries
  · next hterms =>
      split
      · next hnumber =>
          refine reports_pure (fun reason h => ?_) _
          cases h with
          | product _ hvaries => exact hb.mp hnumber hvaries
      · next hterms' =>
          exact .here (.product (not_not.mp fun h => hterms (ha.mpr h))
            (not_not.mp fun h => hterms' (hb.mpr h)))

theorem reports_divide {a b : Formula Rat} {x y : Expression Rat} (hy : b.build = .ok y) :
    Reports [.divide a b] (Expression.divide x y) := by
  have hb := isNumber_iff_not_varies hy
  have hvalue : Expression.isNumber y = true → ∀ value, b.value value = y.constant :=
    fun hnumber value => by
      rw [← b.evaluate_build value hy, Expression.evaluate_of_isNumber value hnumber]
  unfold Expression.divide
  split
  · next hnumber =>
      split
      · next hzero =>
          refine .here (.zero fun value => ?_)
          rw [hvalue hnumber, eq_of_beq hzero]
      · next hne =>
          refine reports_pure (fun reason h => ?_) _
          cases h with
          | divisor hvaries => exact hb.mp hnumber hvaries
          | zero hzero =>
              refine hne (beq_iff_eq.mpr ?_)
              rw [← hvalue hnumber fun _ => 0, hzero]
  · next hterms => exact .here (.divisor (not_not.mp fun h => hterms (hb.mpr h)))

/-- Building a formula comes to what is to be expected of its nodes. -/
theorem reports_build (f : Formula Rat) : Reports f.nodes f.build := by
  induction f with
  | number c => exact reports_pure (by rintro reason ⟨⟩) _
  | var v => exact reports_pure (by rintro reason ⟨⟩) _
  | terms list constant => exact reports_pure (by rintro reason ⟨⟩) _
  | plus a b iha ihb =>
      exact iha.bind fun x _ => ihb.bind fun y _ => reports_pure (by rintro reason ⟨⟩) _
  | minus a b iha ihb =>
      exact iha.bind fun x _ => ihb.bind fun y _ => reports_pure (by rintro reason ⟨⟩) _
  | times a b iha ihb => exact iha.bind fun x hx => ihb.bind fun y hy => reports_times hx hy
  | divide a b iha ihb => exact iha.bind fun x _ => ihb.bind fun y hy => reports_divide hy
  | negate a iha => exact iha.bind fun x _ => reports_pure (by rintro reason ⟨⟩) _
  | scale factor a iha => exact iha.bind fun x _ => reports_pure (by rintro reason ⟨⟩) _

/-! ## The result of building -/

theorem Reports.exists_ok_iff {β : Type} {l : List (Formula Rat)}
    {x : Except FormulationError β} (h : Reports l x) : (∃ b, x = .ok b) ↔ Clear l := by
  cases x with
  | ok b => exact ⟨fun _ => h, fun _ => ⟨b, rfl⟩⟩
  | error reason => exact ⟨fun ⟨_, hb⟩ => (nomatch hb), fun hl => absurd hl h.not_clear⟩

theorem Reports.eq_error_iff {β : Type} {l : List (Formula Rat)}
    {x : Except FormulationError β} (h : Reports l x) (reason : FormulationError) :
    x = .error reason ↔ FirstOffence l reason := by
  cases x with
  | ok b => exact ⟨fun hb => (nomatch hb), fun hl => absurd h hl.not_clear⟩
  | error reason' =>
      exact ⟨fun hr => Except.error.inj hr ▸ h, fun hl => congrArg _ (h.unique hl)⟩

/-- The nodes of an operation on two formulas that can be built are clear if the
    operation itself does not offend. -/
theorem clear_of_build {a b f : Formula Rat} {x y : Expression Rat} (ha : a.build = .ok x)
    (hb : b.build = .ok y) (hf : ∀ reason, ¬ f.Offends reason) :
    Clear (a.nodes ++ (b.nodes ++ [f])) := by
  have hx := a.reports_build.exists_ok_iff.mp ⟨x, ha⟩
  have hy := b.reports_build.exists_ok_iff.mp ⟨y, hb⟩
  exact hx.append (hy.append fun g hg => List.mem_singleton.mp hg ▸ hf)

/-- A formula can be built exactly if none of its nodes offends, and otherwise
    the error is that of the first one, in the order in which they are carried
    out.  So a formula that does not vary is as good as a number, even if it
    mentions variables: it can be a factor of anything, and a divisor as well
    unless it is zero. -/
theorem build_fails_iff (f : Formula Rat) :
    ((∃ e, f.build = .ok e) ↔ Clear f.nodes) ∧
    (∀ reason, f.build = .error reason ↔ FirstOffence f.nodes reason) ∧
    ∀ e, f.build = .ok e → ¬ f.Varies → ∀ g x, g.build = .ok x →
      (∃ y, (times f g).build = .ok y) ∧ (∃ y, (times g f).build = .ok y) ∧
      ((∃ y, (divide g f).build = .ok y) ∨ ∀ value, f.value value = 0) := by
  refine ⟨f.reports_build.exists_ok_iff, f.reports_build.eq_error_iff, ?_⟩
  intro e he hf g x hg
  refine ⟨?_, ?_, or_iff_not_imp_right.mpr fun hzero => ?_⟩
  · refine (times f g).reports_build.exists_ok_iff.mpr (clear_of_build he hg ?_)
    rintro _ (⟨hvaries, -⟩ | _ | _)
    exact hf hvaries
  · refine (times g f).reports_build.exists_ok_iff.mpr (clear_of_build hg he ?_)
    rintro _ (⟨-, hvaries⟩ | _ | _)
    exact hf hvaries
  · refine (divide g f).reports_build.exists_ok_iff.mpr (clear_of_build hg he ?_)
    rintro _ (_ | hvaries | hzero')
    · exact hf hvaries
    · exact hzero hzero'

end Formula

open Exact

namespace Formula

/-- A difference in which the variable cancels out. -/
def nothing : Formula Rat := .minus (.var 0) (.var 0)

/-- A product with a factor that cancels out, then a quotient by zero, and after
    it the product of a variable with itself. -/
def careless : Formula Rat :=
  .plus (.plus (.times nothing (.var 1)) (.divide (.var 2) nothing)) (.times (.var 1) (.var 1))

/-- The quotient is the first to offend: the product before it can be built, and
    the one after it is not reached. -/
theorem build_fails_iff_careless :
    FirstOffence careless.nodes .divisionByZero ∧ ¬ Clear careless.nodes ∧
    ¬ FirstOffence careless.nodes (.nonlinear .times) ∧
    (∃ y, (times nothing (.var 1)).build = .ok y) ∧ Offends (times (.var 1) (.var 1))
      (.nonlinear .times) := by
  have hbuild : careless.build = .error .divisionByZero := by decide +kernel
  obtain ⟨hok, herror, -⟩ := build_fails_iff careless
  obtain ⟨-, -, hconstant⟩ := build_fails_iff nothing
  have hnothing : nothing.build = .ok (Expression.ofNumber 0) := by decide +kernel
  have hvaries : ¬ nothing.Varies := (isNumber_iff_not_varies hnothing).mp rfl
  have hvar : (var 1 : Formula Rat).Varies := ⟨fun _ => 0, fun _ => 1, by decide⟩
  refine ⟨(herror _).mp hbuild, fun h => ?_, fun h => ?_,
    (hconstant _ hnothing hvaries (.var 1) _ rfl).1, .product hvar hvar⟩
  · obtain ⟨e, he⟩ := hok.mpr h
    exact nomatch hbuild.symm.trans he
  · exact nomatch hbuild.symm.trans ((herror _).mpr h)

end Formula

end LinearConstraints
