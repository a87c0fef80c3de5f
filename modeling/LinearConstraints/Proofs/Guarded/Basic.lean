import LinearConstraints.Proofs.Row.Arithmetic
import LinearConstraints.Tableau.PhaseOne

/-! # Calls that stop short of dividing by zero

    Fractions can always be divided: a quotient by zero is zero, and a symbol
    that a row does not hold counts with the coefficient one when the row is
    solved for it.  A guarded call does neither.  Where it would divide by zero
    or solve a row for a symbol that is not there, it stops and has no answer,
    so that a call that has one has never come to such a place.

    A guarded search is given as many exchanges as the search it guards, and the
    two answer alike with any number of them.  So nothing that is said of
    guarded calls depends on where the patience of the arithmetic ends. -/

namespace LinearConstraints

/-- The answer of a call that stops short of dividing by zero: nothing, if it
    had to stop. -/
abbrev Guarded (β : Type) : Type := ExceptT (Refusal Rat) Option β

namespace Guarded

/-! ## Quotients -/

/-- A quotient, if the divisor is not zero. -/
def quotient? (x y : Rat) : Option Rat := if y = 0 then none else some (x / y)

theorem quotient?_eq {x y : Rat} (h : y ≠ 0) : quotient? x y = some (x / y) := if_neg h

/-- The quotients of a list with their keys, if no divisor is zero. -/
def quotients? {ι : Type} : List (ι × Rat × Rat) → Option (List (ι × Rat))
  | [] => some []
  | (i, x, y) :: rest => do
      let q ← quotient? x y
      return (i, q) :: (← quotients? rest)

/-- Where a test excludes the divisor zero, quotients can be taken of all that
    pass it. -/
theorem quotients?_eq {ι κ : Type} {test : ι → Prop} [DecidablePred test] {key : ι → κ}
    {x y : ι → Rat} {l : List ι} (h : ∀ a ∈ l, test a → y a ≠ 0) :
    quotients? (l.filterMap fun a => if test a then some (key a, x a, y a) else none)
      = some (l.filterMap fun a => if test a then some (key a, x a / y a) else none) := by
  induction l with
  | nil => rfl
  | cons a rest ih =>
      obtain ⟨ha, hrest⟩ := List.forall_mem_cons.mp h
      rw [List.filterMap_cons, List.filterMap_cons]
      by_cases htest : test a
      · rw [if_pos htest, if_pos htest]
        simp only
        rw [quotients?, quotient?_eq (ha htest), ih hrest]
        rfl
      · rw [if_neg htest, if_neg htest]
        exact ih hrest

/-! ## Solving a row -/

section Solving

variable [Tolerance]

/-- The definition of a symbol that follows from `0 = row`, if the row holds it. -/
def isolate? (r : Row Rat) (s : Symbol) : Option (Row Rat) := do
  let c ← r.terms.get? s
  let factor ← quotient? (-1) c
  return ⟨r.constant * factor, (r.terms.erase s).mapValues fun c => c * factor⟩

theorem isolate?_eq {r : Row Rat} {s : Symbol} (h : r.coefficient s ≠ 0) :
    isolate? r s = some (r.isolate s) := by
  have hget := LinearForm.get?_of_coefficient_ne_zero h
  simp only [isolate?, Row.isolate, OrderedMap.getD]
  rw [hget]
  simp only [Option.bind_eq_bind, Option.bind_some, Option.getD_some]
  rw [quotient?_eq h]
  rfl

/-- A symbol that is not there is not given the coefficient one. -/
example : isolate? ⟨1, ∅⟩ (.slack 0) = none := rfl

/-- The definition of `entering` that follows from `leaving = row`, if the row
    holds it. -/
def solve? (row : Row Rat) (leaving entering : Symbol) : Option (Row Rat) :=
  isolate? (row.setTerm leaving (-1)) entering

theorem solve?_eq {row : Row Rat} {leaving entering : Symbol} (hne : entering ≠ leaving)
    (h : row.coefficient entering ≠ 0) :
    solve? row leaving entering = some (row.exchange leaving entering) := by
  refine isolate?_eq ?_
  rw [LinearForm.coefficient_of_get? ((Row.get?_setTerm_of_ne row (-1) hne).trans
    (LinearForm.get?_of_coefficient_ne_zero h))]
  exact h

end Solving

/-! ## Calls that go through -/

/-- Whether a guarded call goes through.  It has an answer, which is the one of
    the plain call.  If the call returns, what it returns has the given property;
    if it is refused, then not for an internal reason. -/
structure Passes {β : Type} (call : Guarded β) (plain : Except (Refusal Rat) β)
    (P : β → Prop) : Prop where
  /-- The guarded call answers as the plain one. -/
  run_eq : call.run = some plain
  /-- What is returned has the property. -/
  holds : ∀ y, plain = .ok y → P y
  /-- The tableau is not at fault where the call is refused. -/
  fair : ∀ reason, plain = .error reason → reason.isInternal = false

section Rules

variable {β γ : Type} {P : β → Prop} {Q : γ → Prop}

theorem Passes.ok {call : Guarded β} {y : β} (h : call.run = some (.ok y)) (hy : P y) :
    Passes call (.ok y) P :=
  ⟨h, fun _ heq => Except.ok.inj heq ▸ hy, nofun⟩

theorem Passes.error {call : Guarded β} {reason : Refusal Rat}
    (h : call.run = some (.error reason)) (hfair : reason.isInternal = false) :
    Passes call (.error reason) P :=
  ⟨h, nofun, fun _ heq => Except.error.inj heq ▸ hfair⟩

/-- A guarded call goes on with what it has computed. -/
theorem run_lift {o : Option β} {x : β} (h : o = some x) (next : β → Guarded γ) :
    ((liftM o : Guarded β) >>= next).run = (next x).run := by
  rw [h]
  rfl

theorem Passes.lift {o : Option β} {x : β} (h : o = some x) {next : β → Guarded γ}
    {plain : Except (Refusal Rat) γ} (hnext : Passes (next x) plain Q) :
    Passes ((liftM o : Guarded β) >>= next) plain Q := by
  rw [h]
  exact hnext

theorem Passes.last {o : Option β} {x : β} (h : o = some x) (hx : P x) :
    Passes (liftM o) (.ok x) P := by
  rw [h]
  exact .ok rfl hx

/-- Calls that go through do so one after the other. -/
theorem Passes.bind {call : Guarded β} {plain : Except (Refusal Rat) β} (h : Passes call plain P)
    {next : β → Guarded γ} {plainNext : β → Except (Refusal Rat) γ}
    (hnext : ∀ y, P y → Passes (next y) (plainNext y) Q) :
    Passes (call >>= next) (plain >>= plainNext) Q := by
  have hrun := h.run_eq
  cases plain with
  | ok y =>
      have hthen : (call >>= next).run = (next y).run := by
        rw [ExceptT.run_bind, hrun]
        rfl
      obtain ⟨hrun', hholds, hfair⟩ := hnext y (h.holds y rfl)
      exact ⟨hthen.trans hrun', hholds, hfair⟩
  | error reason =>
      refine .error ?_ (h.fair reason rfl)
      rw [ExceptT.run_bind, hrun]
      rfl

end Rules

end Guarded

end LinearConstraints
