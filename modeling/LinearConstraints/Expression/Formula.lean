import LinearConstraints.Expression.Basic

/-! # Formulas

    A formula is an expression as it is written: a tree of numbers, variables
    and operations.  Building it carries the operations out from the leaves
    up, the left operand before the right one, and stops at the first
    operation that fails.  Its value carries the same operations out on
    numbers, once the variables have values. -/

namespace LinearConstraints

/-- A tree of operations on numbers and variables. -/
inductive Formula (α : Type) where
  /-- A number. -/
  | number (c : α)
  /-- A variable. -/
  | var (v : VariableId)
  /-- A sum of coefficients times variables, plus a constant. -/
  | terms (list : List (VariableId × α)) (constant : α)
  /-- A sum. -/
  | plus (a b : Formula α)
  /-- A difference. -/
  | minus (a b : Formula α)
  /-- A product. -/
  | times (a b : Formula α)
  /-- A quotient. -/
  | divide (a b : Formula α)
  /-- A negation. -/
  | negate (a : Formula α)
  /-- A multiple. -/
  | scale (factor : α) (a : Formula α)

namespace Formula

variable {α : Type} [Scalar α]

/-- The formula that spells an expression out. -/
def ofExpression (e : Expression α) : Formula α := .terms e.terms.entries e.constant

/-- The expression a formula stands for, or the error of the first operation
    that has no linear result. -/
def build : Formula α → Except FormulationError (Expression α)
  | .number c => .ok (Expression.ofNumber c)
  | .var v => .ok (Expression.ofVariable v)
  | .terms list constant => .ok (Expression.ofTerms list constant)
  | .plus a b => do
      let x ← a.build
      let y ← b.build
      return Expression.plus x y
  | .minus a b => do
      let x ← a.build
      let y ← b.build
      return Expression.minus x y
  | .times a b => do
      let x ← a.build
      let y ← b.build
      Expression.times x y
  | .divide a b => do
      let x ← a.build
      let y ← b.build
      Expression.divide x y
  | .negate a => do
      let x ← a.build
      return Expression.scale (-1) x
  | .scale factor a => do
      let x ← a.build
      return Expression.scale factor x

/-- The number a formula comes to under given values of the variables, with
    every operation carried out on numbers. -/
def value (v : VariableId → α) : Formula α → α
  | .number c => c
  | .var i => v i
  | .terms list constant => list.foldl (fun sum t => sum + t.2 * v t.1) constant
  | .plus a b => a.value v + b.value v
  | .minus a b => a.value v + -b.value v
  | .times a b => a.value v * b.value v
  | .divide a b => a.value v / b.value v
  | .negate a => -a.value v
  | .scale factor a => a.value v * factor

end Formula

end LinearConstraints
