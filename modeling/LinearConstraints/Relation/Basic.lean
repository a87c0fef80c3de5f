import LinearConstraints.Expression.Basic
import LinearConstraints.Text.Blank

/-! # Relations between expressions

    A relation compares two expressions.  All that matters to a solver is its
    normal form, the left side minus the right side compared with zero; the
    sides themselves are kept for its text. -/

namespace LinearConstraints

/-- How two sides compare. -/
inductive Comparison where
  /-- The sides are equal. -/
  | equal
  /-- The left side is at most the right one. -/
  | atMost
  /-- The left side is at least the right one. -/
  | atLeast
deriving DecidableEq, Repr

namespace Comparison

/-- The sign of a comparison. -/
def sign : Comparison → String
  | .equal => "=="
  | .atMost => "<="
  | .atLeast => ">="

/-- The inequality with the given sign.  Both ASCII signs and the mathematical
    ones are understood, with blanks around them. -/
def ofInequalitySign (text : String) : Except FormulationError Comparison :=
  let sign := Text.trim text
  if sign = "<=" ∨ sign = "≤" then .ok .atMost
  else if sign = ">=" ∨ sign = "≥" then .ok .atLeast
  else .error (.unknownSign sign)

end Comparison

/-- A comparison of two expressions. -/
structure Relation (α : Type) where
  /-- The left side. -/
  lhs : Expression α
  /-- How the sides compare. -/
  comparison : Comparison
  /-- The right side. -/
  rhs : Expression α
deriving DecidableEq

namespace Relation

variable {α : Type} [Scalar α]

/-- The left side minus the right side. -/
def normal (r : Relation α) : Expression α := Expression.minus r.lhs r.rhs

/-- The variables of the normal form, ascending. -/
def vars (r : Relation α) : List VariableId := Expression.vars r.normal

/-- What the relation says of the values of the variables, to the letter. -/
def Holds (value : VariableId → α) (r : Relation α) : Prop :=
  match r.comparison with
  | .equal => r.lhs.evaluate value = r.rhs.evaluate value
  | .atMost => r.lhs.evaluate value ≤ r.rhs.evaluate value
  | .atLeast => r.rhs.evaluate value ≤ r.lhs.evaluate value

/-- Whether the relation holds within the tolerance under given values. -/
def isSatisfied (value : VariableId → α) (r : Relation α) : Bool :=
  let difference := r.normal.evaluate value
  match r.comparison with
  | .equal => Scalar.magnitude difference ≤ Scalar.tolerance
  | .atMost => difference ≤ Scalar.tolerance
  | .atLeast => -Scalar.tolerance ≤ difference

end Relation

end LinearConstraints
