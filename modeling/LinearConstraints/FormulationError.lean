import LinearConstraints.Text.Quoted

/-! # Errors of writing down an expression or a relation -/

namespace LinearConstraints

/-- The two operations on expressions that can fail. -/
inductive Operation where
  /-- The product of two expressions. -/
  | times
  /-- The quotient of two expressions. -/
  | divide
deriving DecidableEq, Repr

/-- Why an expression or a relation could not be written down. -/
inductive FormulationError where
  /-- The operation would leave the linear expressions: an operand that has to
      be a number contains variables. -/
  | nonlinear (operation : Operation)
  /-- The divisor is the number zero. -/
  | divisionByZero
  /-- The text is no sign of an inequality. -/
  | unknownSign (text : String)
deriving DecidableEq, Repr

/-- The name of an operation. -/
def Operation.text : Operation → String
  | .times => "times"
  | .divide => "divide"

/-- The wording of an error. -/
def FormulationError.message : FormulationError → String
  | .nonlinear operation =>
      "Nonlinear operation: both operands of " ++ operation.text ++ " contain variables"
  | .divisionByZero => "Division by zero"
  | .unknownSign text => "Unknown relational operator: " ++ Text.quote text

end LinearConstraints
