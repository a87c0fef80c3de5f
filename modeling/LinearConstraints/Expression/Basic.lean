import LinearConstraints.FormulationError
import LinearConstraints.LinearForm.Basic
import LinearConstraints.Variable

/-! # Linear expressions

    An expression is a linear form over variables.  A coefficient that comes
    out as exactly zero is dropped, so that an expression mentions just the
    variables its value depends on, and a product or a quotient is allowed
    whenever the result is linear again. -/

namespace LinearConstraints

/-- A linear form over variables. -/
abbrev Expression (α : Type) := LinearForm VariableId α

namespace Expression

variable {α : Type} [Scalar α]

/-- The coefficients an expression does not keep. -/
def vanishes (c : α) : Bool := c == 0

/-- The expression of a number. -/
def ofNumber (c : α) : Expression α := LinearForm.ofConstant c

/-- The expression of a variable. -/
def ofVariable (v : VariableId) : Expression α := ⟨0, (∅ : OrderedMap VariableId α).insert v 1⟩

/-- The sum of the terms and the constant; terms of one variable add up. -/
def ofTerms (terms : List (VariableId × α)) (constant : α) : Expression α :=
  terms.foldl (fun sum t => sum.addTerm vanishes t.1 t.2) (ofNumber constant)

/-- Whether no variable occurs. -/
def isNumber (e : Expression α) : Bool := e.terms.isEmpty

/-- The variables that occur, ascending. -/
def vars (e : Expression α) : List VariableId := e.terms.keys

/-- The sum of two expressions. -/
def plus (a b : Expression α) : Expression α := LinearForm.addMultiple vanishes a b 1

/-- The difference of two expressions. -/
def minus (a b : Expression α) : Expression α := LinearForm.addMultiple vanishes a b (-1)

/-- A multiple of an expression. -/
def scale (factor : α) (e : Expression α) : Expression α :=
  e.terms.foldl (fun sum v c => sum.addTerm vanishes v (c * factor))
    (ofNumber (e.constant * factor))

/-- The product of two expressions, one of which has to be a number. -/
def times (a b : Expression α) : Except FormulationError (Expression α) :=
  if isNumber a then .ok (scale a.constant b)
  else if isNumber b then .ok (scale b.constant a)
  else .error (.nonlinear .times)

/-- The quotient of two expressions, the second of which has to be a number
    other than zero. -/
def divide (a b : Expression α) : Except FormulationError (Expression α) :=
  if isNumber b then
    if b.constant == 0 then .error .divisionByZero
    else .ok (scale (1 / b.constant) a)
  else .error (.nonlinear .divide)

end Expression

end LinearConstraints
