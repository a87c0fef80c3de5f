import LinearConstraints.Expression.Basic
import LinearConstraints.Text.Writer

/-! # The text of an expression

    Terms stand in the order of their variables, as in `2*x - y + 0.5*v7 + 3`.
    A coefficient of size one is left out, the sign of the first term is
    written tight and every other one between blanks.  The constant closes the
    text unless it is zero; on its own it is always written. -/

namespace LinearConstraints.Expression

variable {α : Type} [Scalar α]

/-- A term without its sign. -/
def unsignedText (w : Writer α) (v : VariableId) (c : α) : String :=
  if Scalar.magnitude c == 1 then w.label v
  else w.number (Scalar.magnitude c) ++ "*" ++ w.label v

/-- The first term, with a minus if its coefficient is negative. -/
def leadingText (w : Writer α) (v : VariableId) (c : α) : String :=
  (if c < 0 then "-" else "") ++ unsignedText w v c

/-- A later term, with the sign that joins it to the text before it. -/
def joinedText (w : Writer α) (v : VariableId) (c : α) : String :=
  (if c < 0 then " - " else " + ") ++ unsignedText w v c

/-- The constant behind at least one term. -/
def closingText (w : Writer α) (c : α) : String :=
  if c < 0 then " - " ++ w.number (-c)
  else if 0 < c then " + " ++ w.number c
  else ""

/-- The text of an expression. -/
def text (w : Writer α) (e : Expression α) : String :=
  match e.terms.entries with
  | [] => w.number e.constant
  | (v, c) :: rest =>
      leadingText w v c
        ++ rest.foldr (fun t tail => joinedText w t.1 t.2 ++ tail) (closingText w e.constant)

end LinearConstraints.Expression
