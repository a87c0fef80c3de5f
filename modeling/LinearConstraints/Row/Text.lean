import LinearConstraints.Row.Basic

/-! # The text of a row

    The constant first, whatever it is, and then every cell with its sign
    between blanks and its coefficient in full, as in `2 + 1*v0 - 0.5*s3`. -/

namespace LinearConstraints.Row

variable {α : Type} [Scalar α]

/-- A cell with the sign that joins it to the text before it. -/
def cellText (number : α → String) (s : Symbol) (c : α) : String :=
  if c < 0 then " - " ++ number (-c) ++ "*" ++ s.text
  else " + " ++ number c ++ "*" ++ s.text

/-- The text of a row. -/
def text (number : α → String) (r : Row α) : String :=
  number r.constant ++ r.terms.entries.foldr (fun t tail => cellText number t.1 t.2 ++ tail) ""

end LinearConstraints.Row
