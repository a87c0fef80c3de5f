import LinearConstraints.Row.Text
import LinearConstraints.Tableau.Basic

/-! # The text of a tableau -/

namespace LinearConstraints

/-- One line for each row, with its basic symbol in front. -/
def Tableau.lines {α : Type} [Scalar α] (number : α → String) (t : Tableau α) : List String :=
  t.rows.entries.map fun a => a.1.text ++ " = " ++ Row.text number a.2

end LinearConstraints
