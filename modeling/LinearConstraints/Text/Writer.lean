import LinearConstraints.Variable

/-! # How numbers and variables are written

    The text of an expression, a relation or a row depends on the numbers and
    the variables in it only through a writer, so that what such a text tells
    apart can be said for every way of writing numbers at once. -/

namespace LinearConstraints

/-- A way to write numbers and variables. -/
structure Writer (α : Type) where
  /-- The text of a number. -/
  number : α → String
  /-- The text of a variable. -/
  label : VariableId → String

/-- Writes every variable as `v` and its number. -/
def Writer.unnamed {α : Type} (number : α → String) : Writer α :=
  ⟨number, fun id => "v" ++ toString id⟩

end LinearConstraints
