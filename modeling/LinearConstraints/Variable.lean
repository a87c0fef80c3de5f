/-! # Variables

    A variable is known by its number and carries a value that callers and
    solvers may both write.  An editable variable is one whose value a caller
    means to set: solvers rather solve for the others. -/

namespace LinearConstraints

/-- The number a variable is known by. -/
abbrev VariableId := Nat

/-- What is kept of a variable. -/
structure Variable (α : Type) where
  /-- The name it is shown under, if it has one. -/
  name? : Option String
  /-- Its current value. -/
  value : α
  /-- Whether a caller means to set its value. -/
  editable : Bool

/-- The text of a variable: its name, or `v` and its number. -/
def Variable.text {α : Type} (v : Variable α) (id : VariableId) : String :=
  match v.name? with
  | some name => name
  | none => "v" ++ toString id

end LinearConstraints
