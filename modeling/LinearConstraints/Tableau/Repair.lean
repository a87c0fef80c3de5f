import LinearConstraints.Tableau.PhaseOne

/-! # Repairing a tableau

    Rounding can leave a restricted symbol negative.  All such rows are taken
    out first, as equations that mention their own symbol, and then absorbed
    again one after the other, so that phase one always starts from a feasible
    tableau.  Where one of them cannot be absorbed, those after it are lost. -/

namespace LinearConstraints

namespace Tableau

variable {α : Type} [Scalar α]

/-- Whether the row of a symbol is out of bounds. -/
def isNegative (t : Tableau α) (s : Symbol) (row : Row α) : Bool :=
  s.isRestricted && decide (row.constant < -t.epsilon)

/-- The equations of the rows that are out of bounds, with their symbols. -/
def negativeRows (t : Tableau α) : List (Symbol × Row α) :=
  (t.rows.entries.filter fun a => t.isNegative a.1 a.2).map fun a => (a.1, a.2.setTerm a.1 (-1))

/-- The row with every basic symbol replaced by its row. -/
def reduce (t : Tableau α) (row : Row α) : Row α :=
  (row.terms.keys.filter t.isBasic).foldl
    (fun row s =>
      match t.row? s with
      | some definition => row.substitute s definition
      | none => row)
    row

end Tableau

namespace TableauM

variable {α : Type} [Scalar α]

/-- Absorbs equations one after the other, each in its reduced form. -/
def absorbAll : List (Symbol × Row α) → TableauM α Unit
  | [] => return
  | (s, row) :: rest => do
      absorb (.unrepairable s) ((← get).reduce row).orient
      absorbAll rest

/-- Makes the tableau feasible again. -/
def repair : TableauM α Unit := do
  let t ← get
  set { t with rows := t.rows.filter fun s row => !t.isNegative s row }
  absorbAll t.negativeRows

end TableauM

namespace Tableau

variable {α : Type} [Scalar α]

/-- The tableau with equations absorbed one after the other. -/
def absorbAll (pending : List (Symbol × Row α)) (t : Tableau α) :
    Except (Refusal α) (Tableau α) :=
  TableauM.outcome (TableauM.absorbAll pending) t

/-- The tableau made feasible again. -/
def repair (t : Tableau α) : Except (Refusal α) (Tableau α) :=
  TableauM.outcome TableauM.repair t

end Tableau

end LinearConstraints
