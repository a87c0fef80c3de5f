import LinearConstraints.LinearForm.Basic
import LinearConstraints.Symbol

/-! # Rows of a tableau

    A row is a linear form over symbols.  As the definition of a symbol it
    says what the symbol is worth; standing alone it is read as an equation,
    `0 = row`.  Negligible cells are dropped wherever cells are added, but not
    where a whole row is rescaled. -/

namespace LinearConstraints

/-- A linear form over symbols. -/
abbrev Row (α : Type) := LinearForm Symbol α

namespace Row

variable {α : Type} [Scalar α]

/-- Adds to a cell, which goes when it becomes negligible. -/
def addTerm (r : Row α) (s : Symbol) (c : α) : Row α :=
  LinearForm.addTerm Scalar.negligible r s c

/-- Adds a multiple of another row. -/
def addMultiple (r other : Row α) (factor : α) : Row α :=
  LinearForm.addMultiple Scalar.negligible r other factor

/-- Sets a cell, to nothing if the coefficient is negligible. -/
def setTerm (r : Row α) (s : Symbol) (c : α) : Row α :=
  { r with terms := if Scalar.negligible c then r.terms.erase s else r.terms.insert s c }

/-- The row without a cell. -/
def eraseTerm (r : Row α) (s : Symbol) : Row α := { r with terms := r.terms.erase s }

/-- The row with all signs reversed. -/
def negate (r : Row α) : Row α := ⟨-r.constant, r.terms.mapValues fun c => -c⟩

/-- The row or its negation, whichever has no negative constant. -/
def orient (r : Row α) : Row α := if r.constant < 0 then r.negate else r

/-- The row with a symbol replaced by its definition. -/
def substitute (r : Row α) (s : Symbol) (definition : Row α) : Row α :=
  match r.terms.get? s with
  | some c => addMultiple (r.eraseTerm s) definition c
  | none => r

/-- The definition of a symbol that follows from `0 = row`.  A symbol that does
    not occur counts with the coefficient one. -/
def isolate (r : Row α) (s : Symbol) : Row α :=
  let factor := -1 / r.terms.getD s 1
  ⟨r.constant * factor, (r.terms.erase s).mapValues fun c => c * factor⟩

/-- The definition of `entering` that follows from `leaving = row`. -/
def exchange (r : Row α) (leaving entering : Symbol) : Row α :=
  isolate (setTerm r leaving (-1)) entering

/-- Whether all symbols of the row are dummies. -/
def onlyDummies (r : Row α) : Bool := r.terms.all fun s _ => s.isDummy

end Row

end LinearConstraints
