import LinearConstraints.Tableau.PhaseOne

/-! # Imposing a relation

    A relation enters the tableau as one row, an equation between its normal
    form and a marker: a slack if it is an inequality, a dummy if it is an
    equation.  The marker stays the mark of the relation for as long as the
    relation is imposed.

    The row is given to a variable that occurs nowhere else if there is one.
    Otherwise the slack takes it, if that makes the slack positive.  A row of
    dummies only says nothing new or nothing true.  Everything else goes
    through phase one. -/

namespace LinearConstraints

/-- The factor that lifts the coefficients of an expression above rounding
    noise: the inverse of the least negligible one. -/
def Expression.lift {α : Type} [Scalar α] (e : Expression α) : α :=
  let noise := (e.terms.entries.map fun a => Scalar.magnitude a.2).filter Scalar.negligible
  match leastBy? (noise.map fun c => (c, c)) with
  | some c => 1 / c
  | none => 1

namespace Tableau

variable {α : Type} [Scalar α]

/-- A multiple of an expression with every basic variable replaced by its row. -/
def express (t : Tableau α) (e : Expression α) (factor : α) : Row α :=
  e.terms.foldl
    (fun row v c =>
      match t.row? (.external v) with
      | some definition => row.addMultiple definition (c * factor)
      | none => row.addTerm (.external v) (c * factor))
    (LinearForm.ofConstant (e.constant * factor))

/-- The marker of a relation: a slack for an inequality, a dummy for an
    equation. -/
def marker (t : Tableau α) : Comparison → Symbol
  | .equal => .dummy t.nextIndex
  | _ => .slack t.nextIndex

/-- The coefficient a marker has beside the normal form. -/
def markerSign : Comparison → α
  | .atLeast => -1
  | _ => 1

/-- The equation of a relation, with no negative constant. -/
def rowOf (t : Tableau α) (r : Relation α) : Row α :=
  ((t.express r.normal r.normal.lift).setTerm (t.marker r.comparison)
    (markerSign r.comparison)).orient

/-- The symbol that can be given the row of a relation without a change to any
    other row.  New variables come before the slack, and variables no caller
    means to set before the others. -/
def subject? (t : Tableau α) (editable : VariableId → Bool) (r : Relation α) (row : Row α) :
    Option Symbol :=
  let candidates := r.vars.filter (fun v => !editable v) ++ r.vars.filter editable
  match (candidates.map Symbol.external).find? fun s => row.mentions s && !t.mentions s with
  | some s => some s
  | none =>
      let marker := t.marker r.comparison
      if marker.isSlack ∧ row.coefficient marker < 0 then some marker else none

end Tableau

variable {α : Type} [Scalar α]

/-- Imposes a relation and hands out its marker. -/
def TableauM.impose (editable : VariableId → Bool) (r : Relation α) : TableauM α Symbol := do
  let t ← get
  let marker := t.marker r.comparison
  let row := t.rowOf r
  set { t with nextIndex := t.nextIndex + 1 }
  match t.subject? editable r row with
  | some subject => modify fun t => t.define subject (row.isolate subject)
  | none =>
      if row.onlyDummies then
        if t.epsilon < row.constant then throw (.unsatisfiable r)
        -- the equation follows from the others and is kept for its marker only
        let definition := Row.isolate { row with constant := 0 } marker
        modify fun t => { t with rows := t.rows.insert marker definition }
      else
        absorb (.unsatisfiable r) row
  return marker

/-- The marker of a relation and the tableau with the relation imposed. -/
def Tableau.impose (editable : VariableId → Bool) (r : Relation α) (t : Tableau α) :
    Except (Refusal α) (Symbol × Tableau α) :=
  TableauM.answer (TableauM.impose editable r) t

end LinearConstraints
