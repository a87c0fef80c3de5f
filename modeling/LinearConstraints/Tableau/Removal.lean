import LinearConstraints.Tableau.PhaseOne

/-! # Withdrawing a relation

    A relation is withdrawn through its marker.  A basic marker goes with its
    row.  A parametric one first takes over the row of another symbol: of a
    dummy if it can, so that dummies stay among themselves, and otherwise of
    the restricted symbol that reaches zero first as the marker moves, so that
    no other one turns negative. -/

namespace LinearConstraints

namespace Tableau

variable {α : Type} [Scalar α]

/-- How far a marker may move before each restricted row that it lowers reaches
    zero. -/
def lowered (t : Tableau α) (marker : Symbol) : List ((Symbol × Row α) × α) :=
  t.rows.entries.filterMap fun a =>
    let c := a.2.coefficient marker
    if !(c == 0) ∧ !a.1.isExternal ∧ c < 0 then some (a, -a.2.constant / c) else none

/-- The same for the rows that it raises, as the marker moves downwards. -/
def raised (t : Tableau α) (marker : Symbol) : List ((Symbol × Row α) × α) :=
  t.rows.entries.filterMap fun a =>
    let c := a.2.coefficient marker
    if !(c == 0) ∧ !a.1.isExternal ∧ ¬ c < 0 then some (a, a.2.constant / c) else none

/-- The symbol that gives its row to a parametric marker, with that row. -/
def donor? (t : Tableau α) (marker : Symbol) : Option (Symbol × Row α) :=
  (t.rows.find? fun s row => s.isDummy && row.mentions marker)
    |>.or (leastBy? (t.lowered marker))
    |>.or (leastBy? (t.raised marker))
    |>.or (t.rows.find? fun s row => s.isExternal && !(row.coefficient marker == 0))

end Tableau

variable {α : Type} [Scalar α]

/-- Withdraws the relation with the given marker. -/
def TableauM.withdraw (marker : Symbol) : TableauM α Unit := do
  let t ← get
  if t.isBasic marker then set (t.eraseRow marker)
  else if t.mentions marker then
    match t.donor? marker with
    | some (leaving, row) =>
        set ((t.eraseRow leaving).substitute marker (row.exchange leaving marker))
    | none => throw .markerWithoutRow

/-- The tableau without the relation with the given marker. -/
def Tableau.withdraw (marker : Symbol) (t : Tableau α) : Except (Refusal α) (Tableau α) :=
  TableauM.outcome (TableauM.withdraw marker) t

end LinearConstraints
