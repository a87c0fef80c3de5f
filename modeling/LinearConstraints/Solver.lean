import LinearConstraints.Tableau.Insertion
import LinearConstraints.Tableau.Removal
import LinearConstraints.Tableau.Repair

/-! # Solvers

    A solver keeps a tableau of the relations imposed on it and two registers
    beside it: the constraints it holds, in the order in which they came, each
    with its marker, and for every variable the number of those constraints
    that mention it.

    The solution of a solver is read off its tableau.  If it reconciles, the
    parametric variables keep the values they have wherever that leaves no
    restricted symbol negative; otherwise they become zero.  The basic
    variables follow. -/

namespace LinearConstraints

/-- The number a constraint is known by. -/
abbrev ConstraintId := Nat

/-- How a solver is set up. -/
structure Settings (α : Type) where
  /-- How far from zero counts as zero. -/
  epsilon : α
  /-- Whether variables keep the values their callers gave them. -/
  reconcile : Bool := true

/-- The settings of a solver that is asked for none. -/
def Settings.standard {α : Type} [Scalar α] : Settings α := { epsilon := Scalar.tolerance }

/-- A tableau with the constraints it stands for. -/
structure Solver (α : Type) where
  /-- The tableau of the constraints. -/
  tableau : Tableau α
  /-- Whether variables keep the values their callers gave them. -/
  reconcile : Bool
  /-- The constraints with their markers, oldest first. -/
  constraints : List (ConstraintId × Symbol)
  /-- How many constraints mention each variable, where any does. -/
  references : OrderedMap VariableId Nat
deriving DecidableEq

namespace Solver

variable {α : Type} [Scalar α]

/-- A solver without constraints. -/
def ofSettings (settings : Settings α) : Solver α where
  tableau := Tableau.empty settings.epsilon
  reconcile := settings.reconcile
  constraints := []
  references := ∅

/-- The number of constraints. -/
def size (s : Solver α) : Nat := s.constraints.length

/-- The marker of a constraint the solver holds. -/
def marker? (s : Solver α) (c : ConstraintId) : Option Symbol := s.constraints.lookup c

/-- Whether the solver holds a constraint. -/
def holds (s : Solver α) (c : ConstraintId) : Bool := (s.marker? c).isSome

/-! ## The registers -/

/-- Counts one more mention of a variable. -/
def addReference (references : OrderedMap VariableId Nat) (v : VariableId) :
    OrderedMap VariableId Nat :=
  references.insert v (references.getD v 0 + 1)

/-- Counts one mention of a variable less, and forgets it at the last one. -/
def dropReference (references : OrderedMap VariableId Nat) (v : VariableId) :
    OrderedMap VariableId Nat :=
  match references.get? v with
  | some n => if n ≤ 1 then references.erase v else references.insert v (n - 1)
  | none => references

/-- The solver with one more constraint, which the given tableau stands for. -/
def register (s : Solver α) (c : ConstraintId) (marker : Symbol) (mentioned : List VariableId)
    (tableau : Tableau α) : Solver α :=
  { s with
    tableau := tableau
    constraints := s.constraints ++ [(c, marker)]
    references := mentioned.foldl addReference s.references }

/-- The solver without a constraint, which the given tableau stands for no more. -/
def unregister (s : Solver α) (c : ConstraintId) (mentioned : List VariableId)
    (tableau : Tableau α) : Solver α :=
  { s with
    tableau := tableau
    constraints := s.constraints.filter fun a => a.1 ≠ c
    references := mentioned.foldl dropReference s.references }

/-- The solver without any constraint. -/
def clear (s : Solver α) : Solver α :=
  { s with
    tableau := Tableau.empty s.tableau.epsilon
    constraints := []
    references := ∅ }

/-! ## The solution -/

/-- The values of the parametric symbols if variables keep theirs. -/
def parametric (s : Solver α) (value : VariableId → α) : Symbol → α
  | .external v => if s.reconcile ∧ s.references.contains v then value v else 0
  | _ => 0

/-- Whether the parametric variables keep their values. -/
def keepsValues (s : Solver α) (value : VariableId → α) : Bool :=
  s.reconcile && s.tableau.rows.all fun symbol row =>
    !symbol.isRestricted || decide (-s.tableau.epsilon ≤ row.evaluate (s.parametric value))

/-- The value the solver gives to a variable, if it changes it at all. -/
def solution? (s : Solver α) (value : VariableId → α) (v : VariableId) : Option α :=
  if s.references.contains v then
    match s.tableau.row? (.external v) with
    | some row =>
        some (if s.keepsValues value then row.evaluate (s.parametric value) else row.constant)
    | none => if s.keepsValues value then none else some 0
  else none

end Solver

end LinearConstraints
