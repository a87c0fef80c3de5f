import LinearConstraints.World.Ownership

/-! # Solving in a shared world

    Adding and removing a constraint changes three things: who holds it, the
    tableau and the registers of the solver.  The constraint changes hands
    first.  Then the tableau is changed in place.  If it turns out not to allow
    the change, it has been left half changed: the tableau kept from before is
    put in its place, and the constraint goes back. -/

namespace LinearConstraints.World

variable {α : Type} [Scalar α]

/-- Puts a tableau in the place of the one of a solver. -/
def setTableau (s : SolverId) (tableau : Tableau α) : WorldM α Unit := do
  let solver ← getSolver s
  setSolver s { solver with tableau := tableau }

/-- Changes the tableau of a solver in place.  A change that is refused leaves
    the tableau as far as it has got. -/
def changeTableau {β : Type} (s : SolverId) (change : TableauM α β) : WorldM α β := do
  let solver ← getSolver s
  match change.run solver.tableau with
  | .ok y tableau => do
      setTableau s tableau
      return y
  | .error reason tableau => do
      setTableau s tableau
      throw reason

/-- Changes the tableau of a solver.  If the change is refused, the tableau is
    put back as it was, and what the caller has done besides is undone. -/
def attempt {β : Type} (s : SolverId) (change : TableauM α β) (undo : WorldM α Unit) :
    WorldM α β := do
  let snapshot := (← getSolver s).tableau
  tryCatch (changeTableau s change) fun reason => do
    setTableau s snapshot
    undo
    throw reason

/-- Adds a constraint to a solver. -/
def add (s : SolverId) (c : ConstraintId) : WorldM α Unit := do
  discard (getSolver s)
  let relation := (← getConstraint c).relation
  attach (.solver s) c
  let editable := (← get).isEditable
  let marker ← attempt s (TableauM.impose editable relation) (detach (.solver s) c)
  let solver ← getSolver s
  setSolver s (solver.register c marker relation.vars solver.tableau)

/-- Adds constraints one after the other, up to the first that is refused. -/
def addAll (s : SolverId) : List ConstraintId → WorldM α Unit
  | [] => return
  | c :: rest => do
      add s c
      addAll s rest

/-- Removes a constraint from the solver that holds it. -/
def remove (s : SolverId) (c : ConstraintId) : WorldM α Unit := do
  let solver ← getSolver s
  let relation := (← getConstraint c).relation
  match solver.marker? c with
  | none => throw .notAttached
  | some marker => do
      detach (.solver s) c
      attempt s (do TableauM.withdraw marker; TableauM.repair) (attach (.solver s) c)
      let solver ← getSolver s
      setSolver s (solver.unregister c relation.vars solver.tableau)

/-- Writes the solution of a solver into its variables, all at once. -/
def writeBack (s : Solver α) : WorldM α Unit :=
  modify fun w =>
    { w with
      vars := w.vars.mapIdx fun v x =>
        match s.solution? w.valueOf v with
        | some value => { x with value := value }
        | none => x }

/-- Gives the variables of a solver values that satisfy its constraints. -/
def solve (s : SolverId) : WorldM α Unit := do
  unless (← getSolver s).tableau.isFeasible do attempt s TableauM.repair (return)
  writeBack (← getSolver s)

/-- Gives all constraints of a list back, as far as they belong to the owner. -/
def detachAll (owner : Owner) : List ConstraintId → WorldM α Unit
  | [] => return
  | c :: rest => do
      tryCatch (detach owner c) fun _ => return
      detachAll owner rest

/-- Removes all constraints of a solver. -/
def reset (s : SolverId) : WorldM α Unit := do
  let solver ← getSolver s
  detachAll (.solver s) (solver.constraints.map (·.1))
  setSolver s solver.clear

/-- Removes all constraints of a solver, and the solver. -/
def dropSolver (s : SolverId) : WorldM α Unit := do
  let solver ← getSolver s
  detachAll (.solver s) (solver.constraints.map (·.1))
  modify fun w => { w with solvers := w.solvers.erase s }

end LinearConstraints.World
