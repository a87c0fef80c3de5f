import LinearConstraints.Solver

/-! # The world of solvers

    Variables and constraints are shared: several solvers may read and write
    the same variable, and a constraint belongs to at most one owner, a solver
    or a caller with a key.  The world holds all of them, each known by a
    number that is never given twice.

    A call on the world either succeeds or is refused with a reason.  Nothing
    in the type says that a refused call changes nothing, and a refused change
    to a tableau leaves it half done; the calls put things back themselves. -/

namespace LinearConstraints

/-- The number a solver is known by. -/
abbrev SolverId := Nat

/-- The number a caller's key is known by. -/
abbrev KeyId := Nat

/-- Who can hold constraints. -/
inductive Owner where
  /-- A solver. -/
  | solver (id : SolverId)
  /-- A caller with a key. -/
  | key (id : KeyId)
deriving DecidableEq, Repr

/-- A relation that can be handed to one owner at a time. -/
structure Constraint (α : Type) where
  /-- What the constraint says. -/
  relation : Relation α
  /-- Who holds it, if anybody does. -/
  owner? : Option Owner
deriving DecidableEq

/-- All variables, constraints, keys and solvers. -/
structure World (α : Type) where
  /-- The variables, by number. -/
  vars : Array (Variable α) := #[]
  /-- The constraints, by number. -/
  constraints : Array (Constraint α) := #[]
  /-- The solvers that have not been dropped. -/
  solvers : OrderedMap SolverId (Solver α) := ∅
  /-- The number of the next solver. -/
  nextSolver : SolverId := 0
  /-- The number of the next key. -/
  nextKey : KeyId := 0

/-- A call on the world that may be refused. -/
abbrev WorldM (α : Type) := EStateM (Refusal α) (World α)

namespace World

variable {α : Type} [Scalar α]

/-! ## Reading the world -/

/-- The current value of a variable. -/
def valueOf (w : World α) (v : VariableId) : α :=
  match w.vars[v]? with
  | some x => x.value
  | none => 0

/-- Whether a caller means to set a variable. -/
def isEditable (w : World α) (v : VariableId) : Bool := w.vars[v]?.any (·.editable)

/-- The values of all variables, by number. -/
def values (w : World α) : List α := w.vars.toList.map (·.value)

/-- Whether a constraint holds within the tolerance. -/
def isSatisfied (w : World α) (c : Constraint α) : Bool := c.relation.isSatisfied w.valueOf

/-- Whether a solver holds a constraint. -/
def holds (w : World α) (s : SolverId) (c : ConstraintId) : Bool :=
  match w.solvers.get? s with
  | some solver => solver.holds c
  | none => false

/-- Whether an expression mentions known variables only. -/
def knows (w : World α) (e : Expression α) : Bool :=
  (Expression.vars e).all fun v => v < w.vars.size

/-- Writes variables by their names. -/
def writer (w : World α) (number : α → String) : Writer α where
  number := number
  label v :=
    match w.vars[v]? with
    | some x => x.text v
    | none => "v" ++ toString v

/-! ## Handles -/

/-- The variable behind a handle. -/
def getVariable (v : VariableId) : WorldM α (Variable α) := do
  match (← get).vars[v]? with
  | some x => return x
  | none => throw .unknownHandle

/-- The constraint behind a handle. -/
def getConstraint (c : ConstraintId) : WorldM α (Constraint α) := do
  match (← get).constraints[c]? with
  | some x => return x
  | none => throw .unknownHandle

/-- The solver behind a handle. -/
def getSolver (s : SolverId) : WorldM α (Solver α) := do
  match (← get).solvers.get? s with
  | some x => return x
  | none => throw .unknownHandle

/-- Puts a solver in the place of the one behind the handle. -/
def setSolver (s : SolverId) (solver : Solver α) : WorldM α Unit :=
  modify fun w => { w with solvers := w.solvers.insert s solver }

/-! ## Creation -/

/-- Creates a variable. -/
def newVariable (name? : Option String) (value : α) (editable : Bool) : WorldM α VariableId :=
  modifyGet fun w =>
    (w.vars.size, { w with vars := w.vars.push ⟨name?, value, editable⟩ })

/-- Creates a constraint that nobody holds. -/
def newConstraint (relation : Relation α) : WorldM α ConstraintId := do
  let w ← get
  unless w.knows relation.lhs && w.knows relation.rhs do throw .unknownHandle
  set { w with constraints := w.constraints.push ⟨relation, none⟩ }
  return w.constraints.size

/-- Creates a key. -/
def newKey : WorldM α KeyId :=
  modifyGet fun w => (w.nextKey, { w with nextKey := w.nextKey + 1 })

/-- Creates a solver. -/
def newSolver (settings : Settings α) : WorldM α SolverId :=
  modifyGet fun w =>
    (w.nextSolver,
      { w with
        solvers := w.solvers.insert w.nextSolver (Solver.ofSettings settings)
        nextSolver := w.nextSolver + 1 })

/-! ## Variables -/

/-- Gives a variable a value. -/
def setValue (v : VariableId) (value : α) : WorldM α Unit := do
  let x ← getVariable v
  modify fun w => { w with vars := w.vars.setIfInBounds v { x with value := value } }

/-- Says whether a caller means to set a variable. -/
def setEditable (v : VariableId) (editable : Bool) : WorldM α Unit := do
  let x ← getVariable v
  modify fun w =>
    { w with vars := w.vars.setIfInBounds v { x with editable := editable } }

end World

end LinearConstraints
