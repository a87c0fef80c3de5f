import LinearConstraints.Tableau.Change

/-! # Phase one

    A row that cannot be given a symbol of its own is absorbed behind an
    artificial: the artificial becomes basic with that row and is then driven
    to zero by exchanges that keep the tableau feasible.  If it gets there it
    is exchanged away and its column is struck out; if it stays positive the
    row contradicts the others.

    Of all symbols that may enter the least is taken, and of all rows that
    block the move the one with the least symbol among those that block it
    first.  With exact numbers this rule never comes back to a set of basic
    symbols it has left, so there are fewer exchanges than there are sets of
    symbols.  With rounding nothing is certain, and the search gives up where
    the patience of the arithmetic ends.

    Where phase one gives up or finds a contradiction, it leaves the tableau as
    the last exchange has made it, with the artificial still basic. -/

namespace LinearConstraints

/-- The keys of a list with the least value; of equal values the first. -/
def leastBy? {ι α : Type} [Scalar α] : List (ι × α) → Option ι
  | [] => none
  | first :: rest => some (rest.foldl (fun best a => if a.2 < best.2 then a else best) first).1

/-- Which way a parametric symbol moves. -/
inductive Direction where
  /-- Away from zero upwards. -/
  | up
  /-- Away from zero downwards. -/
  | down
deriving DecidableEq, Repr

/-- How fast a row with the given coefficient rises under the move. -/
def Direction.rate {α : Type} [Scalar α] : Direction → α → α
  | .up, c => c
  | .down, c => -c

/-- What is to be done about an artificial. -/
inductive Move where
  /-- It cannot get any lower. -/
  | done
  /-- It gets lower without end. -/
  | unbounded
  /-- It gets lower when one symbol gives way to another. -/
  | exchange (leaving entering : Symbol)
deriving DecidableEq, Repr

namespace Tableau

variable {α : Type} [Scalar α]

/-- The least symbol whose movement lowers the row, with its direction.  Only
    variables of the caller move downwards, and dummies do not move. -/
def entering? (t : Tableau α) (objective : Row α) : Option (Symbol × Direction) :=
  objective.terms.entries.findSome? fun a =>
    if a.1.isRestricted ∧ a.2 < -t.epsilon then some (a.1, .up)
    else if a.1.isExternal ∧ t.epsilon < Scalar.magnitude a.2 then
      some (a.1, if a.2 < 0 then .up else .down)
    else none

/-- How far a symbol may move before each restricted row reaches zero. -/
def ratios (t : Tableau α) (entering : Symbol) (direction : Direction) : List (Symbol × α) :=
  t.rows.entries.filterMap fun a =>
    let rate := direction.rate (a.2.coefficient entering)
    if a.1.isRestricted ∧ rate < -t.epsilon then some (a.1, a.2.constant / -rate) else none

/-- The symbol whose row blocks the move first. -/
def leaving? (t : Tableau α) (entering : Symbol) (direction : Direction) : Option Symbol :=
  leastBy? (t.ratios entering direction)

/-- The next exchange that lowers a basic symbol. -/
def nextMove (t : Tableau α) (objective : Symbol) : Move :=
  match t.row? objective with
  | none => .done
  | some row =>
      if row.constant ≤ t.epsilon then .done
      else
        match t.entering? row with
        | none => .done
        | some (entering, direction) =>
            match t.leaving? entering direction with
            | none => .unbounded
            | some leaving => .exchange leaving entering

/-- The symbols of a tableau, each as often as it occurs. -/
def symbols (t : Tableau α) : List Symbol :=
  t.rows.entries.flatMap fun a => a.1 :: a.2.terms.keys

/-- The symbol an artificial at zero is exchanged for: the first one of its row
    that is no dummy, or else the first one. -/
def successor? (row : Row α) : Option Symbol :=
  (row.terms.keys.find? Symbol.isPivotable).or row.terms.keys.head?

/-- Takes an artificial at zero out of the tableau. -/
def retire (t : Tableau α) (artificial : Symbol) : Tableau α :=
  let exchanged :=
    match t.row? artificial with
    | none => t
    | some row =>
        match successor? row with
        | none => t.eraseRow artificial
        | some entering =>
            (t.eraseRow artificial).define entering
              (Row.exchange { row with constant := 0 } artificial entering)
  exchanged.eraseColumn artificial

end Tableau

/-! ## The search -/

namespace TableauM

variable {α : Type} [Scalar α]

/-- Lowers a basic symbol until it is zero or cannot get any lower, by no more
    than the given number of exchanges. -/
def descend (objective : Symbol) (limit : Nat) : TableauM α Unit := do
  match (← get).nextMove objective with
  | .done => return
  | .unbounded => throw .unboundedArtificial
  | .exchange leaving entering =>
      match limit with
      | 0 => throw .endlessSearch
      | limit + 1 => do
          modify fun t => t.exchange leaving entering
          descend objective limit

/-- Lowers a basic symbol until it is zero or cannot get any lower. -/
def minimize (objective : Symbol) : TableauM α Unit := do
  descend objective (Scalar.patience α (← get).symbols.length)

/-- Absorbs the equation `0 = row`.  If it contradicts the tableau, the call is
    refused for the given reason. -/
def absorb (reason : Refusal α) (row : Row α) : TableauM α Unit := do
  let artificial := Symbol.artificial (← get).nextIndex
  modify fun t =>
    { t with rows := t.rows.insert artificial row, nextIndex := t.nextIndex + 1 }
  minimize artificial
  let t ← get
  if t.epsilon < t.valueOf artificial then throw reason
  set (t.retire artificial)

end TableauM

namespace Tableau

variable {α : Type} [Scalar α]

/-- The tableau with a basic symbol lowered, by no more than the given number of
    exchanges. -/
def descend (objective : Symbol) (limit : Nat) (t : Tableau α) :
    Except (Refusal α) (Tableau α) :=
  TableauM.outcome (TableauM.descend objective limit) t

/-- The tableau with a basic symbol lowered as far as possible. -/
def minimize (objective : Symbol) (t : Tableau α) : Except (Refusal α) (Tableau α) :=
  TableauM.outcome (TableauM.minimize objective) t

/-- The tableau with an equation absorbed. -/
def absorb (reason : Refusal α) (row : Row α) (t : Tableau α) :
    Except (Refusal α) (Tableau α) :=
  TableauM.outcome (TableauM.absorb reason row) t

end Tableau

end LinearConstraints
