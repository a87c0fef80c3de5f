import LinearConstraints.Expression.Formula
import LinearConstraints.World.Solving

/-! # Histories

    Everything a caller can ask of the world is a call, and a list of calls is
    a history: the calls are made one after the other, whether or not those
    before were refused.  A caller comes by the sides of a relation only by
    building them from formulas.  The worlds that such histories lead to are
    the ones that can arise at all, so what holds in every such world is shown
    by following a single call. -/

namespace LinearConstraints

/-- Something a caller can ask of the world. -/
inductive Call (α : Type) where
  /-- Creates a variable. -/
  | newVariable (name? : Option String) (value : α) (editable : Bool)
  /-- Creates a constraint. -/
  | newConstraint (relation : Relation α)
  /-- Creates a key. -/
  | newKey
  /-- Creates a solver. -/
  | newSolver (settings : Settings α)
  /-- Gives a variable a value. -/
  | setValue (v : VariableId) (value : α)
  /-- Says whether a caller means to set a variable. -/
  | setEditable (v : VariableId) (editable : Bool)
  /-- Takes a constraint with a key. -/
  | attach (k : KeyId) (c : ConstraintId)
  /-- Gives a constraint back with a key. -/
  | detach (k : KeyId) (c : ConstraintId)
  /-- Adds a constraint to a solver. -/
  | add (s : SolverId) (c : ConstraintId)
  /-- Adds constraints to a solver. -/
  | addAll (s : SolverId) (cs : List ConstraintId)
  /-- Removes a constraint from a solver. -/
  | remove (s : SolverId) (c : ConstraintId)
  /-- Solves the constraints of a solver. -/
  | solve (s : SolverId)
  /-- Removes all constraints of a solver. -/
  | reset (s : SolverId)
  /-- Drops a solver. -/
  | dropSolver (s : SolverId)

variable {α : Type} [Scalar α]

/-- Makes a call.  Numbers that it hands out are those the world would give
    next. -/
def Call.make : Call α → WorldM α Unit
  | newVariable name? value editable => discard (World.newVariable name? value editable)
  | newConstraint relation => discard (World.newConstraint relation)
  | newKey => discard World.newKey
  | newSolver settings => discard (World.newSolver settings)
  | setValue v value => World.setValue v value
  | setEditable v editable => World.setEditable v editable
  | attach k c => World.attach (.key k) c
  | detach k c => World.detach (.key k) c
  | add s c => World.add s c
  | addAll s cs => World.addAll s cs
  | remove s c => World.remove s c
  | solve s => World.solve s
  | reset s => World.reset s
  | dropSolver s => World.dropSolver s

/-- Whether both sides of a relation can be built from formulas. -/
def Relation.Formulated (r : Relation α) : Prop :=
  (∃ f : Formula α, f.build = .ok r.lhs) ∧ ∃ f : Formula α, f.build = .ok r.rhs

/-- Whether a caller can come to make a call. -/
def Call.Formulated : Call α → Prop
  | newConstraint relation => relation.Formulated
  | _ => True

namespace World

/-- The world a call leaves behind, whether or not it was refused. -/
def after (w : World α) (call : Call α) : World α :=
  match call.make.run w with
  | .ok _ next => next
  | .error _ next => next

/-- The world a history leads to. -/
def afterAll (w : World α) (history : List (Call α)) : World α := history.foldl after w

/-- Whether a world can arise from calls alone. -/
def Reachable (w : World α) : Prop :=
  ∃ history : List (Call α), (∀ call ∈ history, call.Formulated) ∧ w = afterAll {} history

end World

end LinearConstraints
