import LinearConstraints.Relation.Text
import LinearConstraints.Symbol

/-! # Why a call is refused

    Every way in which a call on a solver or a constraint can fail is a value
    of one type that names the cause.  The wording is derived from it, with
    the relation or the symbol at fault written out. -/

namespace LinearConstraints

/-- Why a call failed. -/
inductive Refusal (α : Type) where
  /-- The relation cannot hold together with those imposed before it. -/
  | unsatisfiable (relation : Relation α)
  /-- The row of a restricted symbol is negative and cannot be mended. -/
  | unrepairable (symbol : Symbol)
  /-- The constraint belongs to no owner, or to another one. -/
  | notAttached
  /-- The constraint belongs to another owner. -/
  | attachedElsewhere
  /-- The constraint already belongs to this owner. -/
  | attachedAlready
  /-- An artificial could be driven down for ever. -/
  | unboundedArtificial
  /-- A marker occurs in the tableau, but in no row it can be solved from. -/
  | markerWithoutRow
  /-- The search for a feasible point came back to where it had been. -/
  | endlessSearch
  /-- A handle stands for nothing. -/
  | unknownHandle
deriving DecidableEq

namespace Refusal

variable {α : Type} [Scalar α]

/-- Whether the tableau is at fault rather than the caller. -/
def isInternal : Refusal α → Bool
  | unboundedArtificial => true
  | markerWithoutRow => true
  | _ => false

/-- The wording of a refusal. -/
def message (w : Writer α) : Refusal α → String
  | unsatisfiable relation => "Required constraint cannot be satisfied: " ++ relation.text w
  | unrepairable symbol => "Required constraint cannot be satisfied: row for " ++ symbol.text
  | notAttached => "The constraint is not attached to this solver"
  | attachedElsewhere => "The constraint is already attached to another solver"
  | attachedAlready => "The constraint is already attached to this solver"
  | unboundedArtificial => "Internal solver error: phase-one objective is unbounded"
  | markerWithoutRow => "Internal solver error: failed to find leaving row for marker"
  | endlessSearch => "The search for a feasible point does not end"
  | unknownHandle => "The handle stands for nothing"

end Refusal

end LinearConstraints
