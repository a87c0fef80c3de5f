import LinearConstraints.World.Basic

/-! # Who holds a constraint

    A free constraint can be taken by anybody, and only its owner can give it
    back. -/

namespace LinearConstraints.World

variable {α : Type} [Scalar α]

/-- Records who holds a constraint. -/
def setOwner (c : ConstraintId) (x : Constraint α) (owner? : Option Owner) : WorldM α Unit :=
  modify fun w =>
    { w with constraints := w.constraints.setIfInBounds c { x with owner? := owner? } }

/-- Takes a free constraint. -/
def attach (owner : Owner) (c : ConstraintId) : WorldM α Unit := do
  let x ← getConstraint c
  match x.owner? with
  | none => setOwner c x (some owner)
  | some other =>
      if other = owner then throw .attachedAlready else throw .attachedElsewhere

/-- Gives a constraint back. -/
def detach (owner : Owner) (c : ConstraintId) : WorldM α Unit := do
  let x ← getConstraint c
  if x.owner? = some owner then setOwner c x none else throw .notAttached

end LinearConstraints.World
