import LinearConstraints.OrderedMap.Basic
import LinearConstraints.Scalar.Basic

/-! # Linear forms

    A linear form is a constant plus a sum of coefficients times unknowns,
    with the unknowns in ascending order and each of them at most once.  What
    counts as a vanishing coefficient is a parameter of the operations that
    may produce one: expressions drop exact zeros only, rows of a tableau
    drop rounding noise too. -/

namespace LinearConstraints

/-- A constant plus a sum of coefficients times unknowns. -/
structure LinearForm (κ α : Type) [Ord κ] where
  /-- The value where all unknowns are zero. -/
  constant : α
  /-- The coefficient of each unknown that occurs. -/
  terms : OrderedMap κ α
deriving DecidableEq

namespace LinearForm

variable {κ α : Type} [Ord κ] [Scalar α]

/-- The form without unknowns. -/
def ofConstant (c : α) : LinearForm κ α := ⟨c, ∅⟩

/-- The coefficient of an unknown, zero where it does not occur. -/
def coefficient (f : LinearForm κ α) (k : κ) : α := f.terms.getD k 0

/-- Whether an unknown occurs. -/
def mentions (f : LinearForm κ α) (k : κ) : Bool := f.terms.contains k

/-- The value of the form under given values of the unknowns, summed in
    ascending order of the unknowns. -/
def evaluate (value : κ → α) (f : LinearForm κ α) : α :=
  f.terms.foldl (fun sum k c => sum + c * value k) f.constant

section Change

variable [Std.TransOrd κ] [Std.LawfulEqOrd κ]

/-- Adds to the coefficient of an unknown, which no longer occurs if the sum
    is to be dropped. -/
def addTerm (drop : α → Bool) (f : LinearForm κ α) (k : κ) (c : α) : LinearForm κ α :=
  let sum := f.coefficient k + c
  { f with terms := if drop sum then f.terms.erase k else f.terms.insert k sum }

/-- Adds a multiple of another form. -/
def addMultiple (drop : α → Bool) (f g : LinearForm κ α) (factor : α) : LinearForm κ α :=
  g.terms.foldl (fun sum k c => sum.addTerm drop k (c * factor))
    { f with constant := f.constant + g.constant * factor }

end Change

end LinearForm

end LinearConstraints
