/-! # The numbers a constraint system is written in

    `Scalar` asks for the operations of the solver and for no law, so the
    solver runs over any arithmetic: binary floating point with its NaN and
    its signed zeros, or exact fractions.  What a statement needs of the
    numbers it says itself.

    One number comes with the arithmetic, its `tolerance`.  Cells of a row no
    larger than that are dropped as rounding noise, and a relation counts as
    satisfied when it misses by no more than that.

    So does the `patience` of its searches.  With rounding nothing tells how
    long a search may take that comes to an end after all, so the patience is
    left open: what holds for every arithmetic holds for searches of any
    length. -/

namespace LinearConstraints

/-- Numbers with the operations and comparisons a solver needs. -/
class Scalar (α : Type) extends Zero α, One α, Neg α, Add α, Mul α, Div α, BEq α, LT α, LE α where
  /-- Strict comparison can be decided. -/
  decidableLT : DecidableLT α
  /-- Comparison can be decided. -/
  decidableLE : DecidableLE α
  /-- The size below which a number is rounding noise. -/
  tolerance : α
  /-- How many exchanges a search among so many symbols is given before it is
      taken to be endless. -/
  patience : Nat → Nat

namespace Scalar

variable {α : Type} [Scalar α]

instance : DecidableLT α := decidableLT

instance : DecidableLE α := decidableLE

/-- The number without its sign. -/
def magnitude (x : α) : α := if x < 0 then -x else x

/-- Whether a number is zero or rounding noise. -/
def negligible (x : α) : Bool := x == 0 || decide (magnitude x < tolerance)

theorem negligible_iff {x : α} :
    negligible x = true ↔ (x == 0) = true ∨ magnitude x < tolerance := by
  simp only [negligible, Bool.or_eq_true, decide_eq_true_eq]

/-- Double precision, with a tolerance of one part in a hundred million and the
    patience that exact numbers need. -/
instance : Scalar Float where
  zero := 0
  one := 1
  decidableLT := inferInstance
  decidableLE := inferInstance
  tolerance := 1e-8
  patience := Nat.pow 2

end Scalar

end LinearConstraints
