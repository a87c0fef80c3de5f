import LinearConstraints.Scalar.Basic

/-! # Exact fractions

    The same solver over fractions, where no operation rounds.  Only the
    tolerance and the patience are left to choose.  The tolerance is zero in
    `Exact`, where a cell is dropped exactly when it vanishes, and that of
    double precision in `Thresholded`, where rounding noise is still cut off
    although none can arise.  Either reading is switched on by opening its
    namespace. -/

namespace LinearConstraints

/-- A choice of what counts as rounding noise among fractions, and as an endless
    search. -/
class Tolerance where
  /-- The size below which a fraction is noise. -/
  size : Rat
  /-- How many exchanges a search among so many symbols is given. -/
  patience : Nat → Nat

/-- Fractions, with the tolerance and the patience that are chosen. -/
instance [Tolerance] : Scalar Rat where
  zero := 0
  one := 1
  decidableLT := inferInstance
  decidableLE := inferInstance
  tolerance := Tolerance.size
  patience := Tolerance.patience

namespace Exact

/-- Fractions, dropping nothing but zeros. -/
scoped instance : Tolerance := ⟨0, Nat.pow 2⟩

end Exact

namespace Thresholded

/-- Fractions, dropping everything below one part in a hundred million. -/
scoped instance : Tolerance := ⟨1 / 100000000, Nat.pow 2⟩

end Thresholded

end LinearConstraints
