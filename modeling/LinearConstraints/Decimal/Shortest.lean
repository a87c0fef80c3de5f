/-! # The shortest decimal within a rounding interval

    Around each double lie the numbers that are read as it.  The shortest
    decimal of a double is the one with the fewest digits among these numbers,
    the nearest if there are several, and the greater if two are equally near.

    All of this is exact arithmetic on natural numbers.  The interval is given
    by its ends and its middle in units of one common fraction.  The search
    goes over the grids of multiples of a power of ten, coarsest first: if a
    grid meets the interval, then in one of the two grid points next to the
    middle. -/

namespace LinearConstraints

/-- A decimal number, `digits * 10 ^ exponent`. -/
structure Decimal where
  /-- The digits as one number. -/
  digits : Nat
  /-- The power of ten they count. -/
  exponent : Int
deriving DecidableEq, Repr

namespace Decimal

/-- The numbers that are rounded to `middle / unit`. -/
structure Interval where
  /-- The lower end, in units. -/
  low : Nat
  /-- The number they are rounded to, in units. -/
  middle : Nat
  /-- The upper end, in units. -/
  high : Nat
  /-- How many units make one. -/
  unit : Nat
  /-- Whether the ends are rounded inwards. -/
  closed : Bool
deriving DecidableEq, Repr

/-- The power of ten above the point, one for a negative exponent. -/
def tensAbove (g : Int) : Nat := Nat.pow 10 g.toNat

/-- The power of ten below the point, one for a positive exponent. -/
def tensBelow (g : Int) : Nat := Nat.pow 10 (-g).toNat

namespace Interval

/-- Whether a decimal lies in the interval. -/
def contains (i : Interval) (d : Decimal) : Bool :=
  let x := d.digits * i.unit * tensAbove d.exponent
  let low := i.low * tensBelow d.exponent
  let high := i.high * tensBelow d.exponent
  if i.closed then low ≤ x && x ≤ high else low < x && x < high

/-- How often the grid step `10 ^ g` fits into the middle. -/
def stepsBelow (i : Interval) (g : Int) : Nat :=
  i.middle * tensBelow g / (i.unit * tensAbove g)

/-- Whether the middle is nearer to `n` grid steps than to `n + 1`. -/
def nearerBelow (i : Interval) (g : Int) (n : Nat) : Bool :=
  2 * i.middle * tensBelow g < (2 * n + 1) * (i.unit * tensAbove g)

/-- The grid point next to the middle that lies in the interval, if one does. -/
def onGrid? (i : Interval) (g : Int) : Option Decimal :=
  let n := i.stepsBelow g
  match i.contains ⟨n, g⟩, i.contains ⟨n + 1, g⟩ with
  | true, true => some ⟨if i.nearerBelow g n then n else n + 1, g⟩
  | true, false => some ⟨n, g⟩
  | false, true => some ⟨n + 1, g⟩
  | false, false => none

/-- The decimal found on the coarsest of `count` grids, beginning with the
    multiples of `10 ^ g`. -/
def search? (i : Interval) : Nat → Int → Option Decimal
  | 0, _ => none
  | count + 1, g =>
      match i.onGrid? g with
      | some d => some d
      | none => i.search? count (g - 1)

end Interval

end Decimal

end LinearConstraints
