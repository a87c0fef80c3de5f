import LinearConstraints.Decimal.Positional

/-! # The text of a double

    A double is written as its shortest decimal in positional notation, with
    a minus if its sign bit is set, so that zero has two texts.  What is not
    finite is written as `NaN`, `inf` or `-inf`. -/

namespace LinearConstraints.Decimal

/-- A finite double without its sign, `significand * 2 ^ exponent`. -/
structure Binary where
  /-- The significand as a whole number. -/
  significand : Nat
  /-- The power of two it counts. -/
  exponent : Int
  /-- Whether the double below is only half as far away as the one above. -/
  narrowBelow : Bool
deriving DecidableEq, Repr

/-- The finite double with the given bits, its sign left aside. -/
def Binary.ofBits (bits : UInt64) : Binary :=
  let field := ((bits >>> 52) &&& 0x7FF).toNat
  let fraction := (bits &&& 0xFFFFFFFFFFFFF).toNat
  if field = 0 then ⟨fraction, -1074, false⟩
  else ⟨0x10000000000000 + fraction, (field : Int) - 1075, fraction = 0 && 1 < field⟩

/-- The numbers that are rounded to a double: half the way to its neighbours,
    the ends included if its significand is even. -/
def Binary.interval (b : Binary) : Interval where
  low := (4 * b.significand - if b.narrowBelow then 1 else 2) * Nat.pow 2 (b.exponent - 2).toNat
  middle := 4 * b.significand * Nat.pow 2 (b.exponent - 2).toNat
  high := (4 * b.significand + 2) * Nat.pow 2 (b.exponent - 2).toNat
  unit := Nat.pow 2 (2 - b.exponent).toNat
  closed := b.significand % 2 = 0

/-- An exponent of ten that no double of this size reaches, from its binary
    logarithm. -/
def Binary.coarsest (b : Binary) : Int :=
  ((b.significand.log2 : Int) + b.exponent + 1) * 30103 / 100000 + 1

/-- The value of a double, digit by digit. -/
def Binary.exact (b : Binary) : Decimal :=
  if 0 ≤ b.exponent then ⟨b.significand * Nat.pow 2 b.exponent.toNat, 0⟩
  else ⟨b.significand * Nat.pow 5 (-b.exponent).toNat, b.exponent⟩

/-- The shortest decimal that is read as the double.  Seventeen digits are
    enough for every double, and the first of the twenty grids lies at most
    two places too high. -/
def Binary.shortest (b : Binary) : Decimal :=
  (b.interval.search? 20 b.coarsest).getD b.exact

/-- The text of a double. -/
def doubleText (x : Float) : String :=
  if x.isNaN then "NaN"
  else
    let bits := x.toBits
    let b := Binary.ofBits bits
    let size :=
      if x.isInf then ['i', 'n', 'f']
      else if b.significand = 0 then ['0']
      else b.shortest.positional
    String.ofList (if bits >>> 63 = 1 then '-' :: size else size)

/-! ## Examples -/

example : doubleText 0.1 = "0.1" := by decide +kernel

example : doubleText (-1e21) = "-1000000000000000000000" := by decide +kernel

example : doubleText 1e-8 = "0.00000001" := by decide +kernel

example : doubleText (-0.0) = "-0" := by decide +kernel

example : doubleText (0.0 / 0.0) = "NaN" := by decide +kernel

example : doubleText (-1.0 / 0.0) = "-inf" := by decide +kernel

-- both 0.000000029802322387695312 and this are as short and as near
example : doubleText 2.98023223876953125e-8 = "0.000000029802322387695313" := by decide +kernel

end LinearConstraints.Decimal
