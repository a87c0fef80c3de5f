import LinearConstraints.Decimal.Shortest

/-! # Positional notation

    Decimals are always written out in full: a point only before a fractional
    part, zeros filled in on either side, never an exponent. -/

namespace LinearConstraints.Decimal

/-- The digits of a number, most significant first. -/
def digitsOf (n : Nat) : List Char := Nat.toDigits 10 n

/-- A decimal in positional notation. -/
def positional (d : Decimal) : List Char :=
  let ds := digitsOf d.digits
  let places := (-d.exponent).toNat
  if 0 ≤ d.exponent then ds ++ List.replicate d.exponent.toNat '0'
  else if places < ds.length then
    ds.take (ds.length - places) ++ '.' :: ds.drop (ds.length - places)
  else '0' :: '.' :: (List.replicate (places - ds.length) '0' ++ ds)

end LinearConstraints.Decimal
