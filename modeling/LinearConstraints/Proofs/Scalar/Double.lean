import Mathlib
import LinearConstraints.Scalar.Basic

/-! # Signs and order of doubles

    The operations on doubles go through an unpacked form: a sign with a zero,
    an infinity, or a significand and an exponent.  Negating a double turns
    over its sign bit, and so the sign of the unpacked form.  The laws of
    signs and of order are then those of the unpacked forms. -/

namespace LinearConstraints.Double

open Float.Model
open Float.Model.UnpackedFloat (Sign packComponents unpackSign unpackExponent unpackMantissa)

/-! ## Unpacked forms -/

/-- Doubles with the same unpacked form are the same. -/
theorem eq_of_unpack_eq {x y : Float} (h : x.toModel.unpack = y.toModel.unpack) : x = y :=
  Float.toBits_inj.mp (UInt64.toBitVec_inj.mp
    ((UnpackedFloat.unpack_inj_of_valid x.toModel.valid y.toModel.valid).mp h))

/-- Packing loses nothing of what has been unpacked. -/
theorem unpack_pack_unpack (bits : BitVec 64) :
    UnpackedFloat.unpack .binary64 (UnpackedFloat.pack .binary64
      (UnpackedFloat.unpack .binary64 bits)) = UnpackedFloat.unpack .binary64 bits := by
  rw [UnpackedFloat.pack_unpack]
  split
  · next hnan =>
      simp only [UnpackedFloat.isNaNBits, decide_eq_true_eq] at hnan
      rw [UnpackedFloat.unpack_packedNaN]
      simp only [UnpackedFloat.unpack, hnan, if_true, if_false]
  · rfl

/-- The sign bit is the sign of the unpacked form. -/
theorem unpack_packComponents_neg (s : Sign) (e : BitVec 11) (m : BitVec 52) :
    UnpackedFloat.unpack .binary64 (packComponents .binary64 (-s) e m)
      = (UnpackedFloat.unpack .binary64 (packComponents .binary64 s e m)).neg := by
  simp only [UnpackedFloat.unpack, UnpackedFloat.unpackSign_packComponents,
    UnpackedFloat.unpackExponent_packComponents, UnpackedFloat.unpackMantissa_packComponents,
    Sign.ofBitVec_toBitVec]
  split
  · split <;> rfl
  · split
    · split <;> rfl
    · rfl

/-- A negated double is unpacked to the negated form. -/
theorem unpack_neg (x : Float) : (-x).toModel.unpack = x.toModel.unpack.neg := by
  have hparts := @UnpackedFloat.packComponents_unpackSign_unpackExponent_unpackMantissa
    .binary64 x.toModel.toBits.toBitVec
  show UnpackedFloat.unpack .binary64 (UnpackedFloat.pack .binary64
    (UnpackedFloat.unpack .binary64 x.toModel.toBits.toBitVec).neg)
    = (UnpackedFloat.unpack .binary64 x.toModel.toBits.toBitVec).neg
  rw [← hparts, ← unpack_packComponents_neg, unpack_pack_unpack]

/-! ## Signs and order -/

theorem neg_neg (x : Float) : - -x = x := by
  refine eq_of_unpack_eq ?_
  rw [unpack_neg, unpack_neg]
  cases x.toModel.unpack with
  | notANumber => rfl
  | infinity s => cases s <;> rfl
  | zero s => cases s <;> rfl
  | finite s m e hm => cases s <;> rfl

theorem isNaN_neg (x : Float) : (-x).isNaN = x.isNaN := by
  show (-x).toModel.unpack.isNaN = x.toModel.unpack.isNaN
  rw [unpack_neg]
  cases x.toModel.unpack <;> rfl

theorem lt_iff {x y : Float} :
    x < y ↔ x.toModel.unpack.compare y.toModel.unpack = some .lt :=
  (decide_eq_true_iff (p := x.toModel < y.toModel)).trans beq_iff_eq

theorem beq_iff {x y : Float} :
    (x == y) = true ↔ x.toModel.unpack.compare y.toModel.unpack = some .eq := by
  show (x.toModel.unpack.compare y.toModel.unpack == some .eq) = true ↔ _
  rw [beq_iff_eq]

theorem unpack_zero : (0 : Float).toModel.unpack = .zero .positive := rfl

/-- A number is negative, zero or positive. -/
theorem trichotomy {x : Float} (hx : x.isNaN = false) : x < 0 ∨ (x == 0) = true ∨ 0 < x := by
  have hx : x.toModel.unpack.isNaN = false := hx
  simp only [lt_iff, beq_iff, unpack_zero]
  revert hx
  cases x.toModel.unpack with
  | notANumber => exact fun hx => absurd hx (by decide)
  | infinity s => cases s with
    | negative => exact fun _ => .inl rfl
    | positive => exact fun _ => .inr (.inr rfl)
  | zero s => exact fun _ => .inr (.inl rfl)
  | finite s m e hm => cases s with
    | negative => exact fun _ => .inl rfl
    | positive => exact fun _ => .inr (.inr rfl)

theorem neg_pos {x : Float} : x < 0 → 0 < -x := by
  simp only [lt_iff, unpack_neg, unpack_zero]
  cases x.toModel.unpack with
  | notANumber => exact fun h => absurd h (by decide)
  | infinity s => cases s with
    | negative => exact fun _ => rfl
    | positive => exact fun h => absurd (Option.some.inj h) (by decide)
  | zero s => exact fun h => absurd (Option.some.inj h) (by decide)
  | finite s m e hm => cases s with
    | negative => exact fun _ => rfl
    | positive => exact fun h => absurd (Option.some.inj h) (by decide)

theorem ne_nan {x : Float} (hx : x.isNaN = false) : x ≠ Float.nan := by
  rwa [Float.isNaN_eq_decide_eq_nan, decide_eq_false_iff_not] at hx

theorem beq_self {x : Float} (hx : x.isNaN = false) : (x == x) = true :=
  Float.beq_self_iff.mpr (ne_nan hx)

/-- The two zeros are equal. -/
theorem eq_zero_or_eq_neg_zero {x : Float} (h : (x == 0) = true) : x = 0 ∨ x = -0 := by
  obtain ⟨-, -, h | ⟨h, -⟩ | ⟨h, -⟩⟩ := Float.beq_iff_ne_nan_and_eq.mp h
  · exact .inl h
  · exact .inl h
  · exact .inr h

theorem beq_of_beq_zero {x y : Float} (hx : (x == 0) = true) (hy : (y == 0) = true) :
    (x == y) = true := by
  rcases eq_zero_or_eq_neg_zero hx with rfl | rfl <;>
    rcases eq_zero_or_eq_neg_zero hy with rfl | rfl <;> decide

/-- Only one double is equal to one. -/
theorem eq_of_beq_one {x : Float} (h : (x == 1) = true) : x = 1 := by
  obtain ⟨-, -, h | ⟨-, h⟩ | ⟨-, h⟩⟩ := Float.beq_iff_ne_nan_and_eq.mp h
  · exact h
  · exact absurd h (by decide)
  · exact absurd h (by decide)

/-! ## Magnitudes -/

/-- Whether a double is neither a NaN nor zero. -/
def Ordinary (c : Float) : Prop := c.isNaN = false ∧ (c == 0) = false

theorem isNaN_magnitude (c : Float) : (Scalar.magnitude c).isNaN = c.isNaN := by
  unfold Scalar.magnitude
  split
  · exact isNaN_neg c
  · rfl

theorem Ordinary.magnitude_pos {c : Float} (hc : Ordinary c) : 0 < Scalar.magnitude c := by
  unfold Scalar.magnitude
  split
  · next hneg => exact neg_pos hneg
  · next hneg =>
      rcases trichotomy hc.1 with h | h | h
      · exact absurd h hneg
      · exact absurd h (Bool.eq_false_iff.mp hc.2)
      · exact h

/-- A number is known by its sign and its magnitude. -/
theorem eq_of_magnitude_eq {c c' : Float} (hsign : c < 0 ↔ c' < 0)
    (h : Scalar.magnitude c = Scalar.magnitude c') : c = c' := by
  unfold Scalar.magnitude at h
  split at h
  · next hneg =>
      rw [if_pos (hsign.mp hneg)] at h
      rw [← neg_neg c, h, neg_neg]
  · next hneg => rwa [if_neg (mt hsign.mpr hneg)] at h

/-! ## Bits -/

theorem toNat_unpackSign (bits : BitVec 64) :
    (@unpackSign .binary64 bits).toNat = bits.toNat / 2 ^ 63 := by
  rw [UnpackedFloat.unpackSign_def, BitVec.extractLsb'_toNat, Nat.shiftRight_eq_div_pow]
  exact Nat.mod_eq_of_lt (Nat.div_lt_of_lt_mul bits.isLt)

theorem toNat_unpackExponent (bits : BitVec 64) :
    (@unpackExponent .binary64 bits).toNat = bits.toNat / 2 ^ 52 % 2 ^ 11 := by
  rw [UnpackedFloat.unpackExponent_def, BitVec.extractLsb'_toNat, Nat.shiftRight_eq_div_pow]

theorem toNat_unpackMantissa (bits : BitVec 64) :
    (@unpackMantissa .binary64 bits).toNat = bits.toNat % 2 ^ 52 := by
  rw [UnpackedFloat.unpackMantissa_def, BitVec.extractLsb'_toNat, Nat.shiftRight_zero]

/-- An infinity has the greatest exponent field and no fraction. -/
theorem toNat_toBits_of_isInf {x : Float} (h : x.isInf = true) :
    x.toBits.toNat % 2 ^ 63 = 2047 * 2 ^ 52 := by
  have hkind : (UnpackedFloat.unpack .binary64 x.toBits.toBitVec).isInf = true := h
  simp only [UnpackedFloat.unpack] at hkind
  split at hkind
  · next hfield =>
      split at hkind
      · next hfraction =>
          have hfield : x.toBits.toNat / 2 ^ 52 % 2 ^ 11 = 2047 :=
            (toNat_unpackExponent _).symm.trans (congrArg BitVec.toNat hfield)
          have hfraction : x.toBits.toNat % 2 ^ 52 = 0 :=
            (toNat_unpackMantissa _).symm.trans (congrArg BitVec.toNat hfraction)
          omega
      · exact absurd hkind Bool.false_ne_true
  · split at hkind
    · split at hkind
      · exact absurd hkind Bool.false_ne_true
      · exact absurd hkind Bool.false_ne_true
    · exact absurd hkind Bool.false_ne_true

/-- A positive number has no sign bit. -/
theorem toNat_toBits_of_pos {x : Float} (h : 0 < x) : x.toBits.toNat / 2 ^ 63 = 0 := by
  have hsign : Sign.ofBitVec (@unpackSign .binary64 x.toBits.toBitVec) = .positive := by
    rw [lt_iff, unpack_zero] at h
    replace h : UnpackedFloat.compare (.zero .positive)
        (UnpackedFloat.unpack .binary64 x.toBits.toBitVec) = some .lt := h
    simp only [UnpackedFloat.unpack] at h
    cases hs : Sign.ofBitVec (@unpackSign .binary64 x.toBits.toBitVec) with
    | positive => rfl
    | negative =>
        rw [hs] at h
        split at h
        · split at h
          · exact absurd (Option.some.inj h) (by decide)
          · exact absurd h.symm (Option.some_ne_none _)
        · split at h
          · split at h
            · exact absurd (Option.some.inj h) (by decide)
            · exact absurd (Option.some.inj h) (by decide)
          · exact absurd (Option.some.inj h) (by decide)
  rw [← UInt64.toNat_toBitVec, ← toNat_unpackSign, ← Sign.toBitVec_ofBitVec (unpackSign _),
    hsign]
  rfl

end LinearConstraints.Double
