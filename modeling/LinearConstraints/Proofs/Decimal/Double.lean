import LinearConstraints.Decimal.Double
import LinearConstraints.Proofs.Decimal.Positional
import LinearConstraints.Proofs.Scalar.Double

/-! # The text of a double identifies it

    Around each double lie the numbers that are rounded to it.  Its text is
    that of a decimal among them, no matter which one the search comes to.
    Where the numbers of one double end, those of the next begin, and the end
    between them belongs to one of the two at most: only significands that are
    even keep their ends, and of two neighbours one is odd.  So a text is worth
    a number that is rounded to one double only. -/

namespace LinearConstraints.Decimal

/-- A power with an integer exponent as the quotient of its part above the point
    and its part below. -/
theorem pow_div_pow (base : Nat) (e : Int) :
    ((Nat.pow base e.toNat : Nat) : Rat) / (Nat.pow base (-e).toNat : Nat) = (base : Rat) ^ e := by
  rcases Int.le_total 0 e with h | h
  · obtain ⟨n, rfl⟩ := Int.eq_ofNat_of_zero_le h
    simp
  · obtain ⟨n, rfl⟩ : ∃ n : Nat, e = -n := ⟨(-e).toNat, by omega⟩
    simp

theorem value_eq_div (d : Decimal) :
    d.value = (d.digits * tensAbove d.exponent : Nat) / (tensBelow d.exponent : Nat) := by
  rw [Nat.cast_mul, mul_div_assoc, tensAbove, tensBelow, pow_div_pow]
  rfl

namespace Interval

variable {i : Interval} {d : Decimal}

/-- What an interval contains lies between its ends, and strictly if it is open. -/
theorem of_contains (hunit : 0 < i.unit) (h : i.contains d = true) :
    ((i.low : Rat) / i.unit ≤ d.value ∧ d.value ≤ i.high / i.unit) ∧
      (i.closed = false → (i.low : Rat) / i.unit < d.value ∧ d.value < i.high / i.unit) := by
  have hunit : (0 : Rat) < i.unit := Nat.cast_pos.mpr hunit
  have htens : (0 : Rat) < tensBelow d.exponent :=
    Nat.cast_pos.mpr (Nat.pow_pos (by decide))
  have hcontains : i.low * tensBelow d.exponent ≤ d.digits * i.unit * tensAbove d.exponent ∧
      d.digits * i.unit * tensAbove d.exponent ≤ i.high * tensBelow d.exponent ∧
      (i.closed = false → i.low * tensBelow d.exponent < d.digits * i.unit * tensAbove d.exponent ∧
        d.digits * i.unit * tensAbove d.exponent < i.high * tensBelow d.exponent) := by
    unfold contains at h
    split at h
    · next hclosed =>
        simp only [Bool.and_eq_true, decide_eq_true_eq] at h
        exact ⟨h.1, h.2, fun hopen => nomatch hclosed.symm.trans hopen⟩
    · simp only [Bool.and_eq_true, decide_eq_true_eq] at h
      exact ⟨h.1.le, h.2.le, fun _ => h⟩
  obtain ⟨hlow, hhigh, hstrict⟩ := hcontains
  rw [value_eq_div, div_le_div_iff₀ hunit htens, div_le_div_iff₀ htens hunit,
    div_lt_div_iff₀ hunit htens, div_lt_div_iff₀ htens hunit]
  have hmiddle : d.digits * i.unit * tensAbove d.exponent
      = d.digits * tensAbove d.exponent * i.unit := by ring
  rw [hmiddle] at hlow hhigh hstrict
  have hall := And.intro (And.intro hlow hhigh) hstrict
  exact_mod_cast hall

theorem contains_of_onGrid? {g : Int} (h : i.onGrid? g = some d) : i.contains d = true := by
  unfold onGrid? at h
  simp only at h
  split at h
  · next hn hn' =>
      obtain rfl := Option.some.inj h
      split
      · exact hn
      · exact hn'
  · next hn _ =>
      obtain rfl := Option.some.inj h
      exact hn
  · next _ hn' =>
      obtain rfl := Option.some.inj h
      exact hn'
  · exact nomatch h

/-- What the search finds lies in the interval. -/
theorem contains_of_search? {count : Nat} {g : Int} (h : i.search? count g = some d) :
    i.contains d = true := by
  induction count generalizing g with
  | zero => exact nomatch h
  | succ count ih =>
      unfold search? at h
      split at h
      · next hgrid =>
          obtain rfl := Option.some.inj h
          exact contains_of_onGrid? hgrid
      · exact ih h

end Interval

namespace Binary

/-! ## The numbers that are rounded to a double -/

/-- The lower end of the numbers that are rounded to a double. -/
def low (b : Binary) : Rat :=
  (4 * b.significand - if b.narrowBelow then 1 else 2) * (2 : Rat) ^ (b.exponent - 2)

/-- The upper end of the numbers that are rounded to a double. -/
def high (b : Binary) : Rat := (4 * b.significand + 2) * (2 : Rat) ^ (b.exponent - 2)

/-- Whether a number is rounded to a double. -/
structure Attracts (b : Binary) (x : Rat) : Prop where
  /-- It is not below the lower end. -/
  low_le : b.low ≤ x
  /-- It is not above the upper end. -/
  le_high : x ≤ b.high
  /-- An odd significand leaves its ends to the neighbours. -/
  strict : b.significand % 2 ≠ 0 → b.low < x ∧ x < b.high

variable {b b' : Binary} {x : Rat}

theorem pow_div_unit (b : Binary) :
    ((Nat.pow 2 (b.exponent - 2).toNat : Nat) : Rat) / b.interval.unit
      = (2 : Rat) ^ (b.exponent - 2) := by
  have h := pow_div_pow 2 (b.exponent - 2)
  rwa [neg_sub] at h

theorem interval_low (hpos : 0 < b.significand) :
    (b.interval.low : Rat) / b.interval.unit = b.low := by
  have hcast : ((4 * b.significand - if b.narrowBelow then 1 else 2 : Nat) : Rat)
      = 4 * b.significand - if b.narrowBelow then 1 else 2 := by
    rw [Nat.cast_sub (by split <;> omega)]
    split <;> simp
  rw [low, ← pow_div_unit, ← hcast, ← mul_div_assoc, ← Nat.cast_mul]
  rfl

theorem interval_high : (b.interval.high : Rat) / b.interval.unit = b.high := by
  rw [high, ← pow_div_unit, ← mul_div_assoc]
  simp only [interval]
  push_cast
  rfl

theorem value_exact (b : Binary) : b.exact.value = b.significand * (2 : Rat) ^ b.exponent := by
  unfold exact value
  split
  · next h =>
      obtain ⟨n, hn⟩ := Int.eq_ofNat_of_zero_le h
      rw [hn]
      simp
  · next h =>
      obtain ⟨n, hn⟩ : ∃ n : Nat, b.exponent = -n := ⟨(-b.exponent).toNat, by omega⟩
      rw [hn]
      simp only [neg_neg, Int.toNat_natCast, zpow_neg, zpow_natCast, Nat.pow_eq]
      have h10 : (10 : Rat) ^ n = 5 ^ n * 2 ^ n := by rw [← mul_pow]; norm_num
      have h5 : (5 : Rat) ^ n ≠ 0 := by positivity
      rw [h10]
      push_cast
      field_simp

/-- A double attracts its own value. -/
theorem attracts_self (b : Binary) : b.Attracts (b.significand * (2 : Rat) ^ b.exponent) := by
  have hp : (0 : Rat) < 2 ^ (b.exponent - 2) := by positivity
  have hvalue : (b.significand : Rat) * 2 ^ b.exponent
      = 4 * b.significand * 2 ^ (b.exponent - 2) := by
    rw [zpow_sub₀ two_ne_zero]
    ring
  have hlow : b.low < b.significand * (2 : Rat) ^ b.exponent := by
    rw [hvalue, low]
    refine mul_lt_mul_of_pos_right ?_ hp
    split <;> linarith
  have hhigh : b.significand * (2 : Rat) ^ b.exponent < b.high := by
    rw [hvalue, high]
    refine mul_lt_mul_of_pos_right ?_ hp
    linarith
  exact ⟨hlow.le, hhigh.le, fun _ => ⟨hlow, hhigh⟩⟩

/-- The shortest decimal of a double is rounded to it. -/
theorem attracts_shortest (hpos : 0 < b.significand) : b.Attracts b.shortest.value := by
  unfold shortest
  cases hd : b.interval.search? 20 b.coarsest with
  | none =>
      rw [Option.getD_none, value_exact]
      exact attracts_self b
  | some d =>
      obtain ⟨hends, hstrict⟩ := Interval.of_contains (Nat.pow_pos (by decide))
        (Interval.contains_of_search? hd)
      rw [interval_low hpos, interval_high] at hends hstrict
      exact ⟨hends.1, hends.2, fun hodd => hstrict (decide_eq_false hodd)⟩

/-! ## Doubles apart -/

/-- Whether significand and exponent are those of a double: the significand is as
    large as it can be, unless the exponent is the least one, and the double below
    is nearer just if the significand is then the least. -/
structure Legal (b : Binary) : Prop where
  /-- The significand has 53 bits at most. -/
  significand_lt : b.significand < 2 ^ 53
  /-- There is a least exponent. -/
  le_exponent : -1074 ≤ b.exponent
  /-- Above it the significand has all its bits. -/
  normal : -1074 < b.exponent → 2 ^ 52 ≤ b.significand
  /-- The double below is nearer where the exponent changes. -/
  narrow : b.narrowBelow = true ↔ b.significand = 2 ^ 52 ∧ -1074 < b.exponent

/-- Whether the numbers that are rounded to one double end below those of another,
    or at their end if it does not belong to both. -/
def Precedes (b b' : Binary) : Prop :=
  b.high ≤ b'.low ∧ (b.high < b'.low ∨ b.significand % 2 ≠ 0 ∨ b'.significand % 2 ≠ 0)

/-- Of two neighbours with one exponent, one is odd. -/
theorem precedes_of_significand_lt (he : b.exponent = b'.exponent)
    (hlt : b.significand < b'.significand) : b.Precedes b' := by
  have hp : (0 : Rat) < 2 ^ (b'.exponent - 2) := by positivity
  have hle : (if b'.narrowBelow then (1 : Rat) else 2) ≤ 2 := by split <;> norm_num
  rw [Precedes, high, low, he]
  rcases Nat.lt_or_ge (b.significand + 1) b'.significand with hgap | hnext
  · have hcast : (b.significand : Rat) + 2 ≤ b'.significand := by exact_mod_cast hgap
    have hends : (4 * b.significand + 2 : Rat) * 2 ^ (b'.exponent - 2)
        < (4 * b'.significand - if b'.narrowBelow then 1 else 2) * 2 ^ (b'.exponent - 2) :=
      mul_lt_mul_of_pos_right (by linarith) hp
    exact ⟨hends.le, .inl hends⟩
  · have hcast : (b.significand : Rat) + 1 ≤ b'.significand := by exact_mod_cast hlt
    exact ⟨mul_le_mul_of_nonneg_right (by linarith) hp.le, .inr (by omega)⟩

/-- Where the exponent changes, the double below has the greatest significand, and
    that is odd. -/
theorem precedes_of_exponent_lt (hb : b.Legal) (hb' : b'.Legal)
    (hlt : b.exponent < b'.exponent) : b.Precedes b' := by
  have hleast : -1074 < b'.exponent := lt_of_le_of_lt hb.le_exponent hlt
  have hnormal := hb'.normal hleast
  have hsig := hb.significand_lt
  have hp : (0 : Rat) < 2 ^ (b.exponent - 2) := by positivity
  -- the least lower end above, counted in units of the smaller exponent
  have hlow : (2 ^ 55 - 2 : Rat) ≤ (4 * b'.significand - if b'.narrowBelow then 1 else 2) * 2 := by
    by_cases hleastsig : b'.significand = 2 ^ 52
    · rw [if_pos (hb'.narrow.mpr ⟨hleastsig, hleast⟩), hleastsig]
      norm_num
    · have hcast : (2 ^ 52 : Rat) + 1 ≤ b'.significand := by
        exact_mod_cast Nat.lt_of_le_of_ne hnormal (Ne.symm hleastsig)
      split <;> linarith
  have hshift : (2 : Rat) * 2 ^ (b.exponent - 2) ≤ 2 ^ (b'.exponent - 2) := by
    rw [← zpow_one_add₀ two_ne_zero]
    exact zpow_le_zpow_right₀ one_le_two (by omega)
  have hlow' : (2 ^ 55 - 2 : Rat) * 2 ^ (b.exponent - 2) ≤ b'.low := by
    have hpos : (0 : Rat) ≤ 4 * b'.significand - if b'.narrowBelow then 1 else 2 := by linarith
    calc (2 ^ 55 - 2 : Rat) * 2 ^ (b.exponent - 2)
        ≤ (4 * b'.significand - if b'.narrowBelow then 1 else 2) * 2 * 2 ^ (b.exponent - 2) :=
          mul_le_mul_of_nonneg_right hlow hp.le
      _ = (4 * b'.significand - if b'.narrowBelow then 1 else 2)
            * (2 * 2 ^ (b.exponent - 2)) := mul_assoc ..
      _ ≤ b'.low := mul_le_mul_of_nonneg_left hshift hpos
  rcases Nat.lt_or_ge b.significand (2 ^ 53 - 1) with hsmall | hlarge
  · have hcast : (b.significand : Rat) + 1 ≤ 2 ^ 53 - 1 := by
      have : b.significand + 1 + 1 ≤ 2 ^ 53 := by omega
      have : (b.significand : Rat) + 1 + 1 ≤ 2 ^ 53 := by exact_mod_cast this
      linarith
    have hends : b.high < b'.low :=
      lt_of_lt_of_le (mul_lt_mul_of_pos_right (by linarith) hp) hlow'
    exact ⟨hends.le, .inl hends⟩
  · have hcast : (b.significand : Rat) + 1 ≤ 2 ^ 53 := by exact_mod_cast hsig
    refine ⟨le_trans (mul_le_mul_of_nonneg_right ?_ hp.le) hlow', .inr (.inl (by omega))⟩
    linarith

/-- No number is rounded to two doubles, one of which precedes the other. -/
theorem Precedes.not_attracts (h : b.Precedes b') (hx : b.Attracts x) : ¬ b'.Attracts x := by
  intro hx'
  obtain ⟨hle, hlt | hodd | hodd⟩ := h
  · exact absurd (le_trans hx'.low_le hx.le_high) (not_le.mpr hlt)
  · exact absurd (le_trans hle hx'.low_le) (not_le.mpr (hx.strict hodd).2)
  · exact absurd (le_trans hx.le_high hle) (not_le.mpr (hx'.strict hodd).1)

/-- Only one double attracts a number. -/
theorem eq_of_attracts (hb : b.Legal) (hb' : b'.Legal) (hx : b.Attracts x)
    (hx' : b'.Attracts x) : b.significand = b'.significand ∧ b.exponent = b'.exponent := by
  rcases lt_trichotomy b.exponent b'.exponent with he | he | he
  · exact absurd hx' ((precedes_of_exponent_lt hb hb' he).not_attracts hx)
  · rcases lt_trichotomy b.significand b'.significand with hs | hs | hs
    · exact absurd hx' ((precedes_of_significand_lt he hs).not_attracts hx)
    · exact ⟨hs, he⟩
    · exact absurd hx ((precedes_of_significand_lt he.symm hs).not_attracts hx')
  · exact absurd hx ((precedes_of_exponent_lt hb' hb he).not_attracts hx')

/-! ## Bits -/

theorem toNat_field (bits : UInt64) :
    ((bits >>> 52) &&& 0x7FF).toNat = bits.toNat / 2 ^ 52 % 2 ^ 11 := by
  rw [UInt64.toNat_and, UInt64.toNat_shiftRight]
  exact (Nat.and_two_pow_sub_one_eq_mod _ 11).trans
    (congrArg (· % 2 ^ 11) (Nat.shiftRight_eq_div_pow ..))

theorem toNat_fraction (bits : UInt64) :
    (bits &&& 0xFFFFFFFFFFFFF).toNat = bits.toNat % 2 ^ 52 := by
  rw [UInt64.toNat_and]
  exact Nat.and_two_pow_sub_one_eq_mod _ 52

theorem legal_ofBits (bits : UInt64) : (ofBits bits).Legal := by
  simp only [ofBits, toNat_field, toNat_fraction]
  split
  · exact ⟨by simp only; omega, le_refl _, fun h => absurd h (lt_irrefl _),
      ⟨fun h => (nomatch h), fun h => absurd h.2 (lt_irrefl _)⟩⟩
  · refine ⟨by simp only; omega, by simp only; omega, fun _ => by simp only; omega, ?_⟩
    simp only [Bool.and_eq_true, decide_eq_true_eq]
    omega

theorem ofBits_inj {bits bits' : UInt64}
    (hs : (ofBits bits).significand = (ofBits bits').significand)
    (he : (ofBits bits).exponent = (ofBits bits').exponent) :
    bits.toNat % 2 ^ 63 = bits'.toNat % 2 ^ 63 := by
  simp only [ofBits, toNat_field, toNat_fraction] at hs he
  by_cases hf : bits.toNat / 2 ^ 52 % 2 ^ 11 = 0 <;>
    by_cases hf' : bits'.toNat / 2 ^ 52 % 2 ^ 11 = 0 <;>
    simp only [hf, hf', if_true, if_false] at hs he <;> omega

end Binary

/-! ## The text of a double -/

/-- The text of a double without its sign. -/
def sizeText (x : Float) : List Char :=
  if x.isInf then ['i', 'n', 'f']
  else if (Binary.ofBits x.toBits).significand = 0 then ['0']
  else (Binary.ofBits x.toBits).shortest.positional

theorem toList_doubleText {x : Float} (hx : x.isNaN = false) :
    (doubleText x).toList = if x.toBits >>> 63 = 1 then '-' :: sizeText x else sizeText x := by
  simp only [doubleText, hx, Bool.false_eq_true, if_false, String.toList_ofList]
  rfl

theorem isDigit_of_mem_sizeText {x : Float} (hx : x.isInf = false) {c : Char}
    (h : c ∈ sizeText x) : c.isDigit = true ∨ c = '.' := by
  rw [sizeText, hx, if_neg Bool.false_ne_true] at h
  split at h
  · exact .inl (List.mem_singleton.mp h ▸ rfl)
  · exact isDigit_of_mem_positional h

theorem notMem_sizeText {x : Float} (hx : x.isInf = false) {c : Char} (hc : c.isDigit = false)
    (hpoint : c ≠ '.') : c ∉ sizeText x := by
  intro h
  rcases isDigit_of_mem_sizeText hx h with hd | hd
  · exact absurd hd (Bool.eq_false_iff.mp hc)
  · exact hpoint hd

/-- The text of the size of a finite double is worth a number that is rounded to
    it. -/
theorem attracts_worth_sizeText {x : Float} (hx : x.isInf = false) :
    (Binary.ofBits x.toBits).Attracts (worth (sizeText x)) := by
  rw [sizeText, hx, if_neg Bool.false_ne_true]
  split
  · next hzero =>
      have h := (Binary.ofBits x.toBits).attracts_self
      rwa [hzero, Nat.cast_zero, zero_mul] at h
  · next hpos =>
      rw [worth_positional]
      exact Binary.attracts_shortest (Nat.pos_of_ne_zero hpos)

/-- The text of the size of a double tells all its bits but the sign. -/
theorem toBits_of_sizeText_eq {x y : Float} (h : sizeText x = sizeText y) :
    x.toBits.toNat % 2 ^ 63 = y.toBits.toNat % 2 ^ 63 := by
  have hletter : ∀ {z u : Float}, z.isInf = true → u.isInf = false → sizeText z ≠ sizeText u := by
    intro z u hz hu heq
    refine notMem_sizeText hu (c := 'i') rfl (by decide) ?_
    rw [← heq, sizeText, if_pos hz]
    exact List.mem_cons_self ..
  cases hx : x.isInf with
  | true =>
      cases hy : y.isInf with
      | true => rw [Double.toNat_toBits_of_isInf hx, Double.toNat_toBits_of_isInf hy]
      | false => exact absurd h (hletter hx hy)
  | false =>
      cases hy : y.isInf with
      | true => exact absurd h.symm (hletter hy hx)
      | false =>
          have hy' := attracts_worth_sizeText hy
          rw [← h] at hy'
          obtain ⟨hs, he⟩ := Binary.eq_of_attracts (Binary.legal_ofBits _)
            (Binary.legal_ofBits _) (attracts_worth_sizeText hx) hy'
          exact Binary.ofBits_inj hs he

theorem minus_notMem_sizeText (x : Float) : '-' ∉ sizeText x := by
  cases hx : x.isInf with
  | true =>
      rw [sizeText, if_pos hx]
      decide
  | false => exact notMem_sizeText hx rfl (by decide)

/-- The sign bit is set if the quotient by its place is one. -/
theorem shiftRight_sign_iff (bits : UInt64) : bits >>> 63 = 1 ↔ bits.toNat / 2 ^ 63 = 1 := by
  rw [← UInt64.toNat_inj, UInt64.toNat_shiftRight]
  exact Eq.congr_left (Nat.shiftRight_eq_div_pow ..)

/-- No two doubles have the same text. -/
theorem doubleText_injective {x y : Float} (hx : x.isNaN = false) (hy : y.isNaN = false)
    (h : doubleText x = doubleText y) : x = y := by
  have hlist := congrArg String.toList h
  rw [toList_doubleText hx, toList_doubleText hy] at hlist
  simp only [shiftRight_sign_iff] at hlist
  have hsame : sizeText x = sizeText y →
      (x.toBits.toNat / 2 ^ 63 = 1 ↔ y.toBits.toNat / 2 ^ 63 = 1) → x = y := by
    intro hsize hsign
    have := toBits_of_sizeText_eq hsize
    have := x.toBits.toNat_lt
    have := y.toBits.toNat_lt
    exact Float.toBits_inj.mp (UInt64.toNat_inj.mp (by omega))
  by_cases hneg : x.toBits.toNat / 2 ^ 63 = 1
  · by_cases hneg' : y.toBits.toNat / 2 ^ 63 = 1
    · rw [if_pos hneg, if_pos hneg'] at hlist
      exact hsame (List.cons.inj hlist).2 (iff_of_true hneg hneg')
    · rw [if_pos hneg, if_neg hneg'] at hlist
      exact absurd (hlist ▸ List.mem_cons_self ..) (minus_notMem_sizeText y)
  · by_cases hneg' : y.toBits.toNat / 2 ^ 63 = 1
    · rw [if_neg hneg, if_pos hneg'] at hlist
      exact absurd (hlist ▸ List.mem_cons_self ..) (minus_notMem_sizeText x)
    · rw [if_neg hneg, if_neg hneg'] at hlist
      exact hsame hlist (iff_of_false hneg hneg')

end LinearConstraints.Decimal
