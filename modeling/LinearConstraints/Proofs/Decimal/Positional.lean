import Mathlib.Algebra.Order.Field.Power
import Mathlib.Algebra.Order.Field.Rat
import Mathlib.Tactic.FieldSimp
import LinearConstraints.Decimal.Positional

/-! # What a positional text is worth

    A decimal can be read back from its positional notation: the digits before
    and after the point form one number, and every digit after the point
    divides it by ten. -/

namespace LinearConstraints.Decimal

/-- The number a decimal stands for. -/
def value (d : Decimal) : Rat := d.digits * (10 : Rat) ^ d.exponent

/-- The number a text of digits stands for, with a point or without one. -/
def worth (text : List Char) : Rat :=
  match text.splitOn '.' with
  | [whole] => Nat.ofDigitChars 10 whole 0
  | [whole, fraction] => Nat.ofDigitChars 10 (whole ++ fraction) 0 / 10 ^ fraction.length
  | _ => 0

theorem worth_of_notMem {whole : List Char} (h : '.' ∉ whole) :
    worth whole = Nat.ofDigitChars 10 whole 0 := by
  rw [worth, List.splitOn_eq_singleton h]

theorem worth_append {whole fraction : List Char} (h : '.' ∉ whole) (h' : '.' ∉ fraction) :
    worth (whole ++ '.' :: fraction)
      = Nat.ofDigitChars 10 (whole ++ fraction) 0 / 10 ^ fraction.length := by
  rw [worth, List.splitOn_append_cons_self_of_not_mem h, List.splitOn_eq_singleton h']

theorem notMem_digitsOf {c : Char} (hc : c.isDigit = false) (n : Nat) : c ∉ digitsOf n :=
  fun hmem => nomatch hc.symm.trans (Nat.isDigit_of_mem_toDigits (by decide) (by decide) hmem)

theorem ofDigitChars_digitsOf (n : Nat) : Nat.ofDigitChars 10 (digitsOf n) 0 = n :=
  Nat.ofDigitChars_ten_toDigits

theorem digitsOf_injective {m n : Nat} (h : digitsOf m = digitsOf n) : m = n := by
  rw [← ofDigitChars_digitsOf m, h, ofDigitChars_digitsOf]

/-- A decimal can be read back from its text. -/
theorem worth_positional (d : Decimal) : worth d.positional = d.value := by
  have hpoint := notMem_digitsOf (c := '.') rfl d.digits
  unfold positional value
  simp only
  split
  · next hexp =>
      have hexp' : ((d.exponent.toNat : Nat) : Int) = d.exponent := Int.toNat_of_nonneg hexp
      rw [worth_of_notMem (by simp [hpoint]), Nat.ofDigitChars_append, ofDigitChars_digitsOf,
        Nat.ofDigitChars_replicate_zero]
      conv_rhs => rw [← hexp', zpow_natCast]
      push_cast
      exact mul_comm _ _
  · next hexp =>
      obtain ⟨places, hplaces⟩ : ∃ n : Nat, d.exponent = -n := ⟨(-d.exponent).toNat, by omega⟩
      rw [hplaces, neg_neg, Int.toNat_natCast, zpow_neg, zpow_natCast, ← div_eq_mul_inv]
      split
      · next hlt =>
          rw [worth_append (fun h => hpoint (List.mem_of_mem_take h))
            (fun h => hpoint (List.mem_of_mem_drop h)), List.take_append_drop,
            ofDigitChars_digitsOf, List.length_drop]
          congr 2
          omega
      · next hlt =>
          have hlength : (List.replicate (places - (digitsOf d.digits).length) '0'
              ++ digitsOf d.digits).length = places := by
            rw [List.length_append, List.length_replicate]
            omega
          rw [show ('0' :: '.' :: (List.replicate (places - (digitsOf d.digits).length) '0'
              ++ digitsOf d.digits)) = ['0'] ++ '.' :: (List.replicate
              (places - (digitsOf d.digits).length) '0' ++ digitsOf d.digits) from rfl,
            worth_append (by decide) (by simp [hpoint]), hlength]
          congr 2
          rw [Nat.ofDigitChars_append, Nat.ofDigitChars_append, Nat.ofDigitChars_replicate_zero]
          exact ofDigitChars_digitsOf _

/-- A positional text is made of digits and points. -/
theorem isDigit_of_mem_positional {d : Decimal} {c : Char} (h : c ∈ d.positional) :
    c.isDigit = true ∨ c = '.' := by
  have hdigits : c ∈ digitsOf d.digits → c.isDigit = true :=
    Nat.isDigit_of_mem_toDigits (by decide) (by decide)
  have hzeros : ∀ {n : Nat}, c ∈ List.replicate n '0' → c.isDigit = true := fun hmem => by
    rw [List.eq_of_mem_replicate hmem]
    rfl
  unfold positional at h
  simp only at h
  split at h
  · rcases List.mem_append.mp h with h | h
    · exact .inl (hdigits h)
    · exact .inl (hzeros h)
  · split at h
    · rcases List.mem_append.mp h with h | h
      · exact .inl (hdigits (List.mem_of_mem_take h))
      · rcases List.mem_cons.mp h with rfl | h
        · exact .inr rfl
        · exact .inl (hdigits (List.mem_of_mem_drop h))
    · rcases List.mem_cons.mp h with rfl | h
      · exact .inl rfl
      · rcases List.mem_cons.mp h with rfl | h
        · exact .inr rfl
        · rcases List.mem_append.mp h with h | h
          · exact .inl (hzeros h)
          · exact .inl (hdigits h)

end LinearConstraints.Decimal
