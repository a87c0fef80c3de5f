import LinearConstraints.Proofs.Decimal.Double

/-! # Plain texts of numbers

    To tell relations apart by their texts, a way of writing numbers has to
    give every number a text of its own, has to keep to digits, points and
    `inf`, and must not put a minus in front of a positive number: if seven were
    written `-5`, seven times a variable would read like minus five times it,
    whose sign and size are written one after the other.  The texts of doubles
    are of this kind. -/

namespace LinearConstraints

/-- Whether a character stands in the text of no number. -/
def Foreign (c : Char) : Prop := c.isDigit = false ∧ c ∉ ['.', 'i', 'n', 'f', '-']

instance : DecidablePred Foreign := fun _ => inferInstanceAs (Decidable (_ ∧ _))

theorem Foreign.ne_minus {c : Char} (h : Foreign c) : c ≠ '-' := by
  rintro rfl
  exact h.2 (by decide)

/-- Whether numbers are written with a text of their own each, made of digits and
    points or `inf`, with a minus in front of it at most, and none in front of a
    positive number. -/
structure Plain (number : Float → String) : Prop where
  /-- No two numbers have the same text. -/
  injective : ∀ {x y : Float}, x.isNaN = false → y.isNaN = false → number x = number y → x = y
  /-- The form of a text. -/
  form : ∀ {x : Float}, x.isNaN = false → ∃ size : List Char,
    (size = ['i', 'n', 'f'] ∨ ∀ c ∈ size, c.isDigit = true ∨ c = '.') ∧
    ((number x).toList = size ∨ ¬ 0 < x ∧ (number x).toList = '-' :: size)

namespace Plain

variable {number : Float → String} (h : Plain number) {x : Float}

include h

/-- The text of a number has no other characters. -/
theorem notMem (hx : x.isNaN = false) {c : Char} (hc : Foreign c) : c ∉ (number x).toList := by
  obtain ⟨hdigit, hc⟩ := hc
  simp only [List.mem_cons, List.not_mem_nil, or_false, not_or] at hc
  obtain ⟨size, hsize, htext⟩ := h.form hx
  have hsize : c ∉ size := by
    rcases hsize with rfl | hsize
    · simp [hc]
    · intro hmem
      rcases hsize c hmem with hd | rfl
      · exact nomatch hdigit.symm.trans hd
      · exact hc.1 rfl
  rcases htext with htext | ⟨-, htext⟩
  · rwa [htext]
  · rw [htext]
    simp [hc, hsize]

/-- The text of a positive number has no sign. -/
theorem minus_notMem (hx : x.isNaN = false) (hpos : 0 < x) : '-' ∉ (number x).toList := by
  obtain ⟨size, hsize, htext | ⟨hneg, -⟩⟩ := h.form hx
  · rw [htext]
    rcases hsize with rfl | hsize
    · decide
    · intro hmem
      rcases hsize _ hmem with hd | hd
      · exact absurd hd (by decide)
      · exact absurd hd (by decide)
  · exact absurd hpos hneg

end Plain

/-- Doubles are written plainly. -/
theorem plain_doubleText : Plain Decimal.doubleText where
  injective := Decimal.doubleText_injective
  form := by
    intro x hx
    refine ⟨Decimal.sizeText x, ?_, ?_⟩
    · cases hinf : x.isInf with
      | true => exact .inl (by rw [Decimal.sizeText, if_pos hinf])
      | false => exact .inr fun c hc => Decimal.isDigit_of_mem_sizeText hinf hc
    · rw [Decimal.toList_doubleText hx]
      by_cases hsign : x.toBits >>> 63 = 1
      · refine .inr ⟨fun hpos => ?_, if_pos hsign⟩
        have hone := (Decimal.shiftRight_sign_iff _).mp hsign
        exact absurd (hone.symm.trans (Double.toNat_toBits_of_pos hpos)) (by decide)
      · exact .inl (if_neg hsign)

end LinearConstraints
