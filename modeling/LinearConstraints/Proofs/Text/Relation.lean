import LinearConstraints.Relation.Text
import LinearConstraints.Proofs.Text.Expression

/-! # The text of a relation identifies it

    A relation is written as its two sides with the sign of the comparison
    between them.  No side has a word with a `=`, so the sign can be found
    among the words, and each side is identified by its own. -/

namespace LinearConstraints

/-- Words without blanks can be read back from a text. -/
theorem eq_of_intercalate_eq {l m : List String} (hl : ∀ s ∈ l, ' ' ∉ s.toList)
    (hm : ∀ s ∈ m, ' ' ∉ s.toList) (hl' : l ≠ []) (hm' : m ≠ [])
    (h : " ".intercalate l = " ".intercalate m) : l = m := by
  have hread : ∀ {n : List String}, (∀ s ∈ n, ' ' ∉ s.toList) → n ≠ [] →
      (" ".intercalate n).toList.splitOn ' ' = n.map String.toList := by
    intro n hn hn'
    rw [String.toList_intercalate]
    refine List.splitOn_intercalate ' ' (fun t ht => ?_) (by simpa using hn')
    obtain ⟨s, hs, rfl⟩ := List.mem_map.mp ht
    exact hn s hs
  have hmap : l.map String.toList = m.map String.toList := by
    rw [← hread hl hl', h, hread hm hm']
  exact List.map_injective_iff.mpr (fun _ _ => String.toList_inj.mp) hmap

namespace Relation

/-- The words of the text of a relation. -/
def words {α : Type} [Scalar α] (w : Writer α) (r : Relation α) : List String :=
  Expression.words w r.lhs ++ r.comparison.sign :: Expression.words w r.rhs

theorem text_eq_intercalate {α : Type} [Scalar α] (w : Writer α) (r : Relation α) :
    r.text w = " ".intercalate (r.words w) := by
  rw [text, words, String.intercalate_append_of_ne_nil (Expression.words_ne_nil w _)
    (List.cons_ne_nil _ _), String.intercalate_cons_of_ne_nil (Expression.words_ne_nil w _),
    ← Expression.text_eq_intercalate, ← Expression.text_eq_intercalate]
  simp only [String.append_assoc]

/-- Whether no coefficient and no constant is a NaN. -/
structure Numeric (r : Relation Float) : Prop where
  /-- The left side. -/
  lhs : r.lhs.Numeric
  /-- The right side. -/
  rhs : r.rhs.Numeric

variable {number : Float → String}

theorem blank_notMem_words (hnumber : Plain number) {r : Relation Float} (hr : r.Numeric) :
    ∀ s ∈ r.words (.unnamed number), ' ' ∉ s.toList := by
  intro s hs
  rcases List.mem_append.mp hs with hs | hs
  · exact Expression.notMem_words hnumber hr.lhs (by decide) (by decide) (by decide)
      (by decide) s hs
  · rcases List.mem_cons.mp hs with rfl | hs
    · cases r.comparison <;> decide
    · exact Expression.notMem_words hnumber hr.rhs (by decide) (by decide) (by decide)
        (by decide) s hs

theorem sign_notMem_words (hnumber : Plain number) {e : Expression Float} (he : e.Numeric)
    (c : Comparison) : c.sign ∉ Expression.words (.unnamed number) e := by
  intro hmem
  refine Expression.notMem_words hnumber he (d := '=') (by decide) (by decide) (by decide)
    (by decide) _ hmem ?_
  cases c <;> decide

theorem sign_injective {c c' : Comparison} (h : c.sign = c'.sign) : c = c' := by
  revert h
  cases c <;> cases c' <;> decide

/-- The text of a relation tells its comparison and its sides. -/
theorem text_inj (hnumber : Plain number) {r r' : Relation Float} (hform : r.Formulated)
    (hform' : r'.Formulated) (hr : r.Numeric) (hr' : r'.Numeric)
    (h : r.text (.unnamed number) = r'.text (.unnamed number)) :
    r.comparison = r'.comparison ∧ r.lhs.Agrees r'.lhs ∧ r.rhs.Agrees r'.rhs := by
  have hsparse : ∀ {e : Expression Float}, (∃ f : Formula Float, f.build = .ok e) → e.Sparse := by
    rintro e ⟨f, hf⟩
    exact f.sparse_build rfl hf
  have hne : ∀ a : Relation Float, a.words (.unnamed number) ≠ [] := fun a =>
    List.append_ne_nil_of_right_ne_nil _ (List.cons_ne_nil _ _)
  rw [text_eq_intercalate, text_eq_intercalate] at h
  have hwords := eq_of_intercalate_eq (blank_notMem_words hnumber hr)
    (blank_notMem_words hnumber hr') (hne r) (hne r') h
  obtain ⟨hlhs, hcomparison, hrhs⟩ := (List.append_cons_inj_of_notMem
    (sign_notMem_words hnumber hr.lhs _) (sign_notMem_words hnumber hr.rhs _)).mp hwords
  exact ⟨sign_injective hcomparison,
    Expression.words_inj hnumber hr.lhs hr'.lhs (hsparse hform.1) (hsparse hform'.1) hlhs,
    Expression.words_inj hnumber hr.rhs hr'.rhs (hsparse hform.2) (hsparse hform'.2) hrhs⟩

/-- Doubles are written plainly, and whenever they are, two relations without a NaN
    that have the same text have the same comparison, and on each side the same
    variables with the same coefficients and the same constant, up to the sign of
    a zero. -/
theorem text_identifies :
    Plain Decimal.doubleText ∧
    ∀ number : Float → String, Plain number → ∀ r r' : Relation Float,
      r.Formulated → r'.Formulated → r.Numeric → r'.Numeric →
      r.text (.unnamed number) = r'.text (.unnamed number) →
      r.comparison = r'.comparison ∧ r.lhs.Agrees r'.lhs ∧ r.rhs.Agrees r'.rhs :=
  ⟨plain_doubleText, fun _ hnumber _ _ hform hform' hr hr' h =>
    text_inj hnumber hform hform' hr hr' h⟩

/-- A difference that is at most a third variable. -/
def difference : Relation Float :=
  ⟨.ofTerms [(0, 2), (1, -1)] 0, .atMost, .ofVariable 2⟩

/-- The same with the difference turned around and negated, which makes the
    constant a negative zero. -/
def turned : Relation Float :=
  ⟨.scale (-1) (.ofTerms [(0, -2), (1, 1)] 0), .atMost, .ofVariable 2⟩

theorem formulated_difference : difference.Formulated :=
  ⟨⟨.terms [(0, 2), (1, -1)] 0, rfl⟩, ⟨.var 2, rfl⟩⟩

theorem formulated_turned : turned.Formulated :=
  ⟨⟨.scale (-1) (.terms [(0, -2), (1, 1)] 0), by dsimp only [turned]; rfl⟩, ⟨.var 2, rfl⟩⟩

/-- Both are written alike, and differ by the sign of a zero alone. -/
theorem text_identifies_turned :
    difference.text (.unnamed Decimal.doubleText) = "2*v0 - v1 <= v2" ∧
    difference.lhs.terms = turned.lhs.terms ∧
    (difference.lhs.constant == turned.lhs.constant) = true ∧
    difference.lhs.constant.toBits ≠ turned.lhs.constant.toBits := by
  have htext : difference.text (.unnamed Decimal.doubleText) = "2*v0 - v1 <= v2" := by
    decide +kernel
  have htext' : turned.text (.unnamed Decimal.doubleText) = "2*v0 - v1 <= v2" := by
    decide +kernel
  obtain ⟨hplain, hidentifies⟩ := text_identifies
  obtain ⟨-, hlhs, -⟩ := hidentifies _ hplain difference turned formulated_difference
    formulated_turned ⟨by decide +kernel, by decide +kernel⟩
    ⟨by decide +kernel, by decide +kernel⟩ (htext.trans htext'.symm)
  exact ⟨htext, hlhs.1, hlhs.2, by decide +kernel⟩

end Relation

end LinearConstraints
