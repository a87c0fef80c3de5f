import Mathlib.Data.List.Basic
import LinearConstraints.Expression.Text
import LinearConstraints.Proofs.Form.Formulas
import LinearConstraints.Proofs.Text.Number

/-! # The text of an expression identifies it

    The text of an expression is a list of words with blanks between them.  A
    first word with the letter of a variable is a first term, and one without
    it is a lone constant.  Behind a first term the words come in pairs of a
    sign and a size, and a size with the letter of a variable is one more
    term, while one without it is the constant that closes the text.  So the
    words can be taken off one after the other.  What is left out is told by
    its absence: a coefficient of size one by a term without a star, a zero
    by the end of the text. -/

namespace LinearConstraints.Expression

/-! ## Words -/

section Words

variable {α : Type} [Scalar α] (w : Writer α)

/-- The words of the constant behind at least one term. -/
def closingWords (k : α) : List String :=
  if k < 0 then ["-", w.number (-k)] else if 0 < k then ["+", w.number k] else []

/-- The words behind the first one. -/
def laterWords (k : α) : List (VariableId × α) → List String
  | [] => closingWords w k
  | (v, c) :: rest => (if c < 0 then "-" else "+") :: unsignedText w v c :: laterWords k rest

/-- The words of the text of an expression. -/
def words (e : Expression α) : List String :=
  match e.terms.entries with
  | [] => [w.number e.constant]
  | (v, c) :: rest => leadingText w v c :: laterWords w e.constant rest

theorem minus_append (x : String) : " - " ++ x = " " ++ ("-" ++ (" " ++ x)) := by
  rw [← String.append_assoc, ← String.append_assoc]
  rfl

theorem plus_append (x : String) : " + " ++ x = " " ++ ("+" ++ (" " ++ x)) := by
  rw [← String.append_assoc, ← String.append_assoc]
  rfl

theorem joinedText_eq (v : VariableId) (c : α) :
    joinedText w v c = " " ++ ((if c < 0 then "-" else "+") ++ (" " ++ unsignedText w v c)) := by
  unfold joinedText
  split
  · exact minus_append _
  · exact plus_append _

theorem append_closingText (k : α) (first : String) :
    first ++ closingText w k = " ".intercalate (first :: closingWords w k) := by
  unfold closingText closingWords
  split
  · rw [minus_append, String.intercalate_cons_cons, String.intercalate_cons_cons,
      String.intercalate_singleton]
    simp only [String.append_assoc]
  · split
    · rw [plus_append, String.intercalate_cons_cons, String.intercalate_cons_cons,
        String.intercalate_singleton]
      simp only [String.append_assoc]
    · rw [String.append_empty, String.intercalate_singleton]

theorem append_foldr_joinedText (k : α) (rest : List (VariableId × α)) (first : String) :
    first ++ rest.foldr (fun t tail => joinedText w t.1 t.2 ++ tail) (closingText w k)
      = " ".intercalate (first :: laterWords w k rest) := by
  induction rest generalizing first with
  | nil => exact append_closingText w k first
  | cons t rest ih =>
      rw [List.foldr_cons, joinedText_eq, laterWords, String.intercalate_cons_cons,
        String.intercalate_cons_cons, ← ih]
      simp only [String.append_assoc]

theorem words_ne_nil (e : Expression α) : words w e ≠ [] := by
  unfold words
  split <;> exact List.cons_ne_nil _ _

/-- The text of an expression is made of its words, with blanks between them. -/
theorem text_eq_intercalate (e : Expression α) : text w e = " ".intercalate (words w e) := by
  cases h : e.terms.entries with
  | nil => simp only [text, words, h, String.intercalate_singleton]
  | cons t rest =>
      simp only [text, words, h]
      exact append_foldr_joinedText ..

end Words

open Double

variable {number : Float → String}

/-- Whether no coefficient and not the constant is a NaN. -/
structure Numeric (e : Expression Float) : Prop where
  /-- The coefficients. -/
  coefficient : ∀ v c, e.terms.get? v = some c → c.isNaN = false
  /-- The constant. -/
  constant : e.constant.isNaN = false

theorem numeric_iff {e : Expression Float} : e.Numeric ↔
    e.terms.all (fun _ c => !c.isNaN) = true ∧ e.constant.isNaN = false := by
  rw [OrderedMap.all_iff]
  simp only [Bool.not_eq_true']
  exact ⟨fun h => ⟨h.coefficient, h.constant⟩, fun h => ⟨h.1, h.2⟩⟩

instance (e : Expression Float) : Decidable e.Numeric := decidable_of_iff _ numeric_iff.symm

theorem Numeric.ordinary {e : Expression Float} (he : e.Numeric) (hsparse : e.Sparse) :
    ∀ t ∈ e.terms.entries, Ordinary t.2 := fun t ht =>
  have hget := OrderedMap.mem_entries_iff.mp ht
  ⟨he.coefficient t.1 t.2 hget, hsparse t.1 t.2 hget⟩

/-- Whether two expressions have the same terms and constants that compare as
    equal, as the two zeros do. -/
def Agrees (e e' : Expression Float) : Prop :=
  e.terms = e'.terms ∧ (e.constant == e'.constant) = true

/-! ## Terms -/

/-- What stands before the variable in a term. -/
def factorText (number : Float → String) (c : Float) : List Char :=
  if Scalar.magnitude c == 1 then [] else (number (Scalar.magnitude c)).toList ++ ['*']

theorem toList_unsignedText (v : VariableId) (c : Float) :
    (unsignedText (.unnamed number) v c).toList
      = factorText number c ++ 'v' :: Decimal.digitsOf v := by
  have hlabel : ((Writer.unnamed number).label v).toList = 'v' :: Decimal.digitsOf v := by
    show ("v" ++ Nat.repr v).toList = _
    rw [String.toList_append, Nat.toList_repr]
    rfl
  unfold unsignedText factorText
  split
  · exact hlabel
  · rw [String.toList_append, String.toList_append, hlabel]
    rfl

theorem letter_mem_unsignedText (v : VariableId) (c : Float) :
    'v' ∈ (unsignedText (.unnamed number) v c).toList := by
  rw [toList_unsignedText]
  exact List.mem_append_right _ (List.mem_cons_self ..)

/-! ## Signs and closing words -/

/-- The sign before a later term tells whether the coefficient is negative. -/
theorem sign_inj {c c' : Float} (h : (if c < 0 then "-" else "+") = if c' < 0 then "-" else "+") :
    c < 0 ↔ c' < 0 := by
  split at h
  · next hneg =>
      split at h
      · next hneg' => exact iff_of_true hneg hneg'
      · exact absurd h (by decide)
  · next hneg =>
      split at h
      · exact absurd h (by decide)
      · next hneg' => exact iff_of_false hneg hneg'

/-- A negative constant, a positive one and a zero are written in three ways. -/
theorem closingWords_cases (number : Float → String) {k : Float} (hk : k.isNaN = false) :
    closingWords (.unnamed number) k = ["-", number (-k)] ∨
    closingWords (.unnamed number) k = ["+", number k] ∨
    (k == 0) = true ∧ closingWords (.unnamed number) k = [] := by
  unfold closingWords
  by_cases hneg : k < 0
  · exact .inl (if_pos hneg)
  rw [if_neg hneg]
  by_cases hpos : 0 < k
  · exact .inr (.inl (if_pos hpos))
  rcases trichotomy hk with h | h | h
  · exact absurd h hneg
  · exact .inr (.inr ⟨h, if_neg hpos⟩)
  · exact absurd h hpos

/-! ## Reading terms -/

variable (hnumber : Plain number)

include hnumber

theorem notMem_factorText {c : Float} (hc : c.isNaN = false) {d : Char} (hd : Foreign d)
    (hstar : d ≠ '*') : d ∉ factorText number c := by
  unfold factorText
  split
  · exact List.not_mem_nil
  · simp [hnumber.notMem ((isNaN_magnitude c).trans hc) hd, hstar]

theorem notMem_unsignedText {c : Float} (hc : c.isNaN = false) (v : VariableId) {d : Char}
    (hd : Foreign d) (hstar : d ≠ '*') (hv : d ≠ 'v') :
    d ∉ (unsignedText (.unnamed number) v c).toList := by
  rw [toList_unsignedText]
  simp [notMem_factorText hnumber hc hd hstar, hv, Decimal.notMem_digitsOf hd.1]

/-- No size has a minus. -/
theorem minus_notMem_unsignedText {c : Float} (hc : Ordinary c) (v : VariableId) :
    '-' ∉ (unsignedText (.unnamed number) v c).toList := by
  have hfactor : '-' ∉ factorText number c := by
    unfold factorText
    split
    · exact List.not_mem_nil
    · simp [hnumber.minus_notMem ((isNaN_magnitude c).trans hc.1) hc.magnitude_pos]
  rw [toList_unsignedText]
  simp [hfactor, Decimal.notMem_digitsOf]

/-- A term without its sign tells the variable and the size of the coefficient. -/
theorem unsignedText_inj {v v' : VariableId} {c c' : Float} (hc : c.isNaN = false)
    (hc' : c'.isNaN = false)
    (h : unsignedText (.unnamed number) v c = unsignedText (.unnamed number) v' c') :
    v = v' ∧ Scalar.magnitude c = Scalar.magnitude c' := by
  have hlist := congrArg String.toList h
  rw [toList_unsignedText, toList_unsignedText] at hlist
  obtain ⟨hfactor, -, hdigits⟩ := (List.append_cons_inj_of_notMem
    (notMem_factorText hnumber hc (by decide) (by decide))
    (Decimal.notMem_digitsOf rfl v)).mp hlist
  refine ⟨Decimal.digitsOf_injective hdigits, ?_⟩
  unfold factorText at hfactor
  split at hfactor
  · next hone =>
      split at hfactor
      · next hone' => rw [eq_of_beq_one hone, eq_of_beq_one hone']
      · exact absurd hfactor.symm (List.append_ne_nil_of_right_ne_nil _ (List.cons_ne_nil _ _))
  · split at hfactor
    · exact absurd hfactor (List.append_ne_nil_of_right_ne_nil _ (List.cons_ne_nil _ _))
    · exact hnumber.injective ((isNaN_magnitude c).trans hc) ((isNaN_magnitude c').trans hc')
        (String.toList_inj.mp (List.append_cancel_right hfactor))

/-- The first term tells the variable and the coefficient. -/
theorem leadingText_inj {v v' : VariableId} {c c' : Float} (hc : Ordinary c) (hc' : Ordinary c')
    (h : leadingText (.unnamed number) v c = leadingText (.unnamed number) v' c') :
    v = v' ∧ c = c' := by
  have hminus : ∀ {u u' : VariableId} {d d' : Float}, Ordinary d' →
      "-" ++ unsignedText (.unnamed number) u d ≠ "" ++ unsignedText (.unnamed number) u' d' := by
    intro u u' d d' hd' heq
    refine minus_notMem_unsignedText hnumber hd' u' ?_
    rw [← String.empty_append (s := unsignedText _ u' d'), ← heq, String.toList_append]
    exact List.mem_append_left _ (by decide)
  have hsame : ∀ {s : String},
      s ++ unsignedText (.unnamed number) v c = s ++ unsignedText (.unnamed number) v' c' →
      (c < 0 ↔ c' < 0) → v = v' ∧ c = c' := by
    intro s heq hsign
    obtain ⟨hv, hmagnitude⟩ :=
      unsignedText_inj hnumber hc.1 hc'.1 ((String.append_right_inj s).mp heq)
    exact ⟨hv, eq_of_magnitude_eq hsign hmagnitude⟩
  unfold leadingText at h
  by_cases hneg : c < 0
  · by_cases hneg' : c' < 0
    · rw [if_pos hneg, if_pos hneg'] at h
      exact hsame h (iff_of_true hneg hneg')
    · rw [if_pos hneg, if_neg hneg'] at h
      exact absurd h (hminus hc')
  · by_cases hneg' : c' < 0
    · rw [if_neg hneg, if_pos hneg'] at h
      exact absurd h.symm (hminus hc)
    · rw [if_neg hneg, if_neg hneg'] at h
      exact hsame h (iff_of_false hneg hneg')

/-! ## Reading later words -/

/-- The closing words tell the constant, up to the sign of a zero. -/
theorem closingWords_inj {k k' : Float} (hk : k.isNaN = false) (hk' : k'.isNaN = false)
    (h : closingWords (.unnamed number) k = closingWords (.unnamed number) k') :
    (k == k') = true := by
  rcases closingWords_cases number hk with hw | hw | ⟨hzero, hw⟩ <;>
    rcases closingWords_cases number hk' with hw' | hw' | ⟨hzero', hw'⟩ <;>
    rw [hw, hw'] at h
  · have hsize := hnumber.injective ((isNaN_neg k).trans hk) ((isNaN_neg k').trans hk')
      (List.cons.inj (List.cons.inj h).2).1
    rw [← neg_neg k, hsize, neg_neg]
    exact beq_self hk'
  · exact absurd (List.cons.inj h).1 (by decide)
  · exact nomatch h
  · exact absurd (List.cons.inj h).1 (by decide)
  · rw [hnumber.injective hk hk' (List.cons.inj (List.cons.inj h).2).1]
    exact beq_self hk'
  · exact nomatch h
  · exact nomatch h
  · exact nomatch h
  · exact beq_of_beq_zero hzero hzero'

theorem notMem_closingWords {k : Float} (hk : k.isNaN = false) {d : Char} (hd : Foreign d)
    (hplus : d ≠ '+') : ∀ s ∈ closingWords (.unnamed number) k, d ∉ s.toList := by
  rcases closingWords_cases number hk with hw | hw | ⟨-, hw⟩
  · rw [hw]
    simp [hd.ne_minus, hnumber.notMem ((isNaN_neg k).trans hk) hd]
  · rw [hw]
    simp [hplus, hnumber.notMem hk hd]
  · rw [hw]
    exact fun s hs => nomatch hs

/-- The words behind the first one tell the later terms and the constant. -/
theorem laterWords_inj {k k' : Float} (hk : k.isNaN = false) (hk' : k'.isNaN = false) :
    ∀ {rest rest' : List (VariableId × Float)}, (∀ t ∈ rest, Ordinary t.2) →
      (∀ t ∈ rest', Ordinary t.2) →
      laterWords (.unnamed number) k rest = laterWords (.unnamed number) k' rest' →
      rest = rest' ∧ (k == k') = true := by
  have hends : ∀ {l : Float} {v : VariableId} {c : Float} {s : String} {tail : List String},
      l.isNaN = false →
      closingWords (.unnamed number) l ≠ s :: unsignedText (.unnamed number) v c :: tail := by
    intro l v c s tail hl heq
    refine notMem_closingWords hnumber hl (by decide) (by decide)
      (unsignedText (.unnamed number) v c) ?_ (letter_mem_unsignedText v c)
    rw [heq]
    exact List.mem_cons_of_mem _ (List.mem_cons_self ..)
  intro rest
  induction rest with
  | nil =>
      intro rest' _ _ h
      cases rest' with
      | nil => exact ⟨rfl, closingWords_inj hnumber hk hk' h⟩
      | cons t' rest' => exact absurd h (hends hk)
  | cons t rest ih =>
      intro rest' hrest hrest' h
      cases rest' with
      | nil => exact absurd h.symm (hends hk')
      | cons t' rest' =>
          obtain ⟨ht, hrest⟩ := List.forall_mem_cons.mp hrest
          obtain ⟨ht', hrest'⟩ := List.forall_mem_cons.mp hrest'
          obtain ⟨hsign, hlater⟩ := List.cons.inj h
          obtain ⟨hterm, hlater⟩ := List.cons.inj hlater
          obtain ⟨hv, hmagnitude⟩ := unsignedText_inj hnumber ht.1 ht'.1 hterm
          obtain ⟨rfl, hconstant⟩ := ih hrest hrest' hlater
          have ht : t = t' := Prod.ext hv (eq_of_magnitude_eq (sign_inj hsign) hmagnitude)
          exact ⟨by rw [ht], hconstant⟩

/-! ## Reading expressions -/

/-- The words of an expression tell its terms and its constant. -/
theorem words_inj {e e' : Expression Float} (he : e.Numeric) (he' : e'.Numeric)
    (hsparse : e.Sparse) (hsparse' : e'.Sparse)
    (h : words (.unnamed number) e = words (.unnamed number) e') :
    e.Agrees e' := by
  have hordinary := he.ordinary hsparse
  have hordinary' := he'.ordinary hsparse'
  have halone : ∀ {k : Float} {v : VariableId} {c : Float}, k.isNaN = false →
      number k ≠ leadingText (.unnamed number) v c := by
    intro k v c hk heq
    refine hnumber.notMem hk (c := 'v') (by decide) ?_
    rw [heq, leadingText, String.toList_append]
    exact List.mem_append_right _ (letter_mem_unsignedText v c)
  unfold words at h
  cases hl : e.terms.entries with
  | nil =>
      cases hl' : e'.terms.entries with
      | nil =>
          rw [hl, hl'] at h
          refine ⟨OrderedMap.ext_entries (hl.trans hl'.symm), ?_⟩
          rw [hnumber.injective he.constant he'.constant (List.cons.inj h).1]
          exact beq_self he'.constant
      | cons t' rest' =>
          rw [hl, hl'] at h
          exact absurd (List.cons.inj h).1 (halone he.constant)
  | cons t rest =>
      cases hl' : e'.terms.entries with
      | nil =>
          rw [hl, hl'] at h
          exact absurd (List.cons.inj h).1.symm (halone he'.constant)
      | cons t' rest' =>
          rw [hl, hl'] at h
          rw [hl] at hordinary
          rw [hl'] at hordinary'
          obtain ⟨ht, hrest⟩ := List.forall_mem_cons.mp hordinary
          obtain ⟨ht', hrest'⟩ := List.forall_mem_cons.mp hordinary'
          obtain ⟨hfirst, hlater⟩ := List.cons.inj h
          obtain ⟨hv, hc⟩ := leadingText_inj hnumber ht ht' hfirst
          obtain ⟨rfl, hconstant⟩ :=
            laterWords_inj hnumber he.constant he'.constant hrest hrest' hlater
          have ht : t = t' := Prod.ext hv hc
          exact ⟨OrderedMap.ext_entries (by rw [hl, hl', ht]), hconstant⟩

theorem notMem_laterWords {k : Float} (hk : k.isNaN = false) {d : Char} (hd : Foreign d)
    (hstar : d ≠ '*') (hv : d ≠ 'v') (hplus : d ≠ '+') :
    ∀ {rest : List (VariableId × Float)}, (∀ t ∈ rest, t.2.isNaN = false) →
      ∀ s ∈ laterWords (.unnamed number) k rest, d ∉ s.toList := by
  intro rest
  induction rest with
  | nil => exact fun _ => notMem_closingWords hnumber hk hd hplus
  | cons t rest ih =>
      intro hrest
      obtain ⟨ht, hrest⟩ := List.forall_mem_cons.mp hrest
      have hterm := notMem_unsignedText hnumber ht t.1 hd hstar hv
      refine List.forall_mem_cons.mpr ⟨?_, List.forall_mem_cons.mpr ⟨hterm, ih hrest⟩⟩
      split
      · simpa using hd.ne_minus
      · simpa using hplus

/-- No word has a character that stands in none of the parts. -/
theorem notMem_words {e : Expression Float} (he : e.Numeric) {d : Char} (hd : Foreign d)
    (hstar : d ≠ '*') (hv : d ≠ 'v') (hplus : d ≠ '+') :
    ∀ s ∈ words (.unnamed number) e, d ∉ s.toList := by
  have hnan : ∀ t ∈ e.terms.entries, t.2.isNaN = false := fun t ht =>
    he.coefficient t.1 t.2 (OrderedMap.mem_entries_iff.mp ht)
  unfold words
  cases hl : e.terms.entries with
  | nil => exact List.forall_mem_singleton.mpr (hnumber.notMem he.constant hd)
  | cons t rest =>
      rw [hl] at hnan
      obtain ⟨ht, hrest⟩ := List.forall_mem_cons.mp hnan
      have hterm := notMem_unsignedText hnumber ht t.1 hd hstar hv
      refine List.forall_mem_cons.mpr
        ⟨?_, notMem_laterWords hnumber he.constant hd hstar hv hplus hrest⟩
      unfold leadingText
      rw [String.toList_append]
      split <;> simp [hd.ne_minus, hterm]

end LinearConstraints.Expression
