import LinearConstraints.OrderedMap.Lemmas
import LinearConstraints.Row.Basic

/-! # What the result of an operation mentions

    No operation on forms and rows makes an unknown up: whatever the numbers
    are, the unknowns of the result are among those of the operands and the
    ones that are named in the call.  Nothing is said about which of them are
    dropped, since that is for the arithmetic to decide.  What does not occur
    has no influence on the value of a form. -/

namespace LinearConstraints

namespace LinearForm

variable {κ α : Type} [Ord κ]

theorem mentions_iff {f : LinearForm κ α} {k : κ} :
    f.mentions k = true ↔ ∃ c, f.terms.get? k = some c :=
  OrderedMap.contains_iff

/-- An unknown that does not occur has no entry. -/
theorem get?_eq_none_of_not_mentions {f : LinearForm κ α} {k : κ}
    (h : ¬ f.mentions k = true) : f.terms.get? k = none := by
  cases hk : f.terms.get? k with
  | none => rfl
  | some c => exact absurd (mentions_iff.mpr ⟨c, hk⟩) h

variable [Scalar α]

theorem coefficient_of_get? {f : LinearForm κ α} {k : κ} {c : α}
    (h : f.terms.get? k = some c) : f.coefficient k = c := by
  show (f.terms.get? k).getD 0 = c
  rw [h]
  rfl

theorem coefficient_of_get?_none {f : LinearForm κ α} {k : κ}
    (h : f.terms.get? k = none) : f.coefficient k = 0 := by
  show (f.terms.get? k).getD 0 = 0
  rw [h]
  rfl

theorem coefficient_congr {f g : LinearForm κ α} {u : κ}
    (h : f.terms.get? u = g.terms.get? u) : f.coefficient u = g.coefficient u :=
  congrArg (fun c? => Option.getD c? 0) h

/-- Only the values of unknowns that occur matter. -/
theorem evaluate_congr [Std.LawfulEqOrd κ] {value value' : κ → α} {f : LinearForm κ α}
    (h : ∀ k, f.mentions k = true → value k = value' k) :
    f.evaluate value = f.evaluate value' :=
  OrderedMap.foldl_congr fun _ k c hk => by rw [h k (mentions_iff.mpr ⟨c, hk⟩)]

variable [Std.TransOrd κ] [Std.LawfulEqOrd κ]

theorem mentions_addTerm {drop : α → Bool} {f : LinearForm κ α} {k u : κ} {c : α}
    (h : (f.addTerm drop k c).mentions u = true) : u = k ∨ f.mentions u = true := by
  simp only [addTerm] at h
  split at h
  · exact Or.inr (OrderedMap.mem_erase_iff.mp h).2
  · exact OrderedMap.mem_insert_iff.mp h

theorem mentions_addMultiple {drop : α → Bool} {f g : LinearForm κ α} {factor : α} {u : κ}
    (h : (f.addMultiple drop g factor).mentions u = true) :
    f.mentions u = true ∨ g.mentions u = true := by
  revert h
  refine OrderedMap.foldl_induction
    (P := fun sum : LinearForm κ α =>
      sum.mentions u = true → f.mentions u = true ∨ g.mentions u = true)
    Or.inl ?_
  intro sum k c hk ih h
  rcases mentions_addTerm h with rfl | h
  · exact Or.inr (mentions_iff.mpr ⟨c, hk⟩)
  · exact ih h

end LinearForm

namespace Row

variable {α : Type} [Scalar α]

omit [Scalar α] in
theorem mentions_eraseTerm {r : Row α} {s u : Symbol} :
    (r.eraseTerm s).mentions u = true ↔ u ≠ s ∧ r.mentions u = true :=
  OrderedMap.mem_erase_iff

theorem mentions_setTerm {r : Row α} {s u : Symbol} {c : α}
    (h : (r.setTerm s c).mentions u = true) : u = s ∨ r.mentions u = true := by
  simp only [setTerm] at h
  split at h
  · exact Or.inr (OrderedMap.mem_erase_iff.mp h).2
  · exact OrderedMap.mem_insert_iff.mp h

theorem mentions_negate {r : Row α} {u : Symbol} :
    r.negate.mentions u = true ↔ r.mentions u = true :=
  OrderedMap.mem_mapValues_iff

theorem mentions_orient {r : Row α} {u : Symbol} :
    r.orient.mentions u = true ↔ r.mentions u = true := by
  simp only [orient]
  split
  · exact mentions_negate
  · exact Iff.rfl

theorem mentions_isolate {r : Row α} {s u : Symbol} :
    (r.isolate s).mentions u = true ↔ u ≠ s ∧ r.mentions u = true :=
  OrderedMap.mem_mapValues_iff.trans OrderedMap.mem_erase_iff

theorem mentions_exchange {r : Row α} {leaving entering u : Symbol}
    (h : (r.exchange leaving entering).mentions u = true) :
    u ≠ entering ∧ (u = leaving ∨ r.mentions u = true) := by
  obtain ⟨hne, hset⟩ := mentions_isolate.mp h
  exact ⟨hne, mentions_setTerm hset⟩

/-- A row without the symbol is left as it is. -/
theorem substitute_of_not_mentions {r : Row α} {s : Symbol} {definition : Row α}
    (h : ¬ r.mentions s = true) : r.substitute s definition = r := by
  simp only [substitute]
  rw [LinearForm.get?_eq_none_of_not_mentions h]

theorem mentions_substitute {r : Row α} {s u : Symbol} {definition : Row α}
    (h : (r.substitute s definition).mentions u = true) :
    (u ≠ s ∧ r.mentions u = true) ∨ (r.mentions s = true ∧ definition.mentions u = true) := by
  by_cases hs : r.mentions s = true
  · obtain ⟨c, hc⟩ := LinearForm.mentions_iff.mp hs
    rw [substitute, hc] at h
    rcases LinearForm.mentions_addMultiple h with h | h
    · exact Or.inl (mentions_eraseTerm.mp h)
    · exact Or.inr ⟨hs, h⟩
  · rw [substitute_of_not_mentions hs] at h
    refine Or.inl ⟨?_, h⟩
    rintro rfl
    exact hs h

omit [Scalar α] in
theorem onlyDummies_iff {r : Row α} :
    r.onlyDummies = true ↔ ∀ u, r.mentions u = true → u.isDummy = true := by
  refine OrderedMap.all_iff.trans ⟨?_, ?_⟩
  · intro h u hu
    obtain ⟨c, hc⟩ := LinearForm.mentions_iff.mp hu
    exact h u c hc
  · intro h u c hc
    exact h u (LinearForm.mentions_iff.mpr ⟨c, hc⟩)

end Row

end LinearConstraints
