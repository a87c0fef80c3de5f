import LinearConstraints.Proofs.Form.Mentions

/-! # What becomes of a single cell

    Adding a multiple of a row visits each of its cells once, so every cell of
    the sum is either left alone or dropped because it is negligible.  That
    decides for each symbol whether it is still mentioned after a
    substitution.  An exchange only rescales and so drops nothing, as long as
    minus one is not negligible itself. -/

namespace LinearConstraints

namespace LinearForm

variable {κ α : Type} [Ord κ] [Scalar α] [Std.TransOrd κ] [Std.LawfulEqOrd κ]
  {drop : α → Bool}

theorem get?_addTerm_self (f : LinearForm κ α) (k : κ) (c : α) :
    (f.addTerm drop k c).terms.get? k
      = if drop (f.coefficient k + c) then none else some (f.coefficient k + c) := by
  simp only [addTerm]
  split
  · exact OrderedMap.get?_erase_self ..
  · exact OrderedMap.get?_insert_self ..

theorem get?_addTerm_of_ne (f : LinearForm κ α) {k u : κ} (c : α) (h : u ≠ k) :
    (f.addTerm drop k c).terms.get? u = f.terms.get? u := by
  simp only [addTerm]
  split
  · exact OrderedMap.get?_erase_of_ne _ h
  · exact OrderedMap.get?_insert_of_ne _ _ h

/-- A coefficient of the sum was there before or has not been dropped. -/
theorem get?_of_addTerm {f : LinearForm κ α} {k u : κ} {c d : α}
    (h : (f.addTerm drop k c).terms.get? u = some d) :
    f.terms.get? u = some d ∨ drop d = false := by
  by_cases hu : u = k
  · subst hu
    rw [get?_addTerm_self] at h
    split at h
    · exact nomatch h
    · next hkeep => exact .inr (Option.some.inj h ▸ Bool.eq_false_iff.mpr hkeep)
  · exact .inl ((get?_addTerm_of_ne f c hu).symm.trans h)

/-- Along an ascending list of entries every unknown comes up at most once. -/
theorem get?_foldl_addTerm (factor : α) (u : κ) :
    ∀ {l : List (κ × α)}, l.Pairwise (fun a b => compare a.1 b.1 = .lt) →
      ∀ f : LinearForm κ α,
        (l.foldl (fun sum a => sum.addTerm drop a.1 (a.2 * factor)) f).terms.get? u
          = match OrderedMap.lookup u l with
            | some c =>
                if drop (f.coefficient u + c * factor) then none
                else some (f.coefficient u + c * factor)
            | none => f.terms.get? u := by
  intro l
  induction l with
  | nil => exact fun _ _ => rfl
  | cons a rest ih =>
      obtain ⟨k, c⟩ := a
      intro h f
      obtain ⟨hk, hrest⟩ := List.pairwise_cons.mp h
      rw [List.foldl_cons, ih hrest]
      by_cases hu : compare u k = .eq
      · obtain rfl := Std.LawfulEqCmp.eq_of_compare hu
        have hnone : OrderedMap.lookup u rest = none :=
          OrderedMap.lookup_eq_none fun a ha he => by
            rw [hk a ha] at he
            exact nomatch he
        rw [hnone]
        simp only [OrderedMap.lookup, if_pos hu]
        exact get?_addTerm_self f u _
      · have hne : u ≠ k := fun he => hu (by rw [he]; exact Std.ReflCmp.compare_self)
        have hcell : (f.addTerm drop k (c * factor)).terms.get? u = f.terms.get? u :=
          get?_addTerm_of_ne f _ hne
        simp only [OrderedMap.lookup, if_neg hu]
        rw [coefficient_congr hcell, hcell]

/-- A cell of a sum is dropped, changed or left alone. -/
theorem get?_addMultiple (f g : LinearForm κ α) (factor : α) (u : κ) :
    (f.addMultiple drop g factor).terms.get? u
      = match g.terms.get? u with
        | some c =>
            if drop (f.coefficient u + c * factor) then none
            else some (f.coefficient u + c * factor)
        | none => f.terms.get? u :=
  get?_foldl_addTerm factor u g.terms.ascending _

end LinearForm

namespace Row

variable {α : Type} [Scalar α]

/-! ## Setting a cell -/

theorem mentions_setTerm_self {r : Row α} {s : Symbol} {c : α}
    (hc : Scalar.negligible c = false) : (r.setTerm s c).mentions s = true := by
  simp only [setTerm]
  rw [hc]
  exact OrderedMap.mem_insert_iff.mpr (Or.inl rfl)

/-- Setting one cell leaves the others alone. -/
theorem get?_setTerm_of_ne (r : Row α) {s u : Symbol} (c : α) (h : u ≠ s) :
    (r.setTerm s c).terms.get? u = r.terms.get? u := by
  simp only [setTerm]
  split
  · exact OrderedMap.get?_erase_of_ne _ h
  · exact OrderedMap.get?_insert_of_ne _ _ h

theorem mentions_setTerm_of_ne (r : Row α) {s u : Symbol} (c : α) (h : u ≠ s) :
    (r.setTerm s c).mentions u = r.mentions u :=
  congrArg Option.isSome (get?_setTerm_of_ne r c h)

/-- An exchange puts the leaving symbol in the place of the entering one and
    drops nothing. -/
theorem mentions_exchange_iff (hunit : Scalar.negligible (-1 : α) = false) {r : Row α}
    {leaving entering u : Symbol} :
    (r.exchange leaving entering).mentions u = true
      ↔ u ≠ entering ∧ (u = leaving ∨ r.mentions u = true) := by
  refine ⟨mentions_exchange, fun ⟨hne, h⟩ => mentions_isolate.mpr ⟨hne, ?_⟩⟩
  by_cases hu : u = leaving
  · subst hu
    exact mentions_setTerm_self hunit
  · rw [mentions_setTerm_of_ne r _ hu]
    exact h.resolve_left hu

/-! ## Substituting -/

theorem get?_addMultiple (r other : Row α) (factor : α) (u : Symbol) :
    (r.addMultiple other factor).terms.get? u
      = match other.terms.get? u with
        | some c =>
            if Scalar.negligible (r.coefficient u + c * factor) then none
            else some (r.coefficient u + c * factor)
        | none => r.terms.get? u :=
  LinearForm.get?_addMultiple r other factor u

/-- Whether a row lacks a symbol once another one has been replaced: the
    definition mentions it and leaves its cell negligible, or it was not there
    and is not brought in. -/
def Lacks (r : Row α) (s : Symbol) (definition : Row α) (u : Symbol) : Prop :=
  if r.mentions s = true ∧ definition.mentions u = true then
    Scalar.negligible (r.coefficient u + definition.coefficient u * r.coefficient s) = true
  else ¬ r.mentions u = true

theorem mentions_substitute_iff {r definition : Row α} {s u : Symbol} (hne : u ≠ s) :
    (r.substitute s definition).mentions u = true ↔ ¬ r.Lacks s definition u := by
  by_cases hs : r.mentions s = true
  · obtain ⟨c, hc⟩ := LinearForm.mentions_iff.mp hs
    have hcell : (r.eraseTerm s).terms.get? u = r.terms.get? u :=
      OrderedMap.get?_erase_of_ne _ hne
    have hget := get?_addMultiple (r.eraseTerm s) definition c u
    rw [LinearForm.coefficient_congr hcell, hcell] at hget
    have hsum : r.substitute s definition = (r.eraseTerm s).addMultiple definition c := by
      simp only [substitute]
      rw [hc]
    rw [hsum, LinearForm.mentions_iff, hget, Lacks, LinearForm.coefficient_of_get? hc]
    cases hd : definition.terms.get? u with
    | some d =>
        have hmentions := LinearForm.mentions_iff.mpr ⟨d, hd⟩
        rw [if_pos ⟨hs, hmentions⟩, LinearForm.coefficient_of_get? hd]
        simp only
        split
        · next hdrop =>
            refine ⟨?_, fun h => absurd hdrop h⟩
            rintro ⟨_, h⟩
            cases h
        · next hkeep => exact ⟨fun _ => hkeep, fun _ => ⟨_, rfl⟩⟩
    | none =>
        have hmentions : ¬ definition.mentions u = true := by
          rw [LinearForm.mentions_iff, hd]
          rintro ⟨_, h⟩
          cases h
        rw [if_neg fun h => hmentions h.2, Decidable.not_not]
        exact LinearForm.mentions_iff.symm
  · rw [substitute_of_not_mentions hs, Lacks, if_neg fun h => hs h.1, Decidable.not_not]

/-- Only what the definition mentions can be dropped. -/
theorem mentions_substitute_of_not_mentions {r definition : Row α} {s u : Symbol} (hne : u ≠ s)
    (hu : r.mentions u = true) (hd : ¬ definition.mentions u = true) :
    (r.substitute s definition).mentions u = true := by
  rw [mentions_substitute_iff hne, Lacks, if_neg fun h => hd h.2]
  exact Decidable.not_not.mpr hu

end Row

end LinearConstraints
