import LinearConstraints.OrderedMap.Basic

/-! # Look-ups decide an ordered map

    Every operation is described by what it does to `get?`, and `ext` says
    that nothing else about a map matters: ascending lists with the same
    look-ups have the same entries, and there is but one order for them. -/

namespace LinearConstraints.OrderedMap

variable {κ ν μ β : Type} [Ord κ]

/-! ## Look-ups in entry lists -/

private theorem lookup_cons (key k : κ) (v : ν) (rest : List (κ × ν)) :
    lookup key ((k, v) :: rest)
      = if compare key k = .eq then some v else lookup key rest := rfl

/-- A key that no entry has is not found. -/
theorem lookup_eq_none {key : κ} :
    ∀ {l : List (κ × ν)}, (∀ a ∈ l, compare key a.1 ≠ .eq) → lookup key l = none := by
  intro l
  induction l with
  | nil => intro _; rfl
  | cons b rest ih =>
      obtain ⟨k, v⟩ := b
      intro h
      rw [lookup_cons, if_neg (h (k, v) (List.mem_cons_self ..))]
      exact ih fun a ha => h a (List.mem_cons_of_mem _ ha)

section Lawful

variable [Std.LawfulEqOrd κ]

private theorem compare_self_eq (k : κ) : compare k k = .eq := Std.ReflCmp.compare_self

private theorem compare_ne_of_lt {a b : κ} (h : compare a b = .lt) : compare b a ≠ .eq := by
  intro he
  have hba : b = a := Std.LawfulEqCmp.eq_of_compare he
  subst hba
  rw [compare_self_eq] at h
  exact nomatch h

theorem lookup_place_self (key : κ) (value : ν) :
    ∀ l : List (κ × ν), lookup key (place key value l) = some value := by
  intro l
  induction l with
  | nil => simp [place, lookup]
  | cons b rest ih =>
      obtain ⟨k, v⟩ := b
      unfold place
      split
      · simp [lookup]
      · simp [lookup]
      · next hgt =>
          rw [lookup_cons, if_neg (by rw [hgt]; decide)]
          exact ih

theorem lookup_place_of_ne {key other : κ} (value : ν) (h : other ≠ key) :
    ∀ l : List (κ × ν), lookup other (place key value l) = lookup other l := by
  have hc : compare other key ≠ .eq := fun he => h (Std.LawfulEqCmp.eq_of_compare he)
  intro l
  induction l with
  | nil => simp [place, lookup, hc]
  | cons b rest ih =>
      obtain ⟨k, v⟩ := b
      unfold place
      split
      · rw [lookup_cons, if_neg hc]
      · next heq =>
          have hkey : key = k := Std.LawfulEqCmp.eq_of_compare heq
          subst hkey
          rw [lookup_cons, lookup_cons, if_neg hc, if_neg hc]
      · rw [lookup_cons, lookup_cons, ih]

omit [Std.LawfulEqOrd κ] in
/-- Above all keys of a list an entry is placed at its end. -/
theorem place_eq_append [Std.TransOrd κ] {key : κ} {value : ν} :
    ∀ {l : List (κ × ν)}, (∀ a ∈ l, compare a.1 key = .lt) →
      place key value l = l ++ [(key, value)] := by
  intro l
  induction l with
  | nil => intro _; rfl
  | cons b rest ih =>
      obtain ⟨k, v⟩ := b
      intro h
      have hgt : compare key k = .gt :=
        Std.OrientedCmp.gt_iff_lt.mpr (h (k, v) (List.mem_cons_self ..))
      unfold place
      rw [hgt, List.cons_append, ← ih fun a ha => h a (List.mem_cons_of_mem _ ha)]

theorem lookup_filter_of_ne {key other : κ} (h : other ≠ key) :
    ∀ l : List (κ × ν),
      lookup other (l.filter fun a => compare key a.1 ≠ .eq) = lookup other l := by
  intro l
  induction l with
  | nil => rfl
  | cons b rest ih =>
      obtain ⟨k, v⟩ := b
      by_cases hk : compare key k = .eq
      · have hkey : key = k := Std.LawfulEqCmp.eq_of_compare hk
        subst hkey
        have hc : compare other key ≠ .eq := fun he => h (Std.LawfulEqCmp.eq_of_compare he)
        rw [List.filter_cons_of_neg (by simp), lookup_cons, if_neg hc]
        exact ih
      · rw [List.filter_cons_of_pos (by simpa using hk), lookup_cons, lookup_cons, ih]

/-- In an ascending list the entries are exactly what look-ups find. -/
theorem mem_iff_lookup {key : κ} {value : ν} :
    ∀ {l : List (κ × ν)}, l.Pairwise (fun a b => compare a.1 b.1 = .lt) →
      ((key, value) ∈ l ↔ lookup key l = some value) := by
  intro l
  induction l with
  | nil => intro _; simp [lookup]
  | cons b rest ih =>
      obtain ⟨k, v⟩ := b
      intro h
      obtain ⟨hk, hrest⟩ := List.pairwise_cons.mp h
      rw [List.mem_cons, ih hrest, lookup_cons]
      by_cases hc : compare key k = .eq
      · have hkey : key = k := Std.LawfulEqCmp.eq_of_compare hc
        subst hkey
        have hnone : lookup key rest = none :=
          lookup_eq_none fun a ha he => compare_ne_of_lt (hk a ha)
            (by rw [Std.LawfulEqCmp.eq_of_compare he, compare_self_eq])
        rw [if_pos hc, hnone]
        simp [eq_comm]
      · have hne : key ≠ k := fun he => hc (by rw [he, compare_self_eq])
        rw [if_neg hc]
        simp [hne]

/-- No key comes twice in an ascending list. -/
private theorem nodup_fst {l : List (κ × ν)} (h : l.Pairwise fun a b => compare a.1 b.1 = .lt) :
    (l.map (·.1)).Nodup := by
  refine List.pairwise_map.mpr (h.imp fun {a b} hlt heq => ?_)
  rw [heq, compare_self_eq] at hlt
  exact nomatch hlt

/-- Ascending lists with the same look-ups are equal. -/
theorem eq_of_lookup_eq [Std.TransOrd κ] {l₁ l₂ : List (κ × ν)}
    (h₁ : l₁.Pairwise fun a b => compare a.1 b.1 = .lt)
    (h₂ : l₂.Pairwise fun a b => compare a.1 b.1 = .lt)
    (h : ∀ key, lookup key l₁ = lookup key l₂) : l₁ = l₂ := by
  have hnodup : ∀ {l : List (κ × ν)}, l.Pairwise (fun a b => compare a.1 b.1 = .lt) → l.Nodup :=
    fun hl => List.Pairwise.of_map Prod.fst (fun _ _ hne heq => hne (congrArg _ heq)) (nodup_fst hl)
  have hperm : l₁.Perm l₂ := by
    refine (List.perm_ext_iff_of_nodup (hnodup h₁) (hnodup h₂)).mpr fun a => ?_
    obtain ⟨key, value⟩ := a
    rw [mem_iff_lookup h₁, mem_iff_lookup h₂, h key]
  refine hperm.eq_of_pairwise (fun a b _ _ hab hba => ?_) h₁ h₂
  rw [Std.OrientedCmp.gt_iff_lt.mpr hab] at hba
  exact nomatch hba

/-! ## Look-ups in maps -/

omit [Std.LawfulEqOrd κ] in
@[simp] theorem get?_empty (key : κ) : (∅ : OrderedMap κ ν).get? key = none := rfl

@[simp] theorem get?_insert_self [Std.TransOrd κ] (m : OrderedMap κ ν) (key : κ) (value : ν) :
    (m.insert key value).get? key = some value :=
  lookup_place_self key value m.entries

theorem get?_insert_of_ne [Std.TransOrd κ] (m : OrderedMap κ ν) {key other : κ} (value : ν)
    (h : other ≠ key) :
    (m.insert key value).get? other = m.get? other :=
  lookup_place_of_ne value h m.entries

omit [Std.LawfulEqOrd κ] in
@[simp] theorem get?_erase_self (m : OrderedMap κ ν) (key : κ) :
    (m.erase key).get? key = none :=
  lookup_eq_none fun a ha => by
    have := (List.mem_filter.mp ha).2
    simpa using this

theorem get?_erase_of_ne (m : OrderedMap κ ν) {key other : κ} (h : other ≠ key) :
    (m.erase key).get? other = m.get? other :=
  lookup_filter_of_ne h m.entries

omit [Std.LawfulEqOrd κ] in
@[simp] theorem get?_mapValues (f : ν → μ) (m : OrderedMap κ ν) (key : κ) :
    (m.mapValues f).get? key = (m.get? key).map f := by
  show lookup key (m.entries.map fun a => (a.1, f a.2)) = (lookup key m.entries).map f
  induction m.entries with
  | nil => rfl
  | cons b rest ih =>
      obtain ⟨k, v⟩ := b
      rw [List.map_cons, lookup_cons, lookup_cons, ih]
      split <;> rfl

/-- The entries of a map are exactly what look-ups find. -/
theorem mem_entries_iff {m : OrderedMap κ ν} {key : κ} {value : ν} :
    (key, value) ∈ m.entries ↔ m.get? key = some value :=
  mem_iff_lookup m.ascending

theorem get?_filter (m : OrderedMap κ ν) (p : κ → ν → Bool) (key : κ) :
    (m.filter p).get? key = (m.get? key).filter (p key) := by
  cases hm : m.get? key with
  | none =>
      rw [Option.filter_none]
      cases hf : (m.filter p).get? key with
      | none => rfl
      | some value =>
          have := (List.mem_filter.mp (mem_entries_iff.mpr hf)).1
          rw [mem_entries_iff, hm] at this
          exact nomatch this
  | some value =>
      cases hp : p key value with
      | true =>
          rw [Option.filter_some_pos hp]
          exact mem_entries_iff.mp (List.mem_filter.mpr ⟨mem_entries_iff.mpr hm, hp⟩)
      | false =>
          rw [Option.filter_some_neg hp]
          cases hf : (m.filter p).get? key with
          | none => rfl
          | some other =>
              have h := List.mem_filter.mp (mem_entries_iff.mpr hf)
              have hother := h.1
              rw [mem_entries_iff, hm, Option.some.injEq] at hother
              subst hother
              rw [hp] at h
              exact nomatch h.2

/-- Maps with the same look-ups are equal. -/
@[ext] theorem ext [Std.TransOrd κ] {m n : OrderedMap κ ν}
    (h : ∀ key, m.get? key = n.get? key) : m = n :=
  ext_entries (eq_of_lookup_eq m.ascending n.ascending h)

/-- Of two values for one key the second one counts. -/
theorem insert_insert [Std.TransOrd κ] (m : OrderedMap κ ν) (key : κ) (first second : ν) :
    (m.insert key first).insert key second = m.insert key second := by
  refine ext fun other => ?_
  by_cases h : other = key
  · subst h
    rw [get?_insert_self, get?_insert_self]
  · rw [get?_insert_of_ne _ _ h, get?_insert_of_ne _ _ h, get?_insert_of_ne _ _ h]

/-- Nothing changes if a key is given the value that it has. -/
theorem insert_of_get? [Std.TransOrd κ] {m : OrderedMap κ ν} {key : κ} {value : ν}
    (h : m.get? key = some value) : m.insert key value = m := by
  refine ext fun other => ?_
  by_cases ho : other = key
  · subst ho
    rw [get?_insert_self, h]
  · rw [get?_insert_of_ne _ _ ho]

omit [Std.LawfulEqOrd κ] in
theorem mem_iff {m : OrderedMap κ ν} {key : κ} : key ∈ m ↔ ∃ value, m.get? key = some value :=
  Option.isSome_iff_exists

/-- The keys of a map are its members. -/
theorem mem_keys_iff {m : OrderedMap κ ν} {key : κ} : key ∈ m.keys ↔ key ∈ m := by
  rw [mem_iff]
  constructor
  · intro h
    obtain ⟨a, ha, rfl⟩ := List.mem_map.mp h
    exact ⟨a.2, mem_entries_iff.mp ha⟩
  · rintro ⟨value, h⟩
    exact List.mem_map.mpr ⟨(key, value), mem_entries_iff.mpr h, rfl⟩

/-- A map is empty if it has no key. -/
theorem isEmpty_iff {m : OrderedMap κ ν} : m.isEmpty = true ↔ ∀ key, ¬ key ∈ m := by
  rw [isEmpty, List.isEmpty_iff, List.eq_nil_iff_forall_not_mem]
  constructor
  · intro h key hkey
    obtain ⟨value, hvalue⟩ := mem_iff.mp hkey
    exact h _ (mem_entries_iff.mpr hvalue)
  · intro h a ha
    exact h a.1 (mem_iff.mpr ⟨a.2, mem_entries_iff.mp ha⟩)

/-- No key comes twice. -/
theorem nodup_keys (m : OrderedMap κ ν) : m.keys.Nodup := nodup_fst m.ascending

theorem mem_insert_iff [Std.TransOrd κ] {m : OrderedMap κ ν} {key other : κ} {value : ν} :
    other ∈ m.insert key value ↔ other = key ∨ other ∈ m := by
  rw [mem_iff, mem_iff]
  by_cases h : other = key
  · subst h
    simp
  · simp [h, get?_insert_of_ne m value h]

theorem mem_erase_iff {m : OrderedMap κ ν} {key other : κ} :
    other ∈ m.erase key ↔ other ≠ key ∧ other ∈ m := by
  rw [mem_iff, mem_iff]
  by_cases h : other = key
  · subst h
    simp
  · simp [h, get?_erase_of_ne m h]

end Lawful

@[simp] theorem mem_mapValues_iff {m : OrderedMap κ ν} {f : ν → μ} {key : κ} :
    key ∈ m.mapValues f ↔ key ∈ m := by
  rw [mem_iff, mem_iff]
  cases hm : m.get? key <;> simp [hm]

theorem contains_iff {m : OrderedMap κ ν} {key : κ} :
    m.contains key = true ↔ ∃ value, m.get? key = some value :=
  Option.isSome_iff_exists

/-! ## Scans -/

section Scans

variable [Std.LawfulEqOrd κ]

theorem all_iff {m : OrderedMap κ ν} {p : κ → ν → Bool} :
    m.all p = true ↔ ∀ key value, m.get? key = some value → p key value = true := by
  constructor
  · intro h key value hv
    exact List.all_eq_true.mp h (key, value) (mem_entries_iff.mpr hv)
  · intro h
    exact List.all_eq_true.mpr fun a ha => h a.1 a.2 (mem_entries_iff.mp ha)

theorem any_iff {m : OrderedMap κ ν} {p : κ → ν → Bool} :
    m.any p = true ↔ ∃ key value, m.get? key = some value ∧ p key value = true := by
  constructor
  · intro h
    obtain ⟨a, ha, hp⟩ := List.any_eq_true.mp h
    exact ⟨a.1, a.2, mem_entries_iff.mp ha, hp⟩
  · rintro ⟨key, value, hv, hp⟩
    exact List.any_eq_true.mpr ⟨(key, value), mem_entries_iff.mpr hv, hp⟩

theorem get?_of_find? {m : OrderedMap κ ν} {p : κ → ν → Bool} {key : κ} {value : ν}
    (h : m.find? p = some (key, value)) :
    m.get? key = some value ∧ p key value = true :=
  ⟨mem_entries_iff.mp (List.mem_of_find?_eq_some h),
    List.find?_some (p := fun a : κ × ν => p a.1 a.2) h⟩

theorem find?_eq_none_iff {m : OrderedMap κ ν} {p : κ → ν → Bool} :
    m.find? p = none ↔ ∀ key value, m.get? key = some value → p key value = false := by
  constructor
  · intro h key value hv
    have := List.find?_eq_none.mp h (key, value) (mem_entries_iff.mpr hv)
    simpa using this
  · intro h
    refine List.find?_eq_none.mpr fun a ha => ?_
    rw [h a.1 a.2 (mem_entries_iff.mp ha)]
    exact Bool.false_ne_true

/-- All that matters of a step is what it does at entries of the map. -/
theorem foldl_congr {f g : β → κ → ν → β} {start : β} {m : OrderedMap κ ν}
    (h : ∀ acc key value, m.get? key = some value → f acc key value = g acc key value) :
    m.foldl f start = m.foldl g start := by
  have hentries : ∀ a ∈ m.entries, ∀ acc, f acc a.1 a.2 = g acc a.1 a.2 :=
    fun a ha acc => h acc a.1 a.2 (mem_entries_iff.mp ha)
  simp only [foldl]
  generalize m.entries = l at hentries
  induction l generalizing start with
  | nil => rfl
  | cons a rest ih =>
      rw [List.foldl_cons, List.foldl_cons, hentries a (List.mem_cons_self ..)]
      exact ih fun b hb => hentries b (List.mem_cons_of_mem _ hb)

/-- What holds at the start of a fold and is kept by every entry holds at its
    end. -/
theorem foldl_induction {P : β → Prop} {f : β → κ → ν → β} {start : β} {m : OrderedMap κ ν}
    (hstart : P start)
    (hstep : ∀ acc key value, m.get? key = some value → P acc → P (f acc key value)) :
    P (m.foldl f start) :=
  List.foldlRecOn m.entries (fun acc a => f acc a.1 a.2) hstart fun acc hacc a ha =>
    hstep acc a.1 a.2 (mem_entries_iff.mp ha) hacc

end Scans

/-! ## Sizes -/

@[simp] theorem size_mapValues (f : ν → μ) (m : OrderedMap κ ν) :
    (m.mapValues f).size = m.size :=
  List.length_map ..

section Sizes

variable [Std.LawfulEqOrd κ] [Std.TransOrd κ]

/-- A new key makes a map longer by one. -/
theorem size_insert {m : OrderedMap κ ν} {key : κ} (value : ν) (h : ¬ key ∈ m) :
    (m.insert key value).size = m.size + 1 := by
  have hplace : ∀ l : List (κ × ν), lookup key l = none →
      (place key value l).length = l.length + 1 := by
    intro l
    induction l with
    | nil => intro _; rfl
    | cons a rest ih =>
        intro hl
        unfold lookup at hl
        split at hl
        · exact nomatch hl
        · next hne =>
            unfold place
            split
            · rfl
            · next heq => exact absurd heq hne
            · rw [List.length_cons, ih hl]
              rfl
  refine hplace m.entries ?_
  cases hm : m.get? key with
  | none => exact hm
  | some v => exact absurd (mem_iff.mpr ⟨v, hm⟩) h

/-- Taking a key away makes a map shorter by one. -/
theorem size_erase {m : OrderedMap κ ν} {key : κ} (h : key ∈ m) :
    (m.erase key).size + 1 = m.size := by
  obtain ⟨value, hvalue⟩ := mem_iff.mp h
  have hback : (m.erase key).insert key value = m := by
    refine ext fun other => ?_
    by_cases ho : other = key
    · subst ho
      rw [get?_insert_self, hvalue]
    · rw [get?_insert_of_ne _ _ ho, get?_erase_of_ne _ ho]
  have hnew : ¬ key ∈ m.erase key := fun hk => (mem_erase_iff.mp hk).1 rfl
  rw [← size_insert value hnew, hback]

end Sizes

end LinearConstraints.OrderedMap
