/-! # Maps with their keys in ascending order

    A map is the list of its entries, strictly ascending in the key, and the
    order is part of the type.  Two maps with the same look-ups are therefore
    equal, a scan over the entries always meets the keys in the same order,
    and the kernel can evaluate every operation on a closed map.

    Coefficients of an expression, cells of a row and rows of a tableau are
    all kept in such maps: the order in which they are scanned is what makes
    the choice of a pivot deterministic. -/

namespace LinearConstraints

/-- A finite map whose entries are listed by strictly ascending key. -/
structure OrderedMap (κ ν : Type) [Ord κ] where
  /-- The entries, least key first. -/
  entries : List (κ × ν)
  /-- Every key is below all later keys. -/
  ascending : entries.Pairwise fun a b => compare a.1 b.1 = .lt

namespace OrderedMap

variable {κ ν μ β : Type} [Ord κ]

/-! ## Entry lists -/

/-- The value of the first entry with the given key. -/
def lookup (key : κ) : List (κ × ν) → Option ν
  | [] => none
  | (k, v) :: rest => if compare key k = .eq then some v else lookup key rest

/-- Puts an entry at its place in an ascending list, over an entry with the
    same key if there is one. -/
def place (key : κ) (value : ν) : List (κ × ν) → List (κ × ν)
  | [] => [(key, value)]
  | (k, v) :: rest =>
      match compare key k with
      | .lt => (key, value) :: (k, v) :: rest
      | .eq => (key, value) :: rest
      | .gt => (k, v) :: place key value rest

/-- Every entry of the new list is the placed one or an old one. -/
theorem mem_place {key : κ} {value : ν} {a : κ × ν} :
    ∀ {l : List (κ × ν)}, a ∈ place key value l → a = (key, value) ∨ a ∈ l := by
  intro l
  induction l with
  | nil =>
      intro h
      exact Or.inl (List.mem_singleton.mp h)
  | cons b rest ih =>
      obtain ⟨k, v⟩ := b
      intro h
      unfold place at h
      split at h
      · rcases List.mem_cons.mp h with rfl | h
        · exact Or.inl rfl
        · exact Or.inr h
      · rcases List.mem_cons.mp h with rfl | h
        · exact Or.inl rfl
        · exact Or.inr (List.mem_cons_of_mem _ h)
      · rcases List.mem_cons.mp h with rfl | h
        · exact Or.inr (List.mem_cons_self ..)
        · rcases ih h with h | h
          · exact Or.inl h
          · exact Or.inr (List.mem_cons_of_mem _ h)

/-- Placing an entry keeps the list ascending. -/
theorem pairwise_place [Std.TransOrd κ] [Std.LawfulEqOrd κ] (key : κ) (value : ν) :
    ∀ {l : List (κ × ν)}, l.Pairwise (fun a b => compare a.1 b.1 = .lt) →
      (place key value l).Pairwise (fun a b => compare a.1 b.1 = .lt) := by
  intro l
  induction l with
  | nil =>
      intro _
      exact List.pairwise_singleton ..
  | cons b rest ih =>
      obtain ⟨k, v⟩ := b
      intro h
      obtain ⟨hk, hrest⟩ := List.pairwise_cons.mp h
      unfold place
      split
      · next hlt =>
          refine List.pairwise_cons.mpr ⟨?_, h⟩
          intro a ha
          rcases List.mem_cons.mp ha with rfl | ha
          · exact hlt
          · exact Std.TransCmp.lt_trans hlt (hk a ha)
      · next heq =>
          have hkey : key = k := Std.LawfulEqCmp.eq_of_compare heq
          subst hkey
          exact List.pairwise_cons.mpr ⟨hk, hrest⟩
      · next hgt =>
          refine List.pairwise_cons.mpr ⟨?_, ih hrest⟩
          intro a ha
          rcases mem_place ha with rfl | ha
          · exact Std.OrientedCmp.gt_iff_lt.mp hgt
          · exact hk a ha

/-! ## Operations -/

/-- The map without entries. -/
def empty : OrderedMap κ ν := ⟨[], List.Pairwise.nil⟩

instance : EmptyCollection (OrderedMap κ ν) := ⟨empty⟩

instance : Inhabited (OrderedMap κ ν) := ⟨∅⟩

/-- The number of entries. -/
def size (m : OrderedMap κ ν) : Nat := m.entries.length

/-- Whether the map has no entry. -/
def isEmpty (m : OrderedMap κ ν) : Bool := m.entries.isEmpty

/-- The keys, ascending. -/
def keys (m : OrderedMap κ ν) : List κ := m.entries.map (·.1)

/-- The value at a key. -/
def get? (m : OrderedMap κ ν) (key : κ) : Option ν := lookup key m.entries

/-- The value at a key, or `fallback` where there is none. -/
def getD (m : OrderedMap κ ν) (key : κ) (fallback : ν) : ν := (m.get? key).getD fallback

/-- Whether a key has an entry. -/
def contains (m : OrderedMap κ ν) (key : κ) : Bool := (m.get? key).isSome

instance : Membership κ (OrderedMap κ ν) := ⟨fun m key => m.contains key = true⟩

instance (key : κ) (m : OrderedMap κ ν) : Decidable (key ∈ m) :=
  inferInstanceAs (Decidable (m.contains key = true))

/-- Gives a key its value, whether or not it had one. -/
def insert [Std.TransOrd κ] [Std.LawfulEqOrd κ] (m : OrderedMap κ ν) (key : κ) (value : ν) :
    OrderedMap κ ν :=
  ⟨place key value m.entries, pairwise_place key value m.ascending⟩

/-- Takes a key and its value away. -/
def erase (m : OrderedMap κ ν) (key : κ) : OrderedMap κ ν :=
  ⟨m.entries.filter fun a => compare key a.1 ≠ .eq, m.ascending.filter _⟩

/-- Applies a function to every value. -/
def mapValues (f : ν → μ) (m : OrderedMap κ ν) : OrderedMap κ μ :=
  ⟨m.entries.map fun a => (a.1, f a.2), List.pairwise_map.mpr m.ascending⟩

/-- Keeps the entries that pass the test. -/
def filter (m : OrderedMap κ ν) (p : κ → ν → Bool) : OrderedMap κ ν :=
  ⟨m.entries.filter fun a => p a.1 a.2, m.ascending.filter _⟩

/-- Folds over the entries, least key first. -/
def foldl (f : β → κ → ν → β) (start : β) (m : OrderedMap κ ν) : β :=
  m.entries.foldl (fun acc a => f acc a.1 a.2) start

/-- Whether every entry passes the test. -/
def all (m : OrderedMap κ ν) (p : κ → ν → Bool) : Bool := m.entries.all fun a => p a.1 a.2

/-- Whether some entry passes the test. -/
def any (m : OrderedMap κ ν) (p : κ → ν → Bool) : Bool := m.entries.any fun a => p a.1 a.2

/-- The first entry that passes the test. -/
def find? (m : OrderedMap κ ν) (p : κ → ν → Bool) : Option (κ × ν) :=
  m.entries.find? fun a => p a.1 a.2

/-- Two maps with the same entries are equal. -/
theorem ext_entries {m n : OrderedMap κ ν} (h : m.entries = n.entries) : m = n := by
  cases m
  cases n
  cases h
  rfl

instance [DecidableEq κ] [DecidableEq ν] : DecidableEq (OrderedMap κ ν) := fun m n =>
  decidable_of_iff (m.entries = n.entries) ⟨ext_entries, fun h => h ▸ rfl⟩

end OrderedMap

end LinearConstraints
