import LinearConstraints.OrderedMap.Basic
import LinearConstraints.Variable

/-! # The symbols of a tableau

    A symbol is an unknown of the tableau: a variable of the caller, or one of
    the three kinds that a tableau makes up.  Slacks and artificials are
    restricted to values of at least zero, dummies are zero.

    Symbols are ordered by kind first and by number next.  Wherever there is a
    choice between symbols, the least one is taken. -/

namespace LinearConstraints

/-- An unknown of a tableau. -/
inductive Symbol where
  /-- A variable of the caller, free in sign. -/
  | external (id : VariableId)
  /-- The distance between the sides of an inequality. -/
  | slack (index : Nat)
  /-- The mark of an equation, always zero. -/
  | dummy (index : Nat)
  /-- What is still missing from a row that is being absorbed. -/
  | artificial (index : Nat)
deriving DecidableEq, Repr

namespace Symbol

/-! ## The order -/

/-- The place of a kind in the order. -/
def rank : Symbol → Nat
  | external _ => 0
  | slack _ => 1
  | dummy _ => 2
  | artificial _ => 3

/-- The number within the kind. -/
def index : Symbol → Nat
  | external i => i
  | slack i => i
  | dummy i => i
  | artificial i => i

/-- Kinds first, numbers within a kind. -/
instance : Ord Symbol := ⟨compareLex (compareOn rank) (compareOn index)⟩

instance : Std.TransOrd Symbol :=
  inferInstanceAs (Std.TransCmp (compareLex (compareOn rank) (compareOn index)))

/-- Kind and number determine the symbol. -/
theorem ext_rank_index {s t : Symbol} (hr : s.rank = t.rank) (hi : s.index = t.index) : s = t := by
  cases s <;> cases t <;> simp_all [rank, index]

instance : Std.LawfulEqOrd Symbol where
  eq_of_compare {s t} h := by
    have h' : (compare s.rank t.rank).then (compare s.index t.index) = .eq := h
    rw [Ordering.then_eq_eq] at h'
    exact ext_rank_index (Nat.compare_eq_eq.mp h'.1) (Nat.compare_eq_eq.mp h'.2)

/-! ## Kinds -/

/-- Whether the symbol is a variable of the caller. -/
def isExternal : Symbol → Bool
  | external _ => true
  | _ => false

/-- Whether the symbol is a slack. -/
def isSlack : Symbol → Bool
  | slack _ => true
  | _ => false

/-- Whether the symbol is a dummy. -/
def isDummy : Symbol → Bool
  | dummy _ => true
  | _ => false

/-- Whether the symbol is an artificial. -/
def isArtificial : Symbol → Bool
  | artificial _ => true
  | _ => false

/-- Whether the symbol must not become negative. -/
def isRestricted (s : Symbol) : Bool := s.isSlack || s.isArtificial

/-- Whether the symbol may be solved for in place of another. -/
def isPivotable (s : Symbol) : Bool := !s.isDummy

/-- The letter of the kind and the number. -/
def text : Symbol → String
  | external id => "v" ++ toString id
  | slack index => "s" ++ toString index
  | dummy index => "d" ++ toString index
  | artificial index => "a" ++ toString index

/-- The symbols in ascending order, each as often as it was given. -/
def sort (symbols : List Symbol) : List Symbol :=
  symbols.mergeSort fun s t => (compare s t).isLE

end Symbol

end LinearConstraints
