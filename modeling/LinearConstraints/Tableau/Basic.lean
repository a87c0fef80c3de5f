import LinearConstraints.Row.Basic

/-! # The tableau

    A tableau defines some symbols, the basic ones, as linear forms over the
    others, the parametric ones.  With all parametric symbols at zero a basic
    symbol is worth its constant; the tableau is feasible when no restricted
    symbol is then negative.

    Two operations change the rows.  Defining a symbol adds its row and puts
    the row in place of the symbol everywhere else, so that no row ever
    mentions a basic symbol.  Exchanging two symbols solves the row of one for
    the other. -/

namespace LinearConstraints

/-- Definitions of basic symbols over parametric ones. -/
structure Tableau (α : Type) where
  /-- The row of each basic symbol. -/
  rows : OrderedMap Symbol (Row α)
  /-- The number of the next symbol to be made up. -/
  nextIndex : Nat
  /-- How far below zero a restricted symbol may fall, and how far above zero
      an artificial may stay. -/
  epsilon : α
deriving DecidableEq

namespace Tableau

variable {α : Type} [Scalar α]

/-- The tableau without rows. -/
def empty (epsilon : α) : Tableau α := ⟨∅, 0, epsilon⟩

/-! ## Reading a tableau -/

/-- The number of rows. -/
def size (t : Tableau α) : Nat := t.rows.size

/-- Whether there is no row. -/
def isEmpty (t : Tableau α) : Bool := t.rows.isEmpty

/-- The row of a basic symbol. -/
def row? (t : Tableau α) (s : Symbol) : Option (Row α) := t.rows.get? s

/-- Whether a symbol has a row. -/
def isBasic (t : Tableau α) (s : Symbol) : Bool := t.rows.contains s

/-- Whether a symbol has a row or occurs in one. -/
def mentions (t : Tableau α) (s : Symbol) : Bool :=
  t.isBasic s || t.rows.any fun _ row => row.mentions s

/-- What a symbol is worth with all parametric symbols at zero. -/
def valueOf (t : Tableau α) (s : Symbol) : α :=
  match t.row? s with
  | some row => row.constant
  | none => 0

/-- Whether no restricted symbol is negative. -/
def isFeasible (t : Tableau α) : Bool :=
  t.rows.all fun s row => !s.isRestricted || decide (-t.epsilon ≤ row.constant)

/-- The basic symbols whose rows mention a symbol, with its coefficients. -/
def column (t : Tableau α) (s : Symbol) : List (Symbol × α) :=
  t.rows.entries.filterMap fun a => (a.2.terms.get? s).map fun c => (a.1, c)

/-! ## What a tableau says -/

/-- Values of the symbols that make every row true. -/
def Satisfies (t : Tableau α) (value : Symbol → α) : Prop :=
  ∀ s row, t.row? s = some row → value s = row.evaluate value

/-- Basic symbols are mentioned in no row. -/
def Separated (t : Tableau α) : Prop :=
  ∀ s row u, t.row? s = some row → row.mentions u = true → t.isBasic u = false

/-! ## Changing a tableau -/

/-- Puts a row in place of a symbol in every row. -/
def substitute (t : Tableau α) (s : Symbol) (definition : Row α) : Tableau α :=
  { t with rows := t.rows.mapValues fun row => row.substitute s definition }

/-- Makes a symbol basic, with the given row. -/
def define (t : Tableau α) (s : Symbol) (definition : Row α) : Tableau α :=
  { t with rows := (t.substitute s definition).rows.insert s definition }

/-- Takes the row of a symbol away. -/
def eraseRow (t : Tableau α) (s : Symbol) : Tableau α := { t with rows := t.rows.erase s }

/-- Takes a symbol out of every row. -/
def eraseColumn (t : Tableau α) (s : Symbol) : Tableau α :=
  { t with rows := t.rows.mapValues fun row => row.eraseTerm s }

/-- Makes `entering` basic in place of `leaving`. -/
def exchange (t : Tableau α) (leaving entering : Symbol) : Tableau α :=
  match t.row? leaving with
  | some row => (t.eraseRow leaving).define entering (row.exchange leaving entering)
  | none => t

end Tableau

end LinearConstraints
