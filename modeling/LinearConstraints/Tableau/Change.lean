import LinearConstraints.Refusal
import LinearConstraints.Tableau.Basic

/-! # Changes to a tableau

    A tableau is changed in place, step by step, and a change may turn out to
    be impossible when some of its steps have been made.  It is then refused,
    and what it has done by then stays done: rows are missing, an artificial is
    still there, numbers have been given away.  Whoever needs the tableau as it
    was has to keep it and to put it back.

    What a change comes to where it is not refused is read off its run. -/

namespace LinearConstraints

/-- A change to a tableau that may be refused half done. -/
abbrev TableauM (α : Type) := EStateM (Refusal α) (Tableau α)

namespace TableauM

variable {α β : Type}

/-- What a change hands out and leaves behind, or why it is refused. -/
def answer (change : TableauM α β) (t : Tableau α) : Except (Refusal α) (β × Tableau α) :=
  match change.run t with
  | .ok y next => .ok (y, next)
  | .error reason _ => .error reason

/-- What a change leaves behind that hands out nothing. -/
def outcome (change : TableauM α Unit) (t : Tableau α) : Except (Refusal α) (Tableau α) :=
  match change.run t with
  | .ok _ next => .ok next
  | .error reason _ => .error reason

end TableauM

end LinearConstraints
