import LinearConstraints.Tableau.Insertion
import LinearConstraints.Tableau.Removal
import LinearConstraints.Tableau.Repair

/-! # Changes in place, step by step

    What a change to a tableau comes to is read off its run.  The equations
    here do so once for every change, so that nothing else has to run one:
    they say what becomes of the tableau where the change goes through, and
    why it is refused where it does not.

    What a refused change leaves is not what it began with.  A number has been
    given away at least, to a marker or to an artificial. -/

namespace LinearConstraints

namespace TableauM

variable {α β γ : Type} {t : Tableau α}

/-! ## One change after the other -/

theorem answer_of_ok {change : TableauM α β} {y : β} {next : Tableau α}
    (h : change.run t = .ok y next) : change.answer t = .ok (y, next) := by
  rw [answer, h]

theorem answer_of_error {change : TableauM α β} {reason : Refusal α} {left : Tableau α}
    (h : change.run t = .error reason left) : change.answer t = .error reason := by
  rw [answer, h]

theorem answer_eq_outcome (change : TableauM α Unit) (t : Tableau α) :
    change.answer t = change.outcome t >>= fun u => .ok ((), u) := by
  simp only [answer, outcome]
  cases change.run t with
  | ok y u => rfl
  | error reason left => rfl

/-- A change that looks at the tableau goes on from there. -/
theorem outcome_get_bind (next : Tableau α → TableauM α Unit) (t : Tableau α) :
    (get >>= next).outcome t = (next t).outcome t := rfl

theorem answer_get_bind (next : Tableau α → TableauM α β) (t : Tableau α) :
    (get >>= next).answer t = (next t).answer t := rfl

theorem answer_set_bind (u : Tableau α) (next : Unit → TableauM α β) (t : Tableau α) :
    (set u >>= next).answer t = (next ()).answer u := rfl

/-- A change that hands out nothing is followed by another one. -/
theorem outcome_bind (change : TableauM α Unit) (next : Unit → TableauM α Unit) (t : Tableau α) :
    (change >>= next).outcome t = change.outcome t >>= (next ()).outcome := by
  simp only [outcome]
  rw [EStateM.run_bind]
  cases change.run t with
  | ok y u => rfl
  | error reason left => rfl

/-- What has been found before is handed out in the end. -/
theorem answer_bind_pure (change : TableauM α Unit) (y : β) (t : Tableau α) :
    (change >>= fun _ => pure y).answer t = change.outcome t >>= fun u => .ok (y, u) := by
  simp only [answer, outcome]
  rw [EStateM.run_bind]
  cases change.run t with
  | ok z u => rfl
  | error reason left => rfl

end TableauM

namespace Tableau

variable {α : Type} [Scalar α] {t : Tableau α}

/-! ## Phase one -/

theorem descend_eq (objective : Symbol) (limit : Nat) (t : Tableau α) :
    t.descend objective limit =
      match t.nextMove objective with
      | .done => .ok t
      | .unbounded => .error .unboundedArtificial
      | .exchange leaving entering =>
          match limit with
          | 0 => .error .endlessSearch
          | limit + 1 => (t.exchange leaving entering).descend objective limit := by
  rw [descend, TableauM.descend, TableauM.outcome_get_bind]
  cases t.nextMove objective with
  | done => rfl
  | unbounded => rfl
  | exchange leaving entering =>
      cases limit with
      | zero => rfl
      | succ limit => rfl

/-- The tableau phase one starts from: the row belongs to a new artificial. -/
def charge (t : Tableau α) (row : Row α) : Tableau α :=
  { t with
    rows := t.rows.insert (.artificial t.nextIndex) row
    nextIndex := t.nextIndex + 1 }

/-- The artificial is retired unless it stays positive. -/
theorem absorb_eq_bind (reason : Refusal α) (row : Row α) (t : Tableau α) :
    t.absorb reason row =
      (t.charge row).minimize (.artificial t.nextIndex) >>= fun u =>
        if u.epsilon < u.valueOf (.artificial t.nextIndex) then .error reason
        else .ok (u.retire (.artificial t.nextIndex)) := by
  refine (TableauM.outcome_bind (TableauM.minimize _) _ (t.charge row)).trans ?_
  refine congrArg (_ >>= ·) (funext fun u => ?_)
  rw [TableauM.outcome_get_bind]
  split
  · rfl
  · rfl

theorem absorb_eq (reason : Refusal α) (row : Row α) (t : Tableau α) :
    t.absorb reason row =
      match (t.charge row).minimize (.artificial t.nextIndex) with
      | .error e => .error e
      | .ok u =>
          if u.epsilon < u.valueOf (.artificial t.nextIndex) then .error reason
          else .ok (u.retire (.artificial t.nextIndex)) := by
  rw [absorb_eq_bind]
  cases (t.charge row).minimize (.artificial t.nextIndex) <;> rfl

/-! ## Imposing and withdrawing -/

theorem impose_eq (editable : VariableId → Bool) (r : Relation α) (t : Tableau α) :
    t.impose editable r =
      match t.subject? editable r (t.rowOf r) with
      | some subject =>
          .ok (t.marker r.comparison,
            Tableau.define { t with nextIndex := t.nextIndex + 1 } subject
              ((t.rowOf r).isolate subject))
      | none =>
          if (t.rowOf r).onlyDummies then
            if t.epsilon < (t.rowOf r).constant then .error (.unsatisfiable r)
            else
              .ok (t.marker r.comparison,
                { t with
                  rows := t.rows.insert (t.marker r.comparison)
                    (Row.isolate { t.rowOf r with constant := 0 } (t.marker r.comparison))
                  nextIndex := t.nextIndex + 1 })
          else
            Tableau.absorb (.unsatisfiable r) (t.rowOf r) { t with nextIndex := t.nextIndex + 1 }
              >>= fun u => .ok (t.marker r.comparison, u) := by
  rw [impose, TableauM.impose, TableauM.answer_get_bind, TableauM.answer_set_bind]
  cases t.subject? editable r (t.rowOf r) with
  | some subject => rfl
  | none =>
      simp only
      by_cases hdum : (t.rowOf r).onlyDummies = true
      · rw [if_pos hdum, if_pos hdum]
        split
        · rfl
        · rfl
      · rw [if_neg hdum, if_neg hdum]
        exact TableauM.answer_bind_pure (TableauM.absorb _ _) _ _

theorem withdraw_eq (marker : Symbol) (t : Tableau α) :
    t.withdraw marker =
      if t.isBasic marker then .ok (t.eraseRow marker)
      else if t.mentions marker then
        match t.donor? marker with
        | some (leaving, row) =>
            .ok ((t.eraseRow leaving).substitute marker (row.exchange leaving marker))
        | none => .error .markerWithoutRow
      else .ok t := by
  rw [withdraw, TableauM.withdraw, TableauM.outcome_get_bind]
  split
  · rfl
  · split
    · cases t.donor? marker <;> rfl
    · rfl

/-! ## Repairing -/

theorem absorbAll_cons_eq_bind (a : Symbol × Row α) (pending : List (Symbol × Row α))
    (t : Tableau α) :
    absorbAll (a :: pending) t =
      t.absorb (.unrepairable a.1) (t.reduce a.2).orient >>= absorbAll pending :=
  TableauM.outcome_bind (TableauM.absorb _ _) _ t

theorem absorbAll_cons (a : Symbol × Row α) (pending : List (Symbol × Row α)) (t : Tableau α) :
    absorbAll (a :: pending) t =
      match t.absorb (.unrepairable a.1) (t.reduce a.2).orient with
      | .error e => .error e
      | .ok u => absorbAll pending u := by
  rw [absorbAll_cons_eq_bind]
  cases t.absorb (.unrepairable a.1) (t.reduce a.2).orient <;> rfl

theorem repair_eq_absorbAll (t : Tableau α) :
    t.repair = absorbAll t.negativeRows
      { t with rows := t.rows.filter fun s row => !t.isNegative s row } := rfl

/-- Withdrawing a relation and repairing the tableau is one change. -/
theorem outcome_withdraw_repair (marker : Symbol) (t : Tableau α) :
    TableauM.outcome (do TableauM.withdraw marker; TableauM.repair) t
      = t.withdraw marker >>= Tableau.repair :=
  TableauM.outcome_bind (TableauM.withdraw marker) _ t

end Tableau

end LinearConstraints
