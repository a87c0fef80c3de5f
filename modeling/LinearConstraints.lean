import LinearConstraints.Decimal.Double
import LinearConstraints.Expression.Formula
import LinearConstraints.OrderedMap.Lemmas
import LinearConstraints.Proofs.Form.Canonical
import LinearConstraints.Proofs.Form.Offences
import LinearConstraints.Proofs.Tableau.Conversion
import LinearConstraints.Proofs.Tableau.Repairing
import LinearConstraints.Proofs.Tableau.Undoing
import LinearConstraints.Proofs.Text.Relation
import LinearConstraints.Proofs.World.Apart
import LinearConstraints.Proofs.World.Artificials
import LinearConstraints.Proofs.World.Dummies
import LinearConstraints.Proofs.World.Edits
import LinearConstraints.Proofs.World.Ending
import LinearConstraints.Proofs.World.Feasibility
import LinearConstraints.Proofs.World.Idempotence
import LinearConstraints.Proofs.World.Internal
import LinearConstraints.Proofs.World.Markers
import LinearConstraints.Proofs.World.Ownership
import LinearConstraints.Proofs.World.References
import LinearConstraints.Proofs.World.Remains
import LinearConstraints.Proofs.World.Removal
import LinearConstraints.Proofs.World.Retention
import LinearConstraints.Proofs.World.Subjects
import LinearConstraints.Scalar.Rational
import LinearConstraints.Tableau.Text
import LinearConstraints.World.History
