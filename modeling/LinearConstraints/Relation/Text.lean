import LinearConstraints.Expression.Text
import LinearConstraints.Relation.Basic

/-! # The text of a relation -/

namespace LinearConstraints

/-- Both sides with the sign of the comparison between them. -/
def Relation.text {α : Type} [Scalar α] (w : Writer α) (r : Relation α) : String :=
  Expression.text w r.lhs ++ " " ++ r.comparison.sign ++ " " ++ Expression.text w r.rhs

end LinearConstraints
