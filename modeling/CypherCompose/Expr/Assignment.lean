import CypherCompose.Expr.Reading
import CypherCompose.Expr.Render

/-!
# Assignments

`target = value`, as SET and the two outcomes of a MERGE hold them.  The target is a property, or a
variable that takes over a whole map.
-/

namespace CypherCompose

/-- An assignment to a property, or of all properties to a variable. -/
structure Assignment where
  target : Expr
  value : Expr

/-- The tokens of an assignment. -/
def Assignment.render (a : Assignment) : List Token :=
  Token.fill a.target.render ++ [.blank, .sym "=", .blank] ++ Token.fill a.value.render

/-- An assignment, from its two sides. -/
def readAssign (target value : Value) : Draft Assignment :=
  match target with
  | .property .. | .var _ => do
      let t ← Expr.ofValue target
      let v ← Expr.ofValue value
      pure ⟨t, v⟩
  | _ => .fail (.expr (.badTarget target (.assign target value)))

/-- A value read as an assignment. -/
def readAssignment : Value → Draft Assignment
  | .assign target value => readAssign target value
  | v => .fail (.expr (.notAssignment v))

end CypherCompose
