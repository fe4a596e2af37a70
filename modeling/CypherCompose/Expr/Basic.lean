import CypherCompose.Expr.Operator
import CypherCompose.Pattern.Basic

/-!
# Expressions

Expressions that can be written: names are not empty, operators are known, doubles are finite.
-/

namespace CypherCompose

/-- An expression of a statement. -/
inductive Expr where
  | null
  | bool (b : Bool)
  | int (n : Int)
  | float (x : Binary64.Finite)
  | text (s : String)
  /-- The star that stands for all variables. -/
  | star
  | var (name : Name)
  | property (owner key : Name)
  | param (name : ParamName)
  | list (items : List Expr)
  | map (entries : List (Name × Expr))
  | binary (op : BinaryOp) (left right : Expr)
  | unary (op : UnaryOp) (operand : Expr)
  | call (name : FunctionName) (distinct : Bool) (args : List Expr)
  | case (branches : List (Expr × Expr)) (default : Option Expr)
  | existence (paths : List (Path Expr))
  /-- An expression given as a literal: written as it is, but never regrouped with its
  surroundings. -/
  | enclosed (e : Expr)

namespace Expr

/-- Whether an expression applies the operator at its top. -/
def applies (op : BinaryOp) : Expr → Bool
  | binary o _ _ => o == op
  | _ => false

/-- Conditions joined by an operator, from the left. -/
def join (op : BinaryOp) (first : Expr) (rest : List Expr) : Expr :=
  rest.foldl (binary op) first

end Expr

end CypherCompose
