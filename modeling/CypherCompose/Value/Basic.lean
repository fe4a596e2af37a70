import CypherCompose.Clause.Form
import CypherCompose.Value.Atom

/-!
# Values

A query reaches the library as a `Value`: atoms and collections, and the forms queries are built
from.  A form takes any value in any place; what does not fit is reported when the query is read.
-/

namespace CypherCompose

/-- Whatever a caller hands in. -/
inductive Value where
  | atom (a : Atom)
  | list (items : List Value)
  | tuple (items : List Value)
  /-- A map in the order its keys were first given. -/
  | map (entries : List (Value × Value))
  /-- A statement under construction; `cell` tells two of them apart. -/
  | builder (cell : Nat) (clauses : List Value)
  | nodeRef (name label props : Value)
  | relRef (name type hops props : Value)
  | chain (elements steps : Value)
  | property (owner key : Value)
  | param (name value : Value)
  | literal (value : Value)
  | var (name : Value)
  | binary (op left right : Value)
  | unary (op operand : Value)
  | call (name args distinct : Value)
  | case (whens default : Value)
  | existence (pattern : Value)
  | unknownExpr (tag : Value)
  | aliased (expr name : Value)
  | orderItem (expr direction : Value)
  | assign (target value : Value)
  | clause (c : ClauseForm Value)
  /-- `[projection for binding in label if filter]`. -/
  | comprehension (projection binding label filter : Value)
  | statement (text parameters mode : Value)
  | propertyDef (name type required default : Value)
  | nodeSchema (label properties : Value)
  | relSchema (type properties : Value)
  | settings (uri username password database : Value)

namespace Value

@[match_pattern] abbrev null : Value := .atom .null
@[match_pattern] abbrev bool (b : Bool) : Value := .atom (.bool b)
@[match_pattern] abbrev int (n : Int) : Value := .atom (.int n)
@[match_pattern] abbrev float (x : Binary64) : Value := .atom (.float x)
@[match_pattern] abbrev text (s : String) : Value := .atom (.text s)
@[match_pattern] abbrev unset : Value := .atom .unset

instance : Inhabited Value := ⟨null⟩

/-- The name of a value's type. -/
def typeName : Value → String
  | atom a => a.typeName
  | list _ => "list"
  | tuple _ => "tuple"
  | map _ => "dict"
  | builder .. => "Cypher"
  | nodeRef .. => "NodeRef"
  | relRef .. => "RelRef"
  | chain .. => "Chain"
  | property .. => "Property"
  | param .. => "Param"
  | literal _ => "Literal"
  | var _ => "Var"
  | binary .. => "BinaryOp"
  | unary .. => "UnaryOp"
  | call .. => "Call"
  | case .. => "Case"
  | existence _ => "Exists"
  | unknownExpr _ => "UnknownExpr"
  | aliased .. => "Alias"
  | orderItem .. => "OrderItem"
  | assign .. => "Assign"
  | clause c => c.kindName
  | comprehension .. => "Comprehension"
  | statement .. => "CompiledStatement"
  | propertyDef .. => "PropertyDef"
  | nodeSchema .. => "NodeSchema"
  | relSchema .. => "RelSchema"
  | settings .. => "Neo4jSettings"

/-- Whether a value stands for nothing given. -/
def isNull : Value → Bool
  | null => true
  | _ => false

/-- The text a value reads as. -/
def text? : Value → Option String
  | atom a => a.text?
  | _ => none

/-- Whether a value reads as text. -/
def isText (v : Value) : Bool :=
  v.text?.isSome

/-- The integer a value reads as. -/
def int? : Value → Option Int
  | atom a => a.int?
  | _ => none

/-- Whether a value counts as true.  Empty collections do not; array-like data has no answer. -/
def truth? : Value → Option Bool
  | atom a => a.truth?
  | list xs => some !xs.isEmpty
  | tuple xs => some !xs.isEmpty
  | map es => some !es.isEmpty
  | builder _ cs => some !cs.isEmpty
  | _ => some true

/-- The characters of a text, each a text. -/
def characters (s : String) : List Value :=
  s.toList.map fun c => text (String.singleton c)

/-- What walking through an atom visits: the characters of a text, the numbers of a byte string. -/
def atomItems? : Atom → Option (List Value)
  | .bytes bs => some (bs.map fun b => int b.toNat)
  | a => a.text?.map characters

/-- What walking through a value visits; a map is walked by its keys. -/
def items? : Value → Option (List Value)
  | atom a => atomItems? a
  | list xs => some xs
  | tuple xs => some xs
  | map es => some (es.map (·.1))
  | builder _ cs => some cs
  | _ => none

/-- The items of a list or a tuple; nothing stands for no items, and any other value for itself. -/
def asList : Value → List Value
  | null => []
  | list xs => xs
  | tuple xs => xs
  | v => [v]

end Value

end CypherCompose
