import CypherCompose.Decimal.Numeral
import CypherCompose.Value.Membership

/-!
# Making values

Numbers from their numerals, dates and symbols, forms by name and labelled fields (`Value.form?`),
maps entry by entry (`Value.putKey`), and the ways of combining values: chains by steps forward and
backward (`Value.stepTo`), and conditions joined into one (`Value.join`).
-/

namespace CypherCompose

namespace Value

/-- The integer of a numeral. -/
def ofIntNumeral (s : String) : Except Misuse Value :=
  match Numeral.int? s with
  | .ok n => .ok (int n)
  | .error .malformed => .error (.notInteger s)
  | .error (.tooLong n) => .error (.tooManyDigits Numeral.maxDigits n)

/-- The double of a numeral, made in a cell. -/
def ofDoubleNumeral (cell : Nat) (s : String) : Except Misuse Value :=
  match Numeral.double? cell s with
  | some x => .ok (float x)
  | none => .error (.notDouble s)

/-- The days of a month. -/
def daysIn (year month : Int) : Int :=
  if month = 2 then
    if year % 4 = 0 && (year % 100 ≠ 0 || year % 400 = 0) then 29 else 28
  else if [4, 6, 9, 11].contains month then 30
  else 31

/-- The date of a year, a month and a day. -/
def ofDate (year month day : Int) : Except Misuse Value :=
  if year < 1 || 9999 < year then .error (.notDate .year year)
  else if month < 1 || 12 < month then .error (.notDate .month year)
  else if day < 1 || daysIn year month < day then .error (.notDate .day year)
  else .ok (atom (.date year.toNat month.toNat day.toNat))

/-- The direction of a text. -/
def ofDirection (s : String) : Except Misuse Value :=
  match Direction.ofText? s with
  | some d => .ok (atom (.direction d))
  | none => .error (.notDirection (text s))

/-- The access mode of a text. -/
def ofMode (s : String) : Except Misuse Value :=
  match AccessMode.ofText? s with
  | some m => .ok (atom (.mode m))
  | none => .error (.notAccessMode (text s))

/-- The form of a name; fields left out take their defaults. -/
def form? (name : String) (fields : List (String × Value)) : Option Value :=
  let field (key : String) : Value := (fields.lookup key).getD null
  let flag (key : String) : Value := (fields.lookup key).getD (bool false)
  let items (key : String) : Value := (fields.lookup key).getD (list [])
  match name with
  | "NodeRef" => some (nodeRef (field "name") (field "label") (field "props"))
  | "RelRef" => some (relRef (field "name") (field "type") (field "hops") (field "props"))
  | "Chain" => some (chain (items "elements") (items "steps"))
  | "Property" => some (property (field "owner") (field "key"))
  | "Param" => some (param (field "name") ((fields.lookup "value").getD unset))
  | "Literal" => some (literal (field "value"))
  | "Var" => some (var (field "name"))
  | "BinaryOp" => some (binary (field "op") (field "left") (field "right"))
  | "UnaryOp" => some (unary (field "op") (field "operand"))
  | "Call" =>
      some (call (field "name") ((fields.lookup "args").getD (tuple [])) (flag "distinct"))
  | "Case" => some (case (field "whens") (field "default"))
  | "Exists" => some (existence (field "pattern"))
  | "UnknownExpr" => some (unknownExpr (field "tag"))
  | "Alias" => some (aliased (field "expr") (field "alias"))
  | "OrderItem" =>
      some (orderItem (field "expr") ((fields.lookup "direction").getD (text "ASC")))
  | "Assign" => some (assign (field "target") (field "value"))
  | "Match" => some (clause (.matching false (field "patterns")))
  | "OptionalMatch" => some (clause (.matching true (field "patterns")))
  | "Where" => some (clause (.filter (field "conditions")))
  | "Return" => some (clause (.returning (items "items") (flag "distinct")))
  | "With" => some (clause (.passing (items "items") (flag "distinct")))
  | "Unwind" => some (clause (.unwind (field "source") (field "alias")))
  | "Create" => some (clause (.create (field "patterns")))
  | "Merge" => some (clause (.merge (field "pattern")))
  | "Set" => some (clause (.set (field "assignments")))
  | "OnCreateSet" => some (clause (.onMerge .onCreate (field "assignments")))
  | "OnMatchSet" => some (clause (.onMerge .onMatch (field "assignments")))
  | "Remove" => some (clause (.remove (field "items")))
  | "Delete" => some (clause (.delete false (field "items")))
  | "DetachDelete" => some (clause (.delete true (field "items")))
  | "OrderBy" => some (clause (.orderBy (field "items")))
  | "Skip" => some (clause (.skip (field "value")))
  | "Limit" => some (clause (.limit (field "value")))
  | "Union" => some (clause (.union false))
  | "UnionAll" => some (clause (.union true))
  | "CallSubquery" => some (clause (.subquery (field "body")))
  | "LoadCsv" =>
      some (clause (.loadCsv false (field "source") (field "alias") (field "field_terminator")))
  | "LoadCsvHeaders" =>
      some (clause (.loadCsv true (field "source") (field "alias") (field "field_terminator")))
  | "Foreach" => some (clause (.forEach (field "source") (field "binding") (field "body")))
  | "CreateIndex" =>
      some (clause (.createIndex (field "label") (field "properties") (field "name")
        (flag "if_not_exists")))
  | "DropIndex" => some (clause (.dropIndex (field "name")))
  | "CreateConstraint" =>
      some (clause (.createConstraint (field "label") (field "properties")
        ((fields.lookup "constraint").getD (text "unique")) (field "name")
        (flag "if_not_exists")))
  | "DropConstraint" => some (clause (.dropConstraint (field "name")))
  | "UnknownClause" => some (clause (.unknown (field "kind")))
  | "Comprehension" =>
      some (comprehension (field "projection") (field "binding") (field "label") (field "filter"))
  | "CompiledStatement" =>
      some (statement (field "text") (field "parameters") (field "access_mode"))
  | "PropertyDef" =>
      some (propertyDef (field "name") ((fields.lookup "type").getD (text "Any"))
        ((fields.lookup "required").getD (bool true)) (field "default"))
  | "NodeSchema" => some (nodeSchema (field "label") (items "properties"))
  | "RelSchema" => some (relSchema (field "type") (items "properties"))
  | "Neo4jSettings" =>
      some (settings (field "uri") (field "username") (field "password")
        ((fields.lookup "database").getD (text "neo4j")))
  | _ => none

/-- Adds an entry to a map.  A key that may change is refused; a repeated key keeps its place and
takes the later value. -/
def putKey (entries : List (Value × Value)) (k v : Value) : Except Misuse (List (Value × Value)) :=
  if k.isKey then .ok (put k v entries) else .error (.notKey k)

/-- The items of a value that has to have some. -/
def itemsOf (v : Value) : Except Misuse (List Value) :=
  match v.items? with
  | some xs => .ok xs
  | none => .error (.notIterable v)

/-! ## Chains -/

/-- The forms that steps join. -/
def isSteppable : Value → Bool
  | nodeRef .. | relRef .. | chain .. => true
  | _ => false

/-- The elements and steps of a chain; any other value is a chain of itself. -/
def chainParts : Value → Except Misuse (List Value × List Value)
  | chain elements steps => do
      let es ← elements.itemsOf
      let ss ← steps.itemsOf
      .ok (es, ss)
  | v => .ok ([v], [])

/-- The chain from `left` to `right` by one step. -/
def link (direction : Direction) (left right : Value) : Except Misuse Value := do
  let (es, ss) ← left.chainParts
  let (fs, ts) ← right.chainParts
  .ok (chain (list (es ++ fs)) (list (ss ++ atom (.direction direction) :: ts)))

/-- Two values joined by a step.  A step between two numbers shifts the first by the second, forward
to the right. -/
def stepTo (direction : Direction) (left right : Value) : Except Misuse Value :=
  if left.isSteppable || right.isSteppable then link direction left right
  else
    match left.int?, right.int? with
    | some n, some k =>
        if k < 0 then .error .negativeShift
        else
          .ok (int (match direction with
            | .forward => n >>> k.toNat
            | _ => n * Nat.pow 2 k.toNat))
    | _, _ => .error (.notSteps left right)

/-- Values joined by steps from the left. -/
def fold (first : Value) : List (Direction × Value) → Except Misuse Value
  | [] => .ok first
  | (d, v) :: rest => do
      let next ← stepTo d first v
      fold next rest

/-- The chain of some elements with one direction for all steps. -/
def chainOf (elements : List Value) (direction : Value) : Value :=
  chain (list elements) (list (List.replicate (elements.length - 1) direction))

/-! ## Conditions -/

/-- The operator of a junction. -/
def junctionOp : Junction → Value
  | .all => text "and"
  | .any => text "or"

/-- Conditions joined into one from the left; a single one is left as it is. -/
def join (j : Junction) : List Value → Except Misuse Value
  | [] => .error (.noConditions j)
  | v :: vs => .ok (vs.foldl (binary (junctionOp j)) v)

end Value

end CypherCompose
