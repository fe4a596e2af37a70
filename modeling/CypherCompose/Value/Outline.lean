import CypherCompose.Decimal.Numeral
import CypherCompose.Text.Shown
import CypherCompose.Value.Basic

/-!
# Outlines

The outline of a value keeps its atoms and collections and turns every form into a record: a name
and its labelled fields.  Messages show values by their outlines (`Value.inspect?`), and values
compare by them (`CypherCompose.Value.Equality`).  A value that would show an integer of too many
digits cannot be written (`Value.isWritable`).
-/

namespace CypherCompose

/-- A value with its forms opened. -/
inductive Outline where
  | atom (a : Atom)
  | list (items : List Outline)
  | tuple (items : List Outline)
  | map (entries : List (Outline × Outline))
  | builder (cell : Nat) (clauses : List Outline)
  | record (name : String) (fields : List (String × Outline))
  /-- A part that messages do not show. -/
  | hidden (part : Outline)

namespace Value

mutual

/-- The outline of a value. -/
def outline : Value → Outline
  | atom a => .atom a
  | list xs => .list (outlines xs)
  | tuple xs => .tuple (outlines xs)
  | map es => .map (entryOutlines es)
  | builder cell cs => .builder cell (outlines cs)
  | nodeRef name label props =>
      .record "NodeRef" [("name", name.outline), ("label", label.outline), ("props", props.outline)]
  | relRef name type hops props =>
      .record "RelRef" [("name", name.outline), ("type", type.outline), ("hops", hops.outline),
        ("props", props.outline)]
  | chain elements steps =>
      .record "Chain" [("elements", elements.outline), ("steps", steps.outline)]
  | property owner key => .record "Property" [("owner", owner.outline), ("key", key.outline)]
  | param name value => .record "Param" [("name", name.outline), ("value", value.outline)]
  | literal value => .record "Literal" [("value", value.outline)]
  | var name => .record "Var" [("name", name.outline)]
  | binary op left right =>
      .record "BinaryOp" [("op", op.outline), ("left", left.outline), ("right", right.outline)]
  | unary op operand => .record "UnaryOp" [("op", op.outline), ("operand", operand.outline)]
  | call name args distinct =>
      .record "Call"
        [("name", name.outline), ("args", args.outline), ("distinct", distinct.outline)]
  | case whens default => .record "Case" [("whens", whens.outline), ("default", default.outline)]
  | existence pattern => .record "Exists" [("pattern", pattern.outline)]
  | unknownExpr tag => .record "UnknownExpr" [("tag", tag.outline)]
  | aliased expr name => .record "Alias" [("expr", expr.outline), ("alias", name.outline)]
  | orderItem expr direction =>
      .record "OrderItem" [("expr", expr.outline), ("direction", direction.outline)]
  | assign target value => .record "Assign" [("target", target.outline), ("value", value.outline)]
  | clause c => .record c.kindName (clauseFields c)
  | comprehension projection binding label filter =>
      .record "Comprehension" [("projection", projection.outline), ("binding", binding.outline),
        ("label", label.outline), ("filter", filter.outline)]
  | statement cypher parameters mode =>
      .record "CompiledStatement" [("text", cypher.outline), ("parameters", parameters.outline),
        ("access_mode", mode.outline)]
  | propertyDef name type required default =>
      .record "PropertyDef" [("name", name.outline), ("type", type.outline),
        ("required", required.outline), ("default", default.outline)]
  | nodeSchema label properties =>
      .record "NodeSchema" [("label", label.outline), ("properties", properties.outline)]
  | relSchema type properties =>
      .record "RelSchema" [("type", type.outline), ("properties", properties.outline)]
  | settings uri username password database =>
      .record "Neo4jSettings" [("uri", uri.outline), ("username", username.outline),
        ("password", .hidden password.outline), ("database", database.outline)]

/-- The labelled fields of a clause. -/
def clauseFields : ClauseForm Value → List (String × Outline)
  | .matching _ patterns => [("patterns", patterns.outline)]
  | .filter conditions => [("conditions", conditions.outline)]
  | .returning items distinct => [("items", items.outline), ("distinct", distinct.outline)]
  | .passing items distinct => [("items", items.outline), ("distinct", distinct.outline)]
  | .unwind source name => [("source", source.outline), ("alias", name.outline)]
  | .create patterns => [("patterns", patterns.outline)]
  | .merge pattern => [("pattern", pattern.outline)]
  | .set assignments => [("assignments", assignments.outline)]
  | .onMerge _ assignments => [("assignments", assignments.outline)]
  | .remove items => [("items", items.outline)]
  | .delete _ items => [("items", items.outline)]
  | .orderBy items => [("items", items.outline)]
  | .skip value => [("value", value.outline)]
  | .limit value => [("value", value.outline)]
  | .union _ => []
  | .subquery body => [("body", body.outline)]
  | .loadCsv _ source name terminator =>
      [("source", source.outline), ("alias", name.outline),
        ("field_terminator", terminator.outline)]
  | .forEach source binding body =>
      [("source", source.outline), ("binding", binding.outline), ("body", body.outline)]
  | .createIndex label properties name ifNotExists =>
      [("label", label.outline), ("properties", properties.outline), ("name", name.outline),
        ("if_not_exists", ifNotExists.outline)]
  | .dropIndex name => [("name", name.outline)]
  | .createConstraint label properties constraint name ifNotExists =>
      [("label", label.outline), ("properties", properties.outline),
        ("constraint", constraint.outline), ("name", name.outline),
        ("if_not_exists", ifNotExists.outline)]
  | .dropConstraint name => [("name", name.outline)]
  | .unknown kind => [("kind", kind.outline)]

/-- The outlines of the items. -/
def outlines : List Value → List Outline
  | [] => []
  | v :: vs => v.outline :: outlines vs

/-- The outlines of the entries. -/
def entryOutlines : List (Value × Value) → List (Outline × Outline)
  | [] => []
  | (k, v) :: es => (k.outline, v.outline) :: entryOutlines es

end

end Value

/-- An atom as messages show it. -/
def Atom.inspect : Atom → String
  | null => "None"
  | bool b => if b then "True" else "False"
  | int n => toString n
  | float x => x.toText
  | text s => Shown.text s
  | bytes bs => Shown.bytes bs
  | date y m d => s!"datetime.date({y}, {m}, {d})"
  | unset => "UNSET"
  | direction d => s!"<{d.symbol}: '{d.text}'>"
  | mode m => s!"<{m.symbol}: '{m.text}'>"
  | ambiguous id => s!"Ambiguous({id})"

/-- Whether an atom can be written: an integer if it is not too long, and any other atom. -/
def Atom.isWritable : Atom → Bool
  | int n => Numeral.isWritable n
  | _ => true

namespace Outline

mutual

/-- An outline as messages show it. -/
def inspect : Outline → String
  | atom a => a.inspect
  | list xs => "[" ++ ", ".intercalate (inspectAll xs) ++ "]"
  | tuple xs =>
      match inspectAll xs with
      | [x] => "(" ++ x ++ ",)"
      | ss => "(" ++ ", ".intercalate ss ++ ")"
  | map es => "\x7b" ++ ", ".intercalate (inspectEntries es) ++ "\x7d"
  | builder _ cs => "Cypher([" ++ ", ".intercalate (inspectAll cs) ++ "])"
  | record name fields => name ++ "(" ++ ", ".intercalate (inspectFields fields) ++ ")"
  | hidden _ => "'***'"

/-- The items as messages show them. -/
def inspectAll : List Outline → List String
  | [] => []
  | o :: os => o.inspect :: inspectAll os

/-- The entries as messages show them. -/
def inspectEntries : List (Outline × Outline) → List String
  | [] => []
  | (k, v) :: es => (k.inspect ++ ": " ++ v.inspect) :: inspectEntries es

/-- The labelled fields as messages show them. -/
def inspectFields : List (String × Outline) → List String
  | [] => []
  | (name, o) :: fs => (name ++ "=" ++ o.inspect) :: inspectFields fs

end

mutual

/-- Whether every integer that an outline shows can be written. -/
def isWritable : Outline → Bool
  | atom a => a.isWritable
  | list xs => allWritable xs
  | tuple xs => allWritable xs
  | map es => entriesWritable es
  | builder _ cs => allWritable cs
  | record _ fields => fieldsWritable fields
  | hidden _ => true

/-- Whether the items can be written. -/
def allWritable : List Outline → Bool
  | [] => true
  | o :: os => o.isWritable && allWritable os

/-- Whether the entries can be written. -/
def entriesWritable : List (Outline × Outline) → Bool
  | [] => true
  | (k, v) :: es => k.isWritable && v.isWritable && entriesWritable es

/-- Whether the fields can be written. -/
def fieldsWritable : List (String × Outline) → Bool
  | [] => true
  | (_, o) :: fs => o.isWritable && fieldsWritable fs

end

end Outline

namespace Value

/-- Whether a value can be written: no integer that it shows has too many digits. -/
def isWritable (v : Value) : Bool :=
  v.outline.isWritable

/-- A value as messages show it, if it can be written. -/
def inspect? (v : Value) : Option String :=
  if v.isWritable then some v.outline.inspect else none

/-- A value as it stands inside a message, if it can be written: texts bare, symbols by their
qualified names, dates as year, month and day. -/
def display? : Value → Option String
  | .text s => some s
  | atom (.date y m d) =>
      some (Binary64.padded 4 y ++ "-" ++ Binary64.padded 2 m ++ "-" ++ Binary64.padded 2 d)
  | atom (.direction d) => some d.symbol
  | atom (.mode m) => some m.symbol
  | v => v.inspect?

end Value

end CypherCompose
