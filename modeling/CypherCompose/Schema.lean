import CypherCompose.Value.Form

/-!
# Schemas

A schema declares the properties of the nodes of a label, or of the relationships of a type.
`Catalog` holds the schemas by label and by type.  Checking properties against a schema fails on the
first required one that is missing, and warns of those that are not declared (`Schema.check`).
-/

namespace CypherCompose

/-- What checking properties said on the way, and what it came to. -/
structure Checked where
  warnings : List String
  outcome : Except Error Unit

namespace Schema

/-- Why a value declares no property; a form of another kind is noticed by its name first. -/
def misfit (v : Value) : Misuse :=
  match v with
  | .nodeRef name .. | .relRef name .. | .param name _ | .var name | .call name ..
  | .clause (.createIndex _ _ name _) | .clause (.dropIndex name)
  | .clause (.createConstraint _ _ _ name _) | .clause (.dropConstraint name) =>
      if name.isKey then .noPart v else .notKey name
  | v => .noPart v

/-- The name and the requirement of a declared property. -/
def declaration : Value → Except Misuse (Value × Value)
  | .propertyDef name _ required _ =>
      if name.isKey then .ok (name, required) else .error (.notKey name)
  | v => .error (misfit v)

/-- Whether a property is required and not among the given ones. -/
def isMissing (props name required : Value) : Except Misuse Bool := do
  if ← required.truth then
    let present ← props.contains name
    .ok !present
  else .ok false

/-- The names declared by the properties; a required one that is missing is an error. -/
def checkRequired (place : String) (props : Value) : List Value → Except Error (List Value)
  | [] => .ok []
  | p :: ps =>
      match declaration p with
      | .error m => .error (.misuse m)
      | .ok (name, required) =>
          match isMissing props name required with
          | .error m => .error (.misuse m)
          | .ok true => .error (Error.missingProperty name place).raised
          | .ok false => do
              let rest ← checkRequired place props ps
              .ok (name :: rest)

/-- The warning about a property that is not declared, if it can be written. -/
def warning? (key : Value) (place : String) : Option String :=
  Message.text? ["Unknown property '", .bare key, s!"' for {place} (not declared in schema)"]

/-- Warns of the keys that are not declared. -/
def checkKeys (place : String) (declared : List Value) : List Value → Checked
  | [] => ⟨[], .ok ()⟩
  | key :: keys =>
      if key.isKey then
        let rest := checkKeys place declared keys
        if declared.any key.same then rest
        else { rest with warnings := (warning? key place).toList ++ rest.warnings }
      else ⟨[], .error (.misuse (.notKey key))⟩

/-- Checks properties against the declared ones. -/
def checkProperties (place : String) (declared props : Value) : Checked :=
  match declared.itemsOf with
  | .error m => ⟨[], .error (.misuse m)⟩
  | .ok ds =>
      match checkRequired place props ds with
      | .error e => ⟨[], .error e⟩
      | .ok names =>
          match props.itemsOf with
          | .error m => ⟨[], .error (.misuse m)⟩
          | .ok keys => checkKeys place names keys

/-- Checks properties against the declared ones, once it is known how messages call the place. -/
def checkAt (place : Message) (declared props : Value) : Checked :=
  match place.text? with
  | some s => checkProperties s declared props
  | none => ⟨[], .error (.misuse .unwritable)⟩

/-- Checks properties against a schema. -/
def check (schema props : Value) : Checked :=
  match schema with
  | .nodeSchema label properties => checkAt ["node :", .bare label] properties props
  | .relSchema type properties => checkAt ["relationship :", .bare type] properties props
  | v => ⟨[], .error (.misuse (.noPart v))⟩

end Schema

/-- The schemas known, by label and by type. -/
structure Catalog where
  nodes : List (Value × Value)
  rels : List (Value × Value)

namespace Catalog

/-- The catalog without schemas. -/
def empty : Catalog :=
  ⟨[], []⟩

/-- The number of schemas. -/
def size (c : Catalog) : Nat :=
  c.nodes.length + c.rels.length

/-- The schema under a key. -/
def find? (key : Value) (entries : List (Value × Value)) : Except Misuse (Option Value) :=
  if key.isKey then .ok (Value.lookup key entries) else .error (.notKey key)

/-- The schema of a label. -/
def nodeSchema? (c : Catalog) (label : Value) : Except Misuse (Option Value) :=
  find? label c.nodes

/-- The schema of a type. -/
def relSchema? (c : Catalog) (type : Value) : Except Misuse (Option Value) :=
  find? type c.rels

/-- The schema of a label, or else of a type. -/
def lookup (c : Catalog) (name : Value) : Except Misuse (Option Value) := do
  let node ← c.nodeSchema? name
  let rel ← c.relSchema? name
  .ok (node.or rel)

/-- The answer to a registration: the schema, which counts its properties once it is entered. -/
def counted (schema properties : Value) : Except Misuse Value :=
  properties.itemsOf.map fun _ => schema

/-- Enters the schema of a label in place of an earlier one. -/
def registerNode (c : Catalog) (schema : Value) : Except Misuse Value × Catalog :=
  match schema with
  | .nodeSchema label properties =>
      if label.isKey then
        (counted schema properties, { c with nodes := Value.put label schema c.nodes })
      else (.error (.notKey label), c)
  | v => (.error (.wrongSchema "NodeSchema" v), c)

/-- Enters the schema of a type in place of an earlier one. -/
def registerRel (c : Catalog) (schema : Value) : Except Misuse Value × Catalog :=
  match schema with
  | .relSchema type properties =>
      if type.isKey then
        (counted schema properties, { c with rels := Value.put type schema c.rels })
      else (.error (.notKey type), c)
  | v => (.error (.wrongSchema "RelSchema" v), c)

end Catalog

end CypherCompose
