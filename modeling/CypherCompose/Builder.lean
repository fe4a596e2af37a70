import CypherCompose.Value.Form

/-!
# Builders

A builder collects clauses by calls.  A call names an operation and gives its arguments in order or
by name (`Builder.Call`); `clauseOf` is the clause it adds.  Beside it stand the short ways of
writing nodes, relationships, properties and parameters.
-/

namespace CypherCompose

namespace Builder

/-- An operation with its arguments in order and by name. -/
structure Call where
  operation : String
  args : List Value
  named : List (String × Value)

/-- A call; an argument named twice keeps its first place and takes the later value. -/
def Call.of (operation : String) (args : List Value) (named : List (String × Value)) : Call :=
  let named := named.foldl (fun ns n =>
    if ns.any (·.1 == n.1) then ns.map fun m => if m.1 == n.1 then n else m else ns ++ [n]) []
  ⟨operation, args, named⟩

/-- Arguments given by name, read into the places still open; `args` fills the first ones.  A place
left open takes its default, or is an error if it has none. -/
def bindNamed (named : List (String × Value)) :
    List (String × Option Value) → List Value → Except Misuse (List Value)
  | [], [] => .ok []
  | [], _ :: _ => .error .badArguments
  | (key, _) :: places, v :: vs => do
      if (named.lookup key).isSome then .error .badArguments
      else
        let rest ← bindNamed named places vs
        .ok (v :: rest)
  | (key, default) :: places, [] => do
      match (named.lookup key).or default with
      | some v =>
          let rest ← bindNamed named places []
          .ok (v :: rest)
      | none => .error .badArguments

/-- The arguments of a call for the given places. -/
def bind (places : List (String × Option Value)) (c : Call) : Except Misuse (List Value) :=
  if c.named.all fun n => places.any fun p => p.1 == n.1 then bindNamed c.named places c.args
  else .error .badArguments

/-- The arguments of a call for the given places by name only. -/
def bindOptions (places : List (String × Option Value)) (named : List (String × Value)) :
    Except Misuse (List Value) :=
  bind places ⟨"", [], named⟩

/-- A clause with any number of arguments. -/
def variadic (make : Value → ClauseForm Value) (c : Call) : Except Misuse Value :=
  if c.named.isEmpty then .ok (.clause (make (.list c.args))) else .error .badArguments

/-- A clause with one argument. -/
def unaryCall (place : String) (make : Value → Value) (c : Call) : Except Misuse Value := do
  match ← bind [(place, none)] c with
  | [v] => .ok (make v)
  | _ => .error .badArguments

/-- A clause with two arguments. -/
def binaryCall (first second : String) (make : Value → Value → Value) (c : Call) :
    Except Misuse Value := do
  match ← bind [(first, none), (second, none)] c with
  | [v, w] => .ok (make v w)
  | _ => .error .badArguments

/-- A projection: the arguments in order, then those by name under their names.  The name of the
builder itself is taken. -/
def projection (make : Value → Value → ClauseForm Value) (c : Call) : Except Misuse Value :=
  let distinct := (c.named.lookup "distinct").getD (.bool false)
  let aliases := (c.named.filter fun n => n.1 != "distinct").map fun n => .aliased n.2 (.text n.1)
  if (c.named.lookup "self").isSome then .error .badArguments
  else .ok (.clause (make (.list (c.args ++ aliases)) distinct))

/-- The clauses of a body; what is no list is left for validation to refuse. -/
def bodyOf : Value → Value
  | .builder _ cs => .list cs
  | .tuple xs => .list xs
  | v => v

/-- A definition on a label and any number of properties. -/
def labelled (options : List (String × Option Value))
    (make : Value → Value → List Value → Except Misuse Value) (c : Call) : Except Misuse Value :=
  match c.args, c.named.lookup "label" with
  | label :: properties, none => do
      let os ← bindOptions options c.named
      make label (.list properties) os
  | [], some label => do
      let os ← bindOptions options (c.named.filter fun n => n.1 != "label")
      make label (.list []) os
  | _, _ => .error .badArguments

/-- A clause that loads a file. -/
def loading (headers : Bool) (c : Call) : Except Misuse Value := do
  match ← bind [("source", none), ("alias", none), ("field_terminator", some .null)] c with
  | [source, name, terminator] => .ok (.clause (.loadCsv headers source name terminator))
  | _ => .error .badArguments

/-- A clause without arguments. -/
def plainCall (v : Value) (c : Call) : Except Misuse Value :=
  if c.args.isEmpty && c.named.isEmpty then .ok v else .error .badArguments

/-- The clause that a call adds. -/
def clauseOf (c : Call) : Except Misuse Value :=
  match c.operation with
  | "add" => unaryCall "clause" id c
  | "match" => variadic (.matching false) c
  | "optional_match" => variadic (.matching true) c
  | "where" => variadic .filter c
  | "ret" => projection .returning c
  | "with_" => projection .passing c
  | "unwind" => binaryCall "source" "alias" (fun s a => .clause (.unwind s a)) c
  | "order_by" => variadic .orderBy c
  | "skip" => unaryCall "value" (fun v => .clause (.skip v)) c
  | "limit" => unaryCall "value" (fun v => .clause (.limit v)) c
  | "load_csv" => loading false c
  | "load_csv_headers" => loading true c
  | "create" => variadic .create c
  | "merge" => unaryCall "pattern" (fun v => .clause (.merge v)) c
  | "set" => variadic .set c
  | "assign" => binaryCall "target" "value" .assign c
  | "on_create_set" => variadic (.onMerge .onCreate) c
  | "on_match_set" => variadic (.onMerge .onMatch) c
  | "remove" => variadic .remove c
  | "delete" => variadic (.delete false) c
  | "detach_delete" => variadic (.delete true) c
  | "union" => plainCall (.clause (.union false)) c
  | "union_all" => plainCall (.clause (.union true)) c
  | "call" => unaryCall "body" (fun b => .clause (.subquery (bodyOf b))) c
  | "foreach" => do
      match ← bind [("source", none), ("binding", none), ("body", none)] c with
      | [source, binding, body] => .ok (.clause (.forEach source binding (bodyOf body)))
      | _ => .error .badArguments
  | "create_index" =>
      labelled [("name", some .null), ("if_not_exists", some (.bool false))]
        (fun label properties os => match os with
          | [name, ifNotExists] => .ok (.clause (.createIndex label properties name ifNotExists))
          | _ => .error .badArguments) c
  | "drop_index" => unaryCall "name" (fun n => .clause (.dropIndex n)) c
  | "create_constraint" =>
      labelled
        [("kind", some (.text "unique")), ("name", some .null),
          ("if_not_exists", some (.bool false))]
        (fun label properties os => match os with
          | [kind, name, ifNotExists] =>
              .ok (.clause (.createConstraint label properties kind name ifNotExists))
          | _ => .error .badArguments) c
  | "drop_constraint" => unaryCall "name" (fun n => .clause (.dropConstraint n)) c
  | other => .error (.noPart (.text other))

/-- The clauses a new builder starts with. -/
def start (clauses : Value) : Except Misuse (List Value) := do
  if ← clauses.truth then clauses.itemsOf else .ok []

/-- The clauses after some calls, up to the first call that fails. -/
def run (clauses : List Value) : List Call → Except Misuse (List Value)
  | [] => .ok clauses
  | c :: cs => do
      let clause ← clauseOf c
      run (clauses ++ [clause]) cs

/-! ## Short forms -/

/-- Properties given by name; no properties stand for no map. -/
def propsOf (props : List (String × Value)) : Value :=
  if props.isEmpty then .null
  else .map (props.foldl (fun es p => Value.put (.text p.1) p.2 es) [])

/-- A node from its name, its label and its properties. -/
def node (args : List Value) (props : List (String × Value)) : Except Misuse Value := do
  match ← bindNamed [] [("name", some .null), ("label", some .null)] args with
  | [name, label] => .ok (.nodeRef name label (propsOf props))
  | _ => .error .badArguments

/-- A relationship from its name, its type, its hops and its properties. -/
def rel (args : List Value) (props : List (String × Value)) : Except Misuse Value := do
  match ← bindNamed [] [("name", some .null), ("type", some .null), ("hops", some .null)] args with
  | [name, type, hops] => .ok (.relRef name type hops (propsOf props))
  | _ => .error .badArguments

/-- A property from its owner and its key, or from both joined by a point; without a point the key
is empty. -/
def prop : List Value → Except Misuse Value
  | [path] | [path, .null] =>
      match path with
      | .atom (.bytes _) => .error (.notText path)
      | _ =>
          match path.text? with
          | none => .error (.noPart path)
          | some s =>
              let cs := s.toList
              if cs.contains '.' then
                let key := (cs.dropWhile (· != '.')).drop 1
                .ok (.property (.text (String.ofList (cs.takeWhile (· != '.'))))
                  (.text (String.ofList key)))
              else .ok (.property path (.text ""))
  | [owner, key] => .ok (.property owner key)
  | _ => .error .badArguments

/-- A parameter from its name and, if it has one, its value. -/
def param : List Value → Except Misuse Value
  | [name] => .ok (.param name .unset)
  | [name, value] => .ok (.param name value)
  | _ => .error .badArguments

end Builder

end CypherCompose
