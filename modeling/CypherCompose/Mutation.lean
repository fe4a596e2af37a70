import CypherCompose.Schema
import CypherCompose.Statement

/-!
# Mutations

Statements that create a node, merge a node, or relate two nodes.  Every property becomes a
parameter; `NamePool` hands out their names, so that keys that are no identifiers, or that repeat,
still have one each.  A catalog checks the properties first.
-/

namespace CypherCompose

/-- The parameter names already given away in one statement. -/
structure NamePool where
  used : List String

namespace NamePool

/-- The generated name with a number. -/
def numbered (sec : String) (i : Nat) : String :=
  sec ++ "_p" ++ toString i

/-- The first generated name that is free.  One of the first `used.length + 1` is. -/
def firstFree (pool : NamePool) (sec : String) : String :=
  numbered sec
    (((List.range (pool.used.length + 1)).find? fun i => !pool.used.contains (numbered sec i)).getD
      pool.used.length)

/-- The names to try for a key before the generated ones. -/
def candidates (key : Value) (sec : String) : List Value :=
  match ParamName.ofValue? key with
  | some n => [key, .text (sec ++ "_" ++ n.word.filled)]
  | none => []

/-- Whether a name is free. -/
def isFree (pool : NamePool) (name : Value) : Bool :=
  name.text?.any fun s => !pool.used.contains s

/-- A free name for a key: the key itself, the key behind its section, or a generated name. -/
def take (pool : NamePool) (key : Value) (sec : String) : Value × NamePool :=
  let name := ((candidates key sec).find? pool.isFree).getD (.text (pool.firstFree sec))
  (name, ⟨name.text?.toList ++ pool.used⟩)

/-- A parameter for every entry. -/
def bind (pool : NamePool) (sec : String) :
    List (Value × Value) → List (Value × Value) × NamePool
  | [] => ([], pool)
  | (k, v) :: es =>
      let (name, pool) := pool.take k sec
      let (rest, pool) := bind pool sec es
      ((k, .param name v) :: rest, pool)

end NamePool

namespace Mutation

/-- An entry of a map given as a pair; `i` is its place. -/
def entryOf (i : Nat) (pair : Value) : Except Misuse (Value × Value) := do
  match ← pair.itemsOf with
  | [k, v] => .ok (k, v)
  | xs => .error (.notPair i xs.length)

/-- Entries added from pairs, from place `i` on. -/
def entriesFrom (entries : List (Value × Value)) (i : Nat) :
    List Value → Except Misuse (List (Value × Value))
  | [] => .ok entries
  | p :: ps => do
      let (k, v) ← entryOf i p
      if k.isKey then entriesFrom (Value.put k v entries) (i + 1) ps else .error (.notKey k)

/-- Properties given as a map or as pairs; what counts as false stands for none. -/
def propsOf (props : Value) : Except Misuse (List (Value × Value)) := do
  if ← props.truth then
    match props with
    | .map es => .ok es
    | v => do
        let pairs ← v.itemsOf
        entriesFrom [] 0 pairs
  else .ok []

/-- A map of properties inside a pattern; none stand for no map. -/
def mapOrNull (entries : List (Value × Value)) : Value :=
  if entries.isEmpty then .null else .map entries

/-- The assignments of parameters to the properties of the node. -/
def assignments (entries : List (Value × Value)) : Value :=
  .list (entries.map fun e => .assign (.property (.text "n") e.1) e.2)

/-- A statement with the warnings that came before it. -/
structure Result where
  warnings : List String
  outcome : Except Error Statement

/-- A statement that could not be made. -/
def failed (warnings : List String) (e : Error) : Result :=
  ⟨warnings, .error e⟩

/-- Checks properties by the schema that a catalog has for them, and then compiles.  A catalog
without schemas is not asked. -/
def checked (catalog : Option Catalog) (find : Catalog → Except Misuse (Option Value))
    (props : List (Value × Value)) (clauses : List Value) : Result :=
  let schema? : Except Misuse (Option Value) := match catalog with
    | some c => if c.size == 0 then .ok none else find c
    | none => .ok none
  match schema? with
  | .error m => failed [] (.misuse m)
  | .ok none => ⟨[], Statement.compile (.list clauses) .null .null⟩
  | .ok (some schema) =>
      match Schema.check schema (.map props) with
      | ⟨warnings, .error e⟩ => failed warnings e
      | ⟨warnings, .ok ()⟩ => ⟨warnings, Statement.compile (.list clauses) .null .null⟩

/-- Returns a variable. -/
def returning (name : String) : Value :=
  .clause (.returning (.list [.text name]) (.bool false))

/-- The clauses that create a node. -/
def createClauses (label : Value) (props : List (Value × Value)) : List Value :=
  let (ps, _) := NamePool.bind ⟨[]⟩ "props" props
  [.clause (.create (.nodeRef (.text "n") label (mapOrNull ps))), returning "n"]

/-- Creates a node. -/
def createNode (label props : Value) (catalog : Option Catalog) : Result :=
  match propsOf props with
  | .error m => failed [] (.misuse m)
  | .ok ps => checked catalog (·.nodeSchema? label) ps (createClauses label ps)

/-- The clauses that merge a node: on the first properties, setting the others by outcome. -/
def mergeClauses (label : Value) (found onCreate onMatch : List (Value × Value)) : List Value :=
  let (fs, pool) := NamePool.bind ⟨[]⟩ "match" found
  let (cs, pool) := pool.bind "on_create" onCreate
  let (ms, _) := pool.bind "on_match" onMatch
  [.clause (.merge (.nodeRef (.text "n") label (mapOrNull fs)))]
    ++ (if cs.isEmpty then [] else [.clause (.onMerge .onCreate (assignments cs))])
    ++ (if ms.isEmpty then [] else [.clause (.onMerge .onMatch (assignments ms))])
    ++ [returning "n"]

/-- The entries of several maps; a later one wins. -/
def merged (first : List (Value × Value)) (later : List (Value × Value)) : List (Value × Value) :=
  later.foldl (fun es e => Value.put e.1 e.2 es) first

/-- Merges a node. -/
def mergeNode (label found onCreate onMatch : Value) (catalog : Option Catalog) : Result :=
  let given := do
    let fs ← propsOf found
    let cs ← propsOf onCreate
    let ms ← propsOf onMatch
    .ok (fs, cs, ms)
  match given with
  | .error m => failed [] (.misuse m)
  | .ok (fs, cs, ms) =>
      checked catalog (·.nodeSchema? label) (merged (merged fs cs) ms)
        (mergeClauses label fs cs ms)

/-- The condition that a variable has an element id. -/
def hasId (node parameter : String) (id : Value) : Value :=
  .binary (.text "=") (.call (.text "elementId") (.list [.var (.text node)]) (.bool false))
    (.param (.text parameter) id)

/-- The clauses that relate two nodes. -/
def relateClauses (start type finish : Value) (props : List (Value × Value)) : List Value :=
  let (ps, _) := NamePool.bind ⟨["__start_id", "__end_id"]⟩ "props" props
  let a := Value.nodeRef (.text "a") .null .null
  let b := Value.nodeRef (.text "b") .null .null
  [.clause (.matching false (.list [a, b])),
    .clause (.filter (.binary (.text "and") (hasId "a" "__start_id" start)
      (hasId "b" "__end_id" finish))),
    .clause (.create (Value.chainOf [a, .relRef (.text "r") type .null (mapOrNull ps), b]
      (.atom (.direction .forward)))),
    returning "r"]

/-- Relates two nodes by their element ids. -/
def relate (start type finish props : Value) (catalog : Option Catalog) : Result :=
  match propsOf props with
  | .error m => failed [] (.misuse m)
  | .ok ps => checked catalog (·.relSchema? type) ps (relateClauses start type finish ps)

end Mutation

end CypherCompose
