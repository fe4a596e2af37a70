import CypherCompose.Expr.Basic
import CypherCompose.Parameter.Draft
import CypherCompose.Value.Membership

/-!
# Reading expressions and patterns

`Expr.ofValue` reads any value as an expression: expression forms by their kind, and bare values as
literals.  `pathsOf` reads a value as a list of patterns, nested lists being flattened.  The two
read each other, since a property map holds expressions and an expression may ask for a pattern.

The recursion is on the value.  Where a collection may be given as a list, a tuple, a map, a text or
a byte string, its items are read by `readItems?`; those of a text or a byte string have no parts.
-/

namespace CypherCompose

/-! ## Leaves -/

/-- An atom as a literal. -/
def Expr.ofAtom (a : Atom) : Draft Expr :=
  match a with
  | .null => .done .null
  | .bool b => .done (.bool b)
  | .int n => do
      let n ← Draft.integer n
      pure (.int n)
  | .float (.finite x) => .done (.float x)
  | .float _ => .fail (.expr (.notFinite (.atom a)))
  | a =>
      match a.text? with
      | some s => .done (.text s)
      | none => .fail (.expr (.unsupportedLiteral (.atom a)))

/-- A property of a variable. -/
def readProperty (owner key : Value) : Draft Expr := do
  let e := Value.property owner key
  let o ← Draft.ofOption (.expr (.noOwner e)) (Name.ofValue? owner)
  let k ← Draft.ofOption (.expr (.noKey e)) (Name.ofValue? key)
  pure (.property o k)

/-- A variable, or the star for all of them. -/
def readVar (name : Value) : Draft Expr :=
  match name.equal? (.text "*") with
  | none => .fail (.misuse .noTruth)
  | some true => .done .star
  | some false => do
      let n ← Draft.ofOption (.expr (.unnamedVariable (.var name))) (Name.ofValue? name)
      pure (.var n)

/-- A binary operator; `e` is the expression it stands in. -/
def readBinaryOp (op e : Value) : Draft BinaryOp :=
  match op.text? with
  | some s => Draft.ofOption (.expr (.unknownBinary op e)) (BinaryOp.ofSpelling? s)
  | none => .fail (if op.isKey then .expr (.unknownBinary op e) else .misuse (.notKey op))

/-- A unary operator; `e` is the expression it stands in. -/
def readUnaryOp (op e : Value) : Draft UnaryOp :=
  match op.text? with
  | some s => Draft.ofOption (.expr (.unknownUnary op e)) (UnaryOp.ofSpelling? s)
  | none => .fail (if op.isKey then .expr (.unknownUnary op e) else .misuse (.notKey op))

/-- An optional name in a pattern; `owner` is the form it stands in. -/
def readName (role : NameRole) (owner : Value) : Value → Draft (Option Name)
  | .null => .done none
  | v => do
      let n ← Draft.ofOption (.pattern (.badName role v owner)) (Name.ofValue? v)
      pure (some n)

/-- A bound of a range of hops: a number that is not negative, or nothing for an open end. -/
def readBound (rel : Value) : Value → Draft (Option Nat)
  | .null => .done none
  | .int n =>
      if n < 0 then .fail (.pattern (.badHopBound rel))
      else do
        let n ← Draft.integer n
        pure (some n.toNat)
  | _ => .fail (.pattern (.badHopBound rel))

/-- A range of hops. -/
def readRange (rel min max : Value) : Draft (Option Hops) := do
  let lo ← readBound rel min
  let hi ← readBound rel max
  match lo, hi with
  | some a, some b =>
      if b < a then .fail (.pattern (.hopRange rel)) else pure (some (.range lo hi))
  | _, _ => pure (some (.range lo hi))

/-- The hops of a relationship. -/
def readHops (rel : Value) : Value → Draft (Option Hops)
  | .null => .done none
  | .int n =>
      if n < 0 then .fail (.pattern (.negativeHops rel))
      else do
        let n ← Draft.integer n
        pure (some (.exactly n.toNat))
  | .tuple [a, b] => readRange rel a b
  | .list [a, b] => readRange rel a b
  | _ => .fail (.pattern (.badHops rel))

/-- A node, from its parts; `owner` is the form they stand in. -/
def readNode (name label : Value) (props : Draft (List (Name × Expr))) (owner : Value) :
    Draft (Node Expr) := do
  let n ← readName .nodeName owner name
  let l ← readName .label owner label
  let ps ← props
  pure ⟨n, l, ps⟩

/-- A relationship, from its parts; `owner` is the form they stand in. -/
def readRel (name type hops : Value) (props : Draft (List (Name × Expr))) (owner : Value) :
    Draft (Rel Expr) := do
  let n ← readName .relName owner name
  let t ← readName .relType owner type
  let h ← readHops owner hops
  let ps ← props
  pure ⟨n, t, h, ps⟩

/-- A node given by its name alone. -/
def namedNode (name : Value) : Draft (Node Expr) :=
  readNode name .null (.done []) (.nodeRef name .null .null)

/-- A relationship given by its type alone. -/
def typedRel (type : Value) : Draft (Rel Expr) :=
  readRel .null type .null (.done []) (.relRef .null type .null .null)

/-! ## Chains -/

/-- An element of a chain, read as a node and as a relationship; a text may be either. -/
structure Station where
  source : Value
  node? : Option (Draft (Node Expr))
  rel? : Option (Draft (Rel Expr))

/-- An element that is no form: a text, or nothing that fits. -/
def Station.plain (v : Value) : Station :=
  if v.isText then ⟨v, some (namedNode v), some (typedRel v)⟩ else ⟨v, none, none⟩

namespace Station

/-- The element as the node at a position of a chain. -/
def node (chain : Value) (position : Nat) (s : Station) : Draft (Node Expr) :=
  s.node?.getD (.fail (.pattern (.nodeExpected position s.source chain)))

/-- The element as the relationship at a position of a chain, between the steps before and after
it. -/
def link (chain : Value) (position : Nat) (before after : Value) (s : Station) :
    Draft (Direction × Rel Expr) :=
  match s.rel? with
  | none => .fail (.pattern (.relationshipExpected position s.source chain))
  | some rel =>
      match before.equal? after with
      | none => .fail (.misuse .noTruth)
      | some false => .fail (.pattern (.directions position before after s.source))
      | some true => do
          let r ← rel
          let d ← Draft.ofOption (.pattern (.unknownDirection before position chain))
            (before.text?.bind Direction.ofText?)
          pure (d, r)

end Station

/-- The links of a chain from a position on. -/
def readLinks (chain : Value) : Nat → List Station → List Value → Draft (List (Link Expr))
  | i, r :: n :: rest, before :: after :: steps => do
      let (d, rel) ← r.link chain i before after
      let node ← n.node chain (i + 1)
      let links ← readLinks chain (i + 2) rest steps
      pure (⟨d, rel, node⟩ :: links)
  | _, _, _ => .done []

/-- The path of a chain, from its elements and steps. -/
def readChain (chain : Value) (elements : List Station) (steps : List Value) : Draft (Path Expr) :=
  match elements with
  | [] => .fail (.pattern (.emptyChain chain))
  | first :: rest =>
      if steps.length != rest.length then
        .fail (.pattern (.stepCount elements.length steps.length chain))
      else if elements.length % 2 == 0 then
        .fail (.pattern (.evenChain elements.length chain))
      else do
        let start ← first.node chain 0
        let links ← readLinks chain 1 rest steps
        pure ⟨start, links⟩

/-! ## Branches -/

/-- A branch of a CASE, with the readings of its two parts if it is a pair. -/
structure BranchReading where
  source : Value
  parts? : Option (Draft Expr × Draft Expr)

/-- The branches of a CASE, in order; `e` is the expression they stand in. -/
def readBranches (e : Value) : List BranchReading → Draft (List (Expr × Expr))
  | [] => .done []
  | b :: bs => do
      let (condition, value) ← Draft.ofOption (.expr (.badBranch b.source e)) b.parts?
      let c ← condition
      let v ← value
      let rest ← readBranches e bs
      pure ((c, v) :: rest)

/-- The readings of items without parts. -/
def plainItems (vs : List Value) : List (Draft Expr) :=
  vs.map fun v => match v with
    | .atom a => Expr.ofAtom a
    | v => .fail (.expr (.unsupportedLiteral v))

/-- The two parts of a branch given as an atom: a text of two characters, or two bytes. -/
def plainPair? (a : Atom) : Option (Draft Expr × Draft Expr) :=
  match (Value.atomItems? a).map plainItems with
  | some [c, v] => some (c, v)
  | _ => none

/-! ## Values -/

mutual

/-- A value read as an expression. -/
def Expr.ofValue : Value → Draft Expr
  | .atom a => Expr.ofAtom a
  | .list xs => do
      let es ← Draft.all (readAll xs)
      pure (.list es)
  | .tuple xs => do
      let es ← Draft.all (readAll xs)
      pure (.list es)
  | .map es => do
      let entries ← readEntries (.map es) es
      pure (.map entries)
  | .property owner key => readProperty owner key
  | .param name value => do
      let p ← Draft.parameter name value
      pure (.param p)
  | .var name => readVar name
  | .literal v => do
      let e ← Expr.ofValue v
      pure (.enclosed e)
  | .binary op left right => do
      let o ← readBinaryOp op (.binary op left right)
      let l ← Expr.ofValue left
      let r ← Expr.ofValue right
      pure (.binary o l r)
  | .unary op operand => do
      let o ← readUnaryOp op (.unary op operand)
      let e ← Expr.ofValue operand
      pure (.unary o e)
  | .call name args distinct => do
      let f ← Draft.ofOption (.expr (.badFunctionName name (.call name args distinct)))
        (FunctionName.ofValue? name)
      let items ← Draft.ofOption (.misuse (.notIterable args)) (readItems? args)
      let es ← Draft.all items
      let d ← Draft.ofMisuse distinct.truth
      pure (.call f d es)
  | .case whens default => do
      let e := Value.case whens default
      if ← Draft.ofMisuse whens.truth then
        let readings ← Draft.ofOption (.misuse (.notIterable whens)) (readBranchItems? whens)
        let branches ← readBranches e readings
        let otherwise ← if default.isNull then pure none else some <$> Expr.ofValue default
        pure (.case branches otherwise)
      else .fail (.expr (.noBranches e))
  | .existence pattern => do
      let ps ← pathsOf pattern
      pure (.existence ps)
  | .unknownExpr tag => .fail (.expr (.unknownExpr (.unknownExpr tag)))
  | v => .fail (.expr (.unsupportedLiteral v))

/-- The readings of the items. -/
def readAll : List Value → List (Draft Expr)
  | [] => []
  | v :: vs => Expr.ofValue v :: readAll vs

/-- The readings of the keys. -/
def readKeys : List (Value × Value) → List (Draft Expr)
  | [] => []
  | (k, _) :: es => Expr.ofValue k :: readKeys es

/-- The readings of what walking through a value visits. -/
def readItems? : Value → Option (List (Draft Expr))
  | .atom a => (Value.atomItems? a).map plainItems
  | .list xs => some (readAll xs)
  | .tuple xs => some (readAll xs)
  | .map es => some (readKeys es)
  | .builder _ cs => some (readAll cs)
  | _ => none

/-- The entries of a map; `whole` is the map. -/
def readEntries (whole : Value) : List (Value × Value) → Draft (List (Name × Expr))
  | [] => .done []
  | (k, v) :: es => do
      let key ← Draft.ofOption (.expr (.badMapKey k whole)) (Name.ofValue? k)
      let e ← Expr.ofValue v
      let rest ← readEntries whole es
      pure ((key, e) :: rest)

/-- The readings of a branch's two parts. -/
def readPair? : Value → Option (Draft Expr × Draft Expr)
  | .atom a => plainPair? a
  | .list [c, v] => some (Expr.ofValue c, Expr.ofValue v)
  | .tuple [c, v] => some (Expr.ofValue c, Expr.ofValue v)
  | .map [(c, _), (v, _)] => some (Expr.ofValue c, Expr.ofValue v)
  | .builder _ [c, v] => some (Expr.ofValue c, Expr.ofValue v)
  | _ => none

/-- The branches among the items. -/
def readBranchList : List Value → List BranchReading
  | [] => []
  | b :: bs => ⟨b, readPair? b⟩ :: readBranchList bs

/-- The branches among the keys. -/
def readBranchKeys : List (Value × Value) → List BranchReading
  | [] => []
  | (b, _) :: es => ⟨b, readPair? b⟩ :: readBranchKeys es

/-- The branches of a CASE. -/
def readBranchItems? : Value → Option (List BranchReading)
  | .atom a => (Value.atomItems? a).map fun vs => vs.map fun v => ⟨v, none⟩
  | .list xs => some (readBranchList xs)
  | .tuple xs => some (readBranchList xs)
  | .map es => some (readBranchKeys es)
  | .builder _ cs => some (readBranchList cs)
  | _ => none

/-- The property map of a node or a relationship; what counts as false stands for none. -/
def readProps : Value → Draft (List (Name × Expr))
  | .map es => readEntries (.map es) es
  | v => do
      if ← Draft.ofMisuse v.truth then .fail (.misuse (.ofNoMap v))
      else pure []

/-- An element of a chain. -/
def readStation : Value → Station
  | .nodeRef name label props =>
      ⟨.nodeRef name label props,
        some (readNode name label (readProps props) (.nodeRef name label props)), none⟩
  | .relRef name type hops props =>
      ⟨.relRef name type hops props, none,
        some (readRel name type hops (readProps props) (.relRef name type hops props))⟩
  | v => .plain v

/-- The elements of a chain among the items. -/
def readStations : List Value → List Station
  | [] => []
  | v :: vs => readStation v :: readStations vs

/-- The elements of a chain among the keys. -/
def readStationKeys : List (Value × Value) → List Station
  | [] => []
  | (k, _) :: es => readStation k :: readStationKeys es

/-- The elements of a chain. -/
def readElements? : Value → Option (List Station)
  | .atom a => (Value.atomItems? a).map fun vs => vs.map Station.plain
  | .list xs => some (readStations xs)
  | .tuple xs => some (readStations xs)
  | .map es => some (readStationKeys es)
  | .builder _ cs => some (readStations cs)
  | _ => none

/-- A value read as a list of patterns. -/
def pathsOf : Value → Draft (List (Path Expr))
  | .list xs => readPatterns (.list xs) xs
  | .tuple xs => readPatterns (.tuple xs) xs
  | .chain elements steps => do
      let es ← Draft.ofOption (.misuse (.notIterable elements)) (readElements? elements)
      let ss ← Draft.ofOption (.misuse (.notIterable steps)) steps.items?
      let p ← readChain (.chain elements steps) es ss
      pure [p]
  | .nodeRef name label props => do
      let n ← readNode name label (readProps props) (.nodeRef name label props)
      pure [⟨n, []⟩]
  | .relRef name type hops props =>
      .fail (.pattern (.loneRelationship (.relRef name type hops props)))
  | v =>
      if v.isText then do
        let n ← namedNode v
        pure [⟨n, []⟩]
      else .fail (.pattern (.notPattern v))

/-- The patterns of a list; `whole` is the list, which may not be empty. -/
def readPatterns (whole : Value) : List Value → Draft (List (Path Expr))
  | [] => .fail (.pattern (.emptyList whole))
  | [v] => pathsOf v
  | v :: w :: vs => do
      let ps ← pathsOf v
      let qs ← readPatterns whole (w :: vs)
      pure (ps ++ qs)

end

end CypherCompose
