import CypherCompose.Expr.Assignment

/-!
# Pieces of statements

The parts of a statement that can be written on their own: an expression, an assignment, a map, a
pattern, a node, the inside of a relationship, a chain.
-/

namespace CypherCompose

/-- A value read as a map. -/
def readMap : Value → Draft (List (Name × Expr))
  | .map es => readEntries (.map es) es
  | v => .fail (.misuse (.ofNoMap v))

/-- The readings of patterns one after the other. -/
def readEachPattern : List Value → Draft (List (Path Expr))
  | [] => .done []
  | v :: vs => do
      let ps ← pathsOf v
      let qs ← readEachPattern vs
      pure (ps ++ qs)

/-- A value walked through as a list of patterns. -/
def readManyPatterns (v : Value) : Draft (List (Path Expr)) := do
  if ← Draft.ofMisuse v.truth then
    let items ← Draft.ofOption (.misuse (.notIterable v)) v.items?
    readEachPattern items
  else .fail (.pattern (.emptyList v))

/-- A value read as a node. -/
def nodeOf : Value → Draft (Node Expr)
  | .nodeRef name label props => readNode name label (readProps props) (.nodeRef name label props)
  | v => if v.isText then namedNode v else .fail (.pattern (.notNode v))

/-- A value read as a relationship. -/
def relOf : Value → Draft (Rel Expr)
  | .relRef name type hops props =>
      readRel name type hops (readProps props) (.relRef name type hops props)
  | v => if v.isText then typedRel v else .fail (.pattern (.notRelationship v))

/-- A value read as a chain. -/
def chainOf : Value → Draft (List (Path Expr))
  | .chain elements steps => pathsOf (.chain elements steps)
  | v => .fail (.misuse (.noPart v))

/-- The parts that can be written on their own. -/
inductive Piece where
  | expr
  | assignment
  | map
  | pattern
  | patterns
  | node
  | rel
  | chain
  deriving DecidableEq, Repr

/-- The reading of a piece, down to its tokens. -/
def Piece.draft : Piece → Value → Draft (List Token)
  | expr, v => Expr.render <$> Expr.ofValue v
  | assignment, v => Assignment.render <$> readAssignment v
  | map, v => mapTokens <$> readMap v
  | pattern, v => pathTokens <$> pathsOf v
  | patterns, v => pathTokens <$> readManyPatterns v
  | node, v => Node.tokens <$> nodeOf v
  | rel, v => Rel.tokens <$> relOf v
  | chain, v => pathTokens <$> chainOf v

end CypherCompose
