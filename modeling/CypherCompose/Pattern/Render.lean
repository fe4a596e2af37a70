import CypherCompose.Pattern.Basic
import CypherCompose.Token

/-!
# The text of patterns

Patterns whose property values are written already: `(name:Label {key: value})` for a node, and
`-[name:TYPE*1..3 {key: value}]->` for a relationship.
-/

namespace CypherCompose

open Token

/-- A property map. -/
def renderMap (entries : List (Name × List Token)) : List Token :=
  sym "\x7b"
    :: (commas (entries.map fun e => filledName e.1 :: sym ":" :: blank :: fill e.2)
      ++ [sym "\x7d"])

/-- A property map inside a node or a relationship; an empty one is left out. -/
def renderProps (entries : List (Name × List Token)) : List Token :=
  if entries.isEmpty then [] else blank :: renderMap entries

/-- A name, if there is one. -/
def renderName : Option Name → List Token
  | none => []
  | some n => [name n]

/-- A label or a type, if there is one. -/
def renderLabel : Option Name → List Token
  | none => []
  | some n => [sym ":", name n]

/-- A bound of a range; an open end is left out. -/
def renderBound : Option Nat → List Token
  | none => []
  | some n => [numeral n]

/-- The hops of a relationship. -/
def Hops.render : Hops → List Token
  | .exactly n => [sym "*", numeral n]
  | .range none none => [sym "*"]
  | .range min max => sym "*" :: (renderBound min ++ [sym ".."] ++ renderBound max)

/-- The hops of a relationship, if it has any. -/
def renderHops : Option Hops → List Token
  | none => []
  | some h => h.render

/-- A node. -/
def Node.render (n : Node (List Token)) : List Token :=
  sym "(" :: (renderName n.name ++ renderLabel n.label ++ renderProps n.props ++ [sym ")"])

/-- What stands between the brackets of a relationship. -/
def Rel.render (r : Rel (List Token)) : List Token :=
  renderName r.name ++ renderLabel r.type ++ renderHops r.hops ++ renderProps r.props

/-- What stands on the left of a relationship's bracket. -/
def Direction.opening : Direction → List Token
  | .backward => [sym "<-", sym "["]
  | _ => [sym "-", sym "["]

/-- What stands on the right of a relationship's bracket. -/
def Direction.closing : Direction → List Token
  | .forward => [sym "]", sym "->"]
  | _ => [sym "]", sym "-"]

/-- A relationship and the node it leads to. -/
def Link.render (l : Link (List Token)) : List Token :=
  l.direction.opening ++ l.rel.render ++ l.direction.closing ++ l.node.render

/-- A path. -/
def Path.render (p : Path (List Token)) : List Token :=
  p.start.render ++ p.links.flatMap Link.render

/-- Paths with commas between them. -/
def renderPaths (ps : List (Path (List Token))) : List Token :=
  commas (ps.map Path.render)

end CypherCompose
