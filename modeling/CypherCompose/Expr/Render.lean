import CypherCompose.Expr.Basic
import CypherCompose.Pattern.Render

/-!
# The text of expressions

An operand is put between parentheses when its level is looser than its operator's.  At the same
level a left operand needs none, save that comparisons do not chain; a right operand needs none only
under the same operator, if grouping does not matter to it.  OR always stands between parentheses of
its own, whatever surrounds it, and a nest of ORs is written as one.
-/

namespace CypherCompose

open Token

/-- The text of an expression with its level.  `disjuncts` are the texts that an OR around the
expression joins: its own operands when it is an OR, and else its whole text. -/
structure Rendering where
  tokens : List Token
  prec : Prec
  disjuncts : List (List Token)

namespace Rendering

/-- The rendering of an expression that is not an OR. -/
def single (prec : Prec) (tokens : List Token) : Rendering :=
  ⟨tokens, prec, [tokens]⟩

/-- The text between parentheses, if they are needed. -/
def guarded (needed : Bool) (r : Rendering) : List Token :=
  if needed then parens r.tokens else fill r.tokens

/-- Two texts joined by an OR. -/
def disjunction (l r : Rendering) : Rendering :=
  let parts := l.disjuncts ++ r.disjuncts
  ⟨sym "(" :: (List.intercalate [blank, sym BinaryOp.or.token, blank] parts ++ [sym ")"]), .atom,
    parts⟩

/-- Two texts joined by an operator; `regroups` says that the right one applies it too. -/
def binary (op : BinaryOp) (l r : Rendering) (regroups : Bool) : Rendering :=
  if op = .or then disjunction l r
  else
    let left := l.guarded (l.prec < op.prec || (l.prec = op.prec && op.prec = .comparison))
    let right :=
      r.guarded (r.prec < op.prec || (r.prec = op.prec && !(op.isAssociative && regroups)))
    single op.prec (left ++ [blank, sym op.token, blank] ++ right)

/-- A text under an operator. -/
def unary (op : UnaryOp) (r : Rendering) : Rendering :=
  match op with
  | .not => single .not (sym "NOT" :: blank :: r.guarded true)
  | .neg =>
      single .negation (sym "-" :: r.guarded (r.prec < .negation || startsWithMinus r.tokens))
  | op => single .comparison (r.guarded (r.prec ≤ .comparison) ++ [blank, sym op.token])

end Rendering

/-- A sign in front of a number below zero. -/
def signed (negative : Bool) (t : Token) : List Token :=
  if negative then [sym "-", t] else [t]

/-- The branches of a CASE. -/
def renderCase (branches : List (List Token × List Token)) (default : Option (List Token)) :
    List Token :=
  let whens := branches.map fun b =>
    sym "WHEN" :: blank :: (fill b.1 ++ [blank, sym "THEN", blank] ++ fill b.2)
  let otherwise := match default with
    | some d => [sym "ELSE" :: blank :: fill d]
    | none => []
  blanks ([[sym "CASE"]] ++ whens ++ otherwise ++ [[sym "END"]])

namespace Expr

mutual

/-- The text and the level of an expression. -/
def rendering : Expr → Rendering
  | null => .single .atom [sym "null"]
  | bool b => .single .atom [sym (if b then "true" else "false")]
  | int n => .single (if n < 0 then .negation else .atom) (signed (n < 0) (numeral n.natAbs))
  | float x => .single (if x.isBelowZero then .negation else .atom) (signed x.negative (decimal x))
  | text s => .single .atom [string s]
  | star => .single .atom [sym "*"]
  | var n => .single .atom [name n]
  | property owner key => .single .atom [filledName owner, sym ".", filledName key]
  | param p => .single .atom [Token.param p]
  | list items => .single .atom (sym "[" :: (commas (renderAll items) ++ [sym "]"]))
  | map entries => .single .atom (renderMap (renderEntries entries))
  | binary op l r => .binary op l.rendering r.rendering (r.applies op)
  | unary op e => .unary op e.rendering
  | call f distinct args =>
      .single .atom
        (function f :: sym "(" :: ((if distinct then [sym "DISTINCT", blank] else [])
          ++ commas (renderAll args) ++ [sym ")"]))
  | case branches default =>
      .single .atom (renderCase (renderBranches branches) (renderOption default))
  | existence paths =>
      .single .atom ([sym "EXISTS", blank, sym "\x7b", blank, sym "MATCH", blank]
        ++ CypherCompose.renderPaths (renderPathList paths) ++ [blank, sym "\x7d"])
  | enclosed e => .single e.rendering.prec e.rendering.tokens

/-- The texts of expressions. -/
def renderAll : List Expr → List (List Token)
  | [] => []
  | e :: es => e.rendering.tokens :: renderAll es

/-- Entries with the texts of their values. -/
def renderEntries : List (Name × Expr) → List (Name × List Token)
  | [] => []
  | (k, e) :: es => (k, e.rendering.tokens) :: renderEntries es

/-- The texts of branches. -/
def renderBranches : List (Expr × Expr) → List (List Token × List Token)
  | [] => []
  | (c, v) :: bs => (c.rendering.tokens, v.rendering.tokens) :: renderBranches bs

/-- The text of an expression, if there is one. -/
def renderOption : Option Expr → Option (List Token)
  | none => none
  | some e => some e.rendering.tokens

/-- Paths with the texts of their property values. -/
def renderPathList : List (Path Expr) → List (Path (List Token))
  | [] => []
  | p :: ps => renderPath p :: renderPathList ps

/-- A path with the texts of its property values. -/
def renderPath : Path Expr → Path (List Token)
  | ⟨start, links⟩ => ⟨renderNode start, renderLinks links⟩

/-- Links with the texts of their property values. -/
def renderLinks : List (Link Expr) → List (Link (List Token))
  | [] => []
  | l :: ls => renderLink l :: renderLinks ls

/-- A link with the texts of its property values. -/
def renderLink : Link Expr → Link (List Token)
  | ⟨direction, rel, node⟩ => ⟨direction, renderRel rel, renderNode node⟩

/-- A node with the texts of its property values. -/
def renderNode : Node Expr → Node (List Token)
  | ⟨n, label, props⟩ => ⟨n, label, renderEntries props⟩

/-- A relationship with the texts of its property values. -/
def renderRel : Rel Expr → Rel (List Token)
  | ⟨n, type, hops, props⟩ => ⟨n, type, hops, renderEntries props⟩

end

/-- The tokens of an expression. -/
def render (e : Expr) : List Token :=
  e.rendering.tokens

end Expr

/-- The tokens of a path. -/
def Path.tokens (p : Path Expr) : List Token :=
  (Expr.renderPath p).render

/-- The tokens of paths with commas between them. -/
def pathTokens (ps : List (Path Expr)) : List Token :=
  renderPaths (Expr.renderPathList ps)

/-- The tokens of a node. -/
def Node.tokens (n : Node Expr) : List Token :=
  (Expr.renderNode n).render

/-- The tokens between the brackets of a relationship. -/
def Rel.tokens (r : Rel Expr) : List Token :=
  (Expr.renderRel r).render

/-- The tokens of a property map. -/
def mapTokens (entries : List (Name × Expr)) : List Token :=
  renderMap (Expr.renderEntries entries)

end CypherCompose
