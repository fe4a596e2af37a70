import CypherCompose.Proofs.Enclosure

/-!
# Leaves

What a caller puts into a statement arrives in its text as names, strings and parameters: the leaves
of the text.  All other tokens are the grammar's own words and signs, functions and numbers.

`Token.leaves` lists the leaves of tokens from left to right.  Separators, brackets and parentheses
add none, so the leaves of a form are those of its parts, in the order in which they are written; for
an OR this holds although its operands are taken apart (`Expr.leaves_disjuncts`).

The scan of a text shows its strings and its quoted names as marks of their own; these are its leaves
again (`Token.strings_marks`, `Token.quoted_marks`).
-/

namespace CypherCompose

/-- A name, a string or a parameter; `π` is what is known of a parameter. -/
inductive Leaf (π : Type) where
  | name (s : String)
  | string (s : String)
  | param (p : π)
  deriving DecidableEq, Repr

namespace Leaf

variable {π ρ : Type}

/-- The characters of a name. -/
def name? : Leaf π → Option String
  | name s => some s
  | _ => none

/-- The characters of a string. -/
def string? : Leaf π → Option String
  | string s => some s
  | _ => none

/-- A parameter. -/
def param? : Leaf π → Option π
  | param p => some p
  | _ => none

/-- The leaf with something else known of its parameter. -/
def map (f : π → ρ) : Leaf π → Leaf ρ
  | name s => name s
  | string s => string s
  | param p => param (f p)

@[simp] theorem name?_map (f : π → ρ) (l : Leaf π) : (l.map f).name? = l.name? := by
  cases l <;> rfl

@[simp] theorem string?_map (f : π → ρ) (l : Leaf π) : (l.map f).string? = l.string? := by
  cases l <;> rfl

end Leaf

namespace Token

/-- The leaf that a token is.  Of a parameter its name is known. -/
def leaf? : Token → Option (Leaf Value)
  | name n => some (.name n.text)
  | filledName n => some (.name n.text)
  | string s => some (.string s)
  | param p => some (.param p.toValue)
  | _ => none

/-- The leaves of tokens. -/
def leaves (ts : List Token) : List (Leaf Value) :=
  ts.filterMap leaf?

@[simp] theorem leaves_nil : leaves [] = [] := rfl

@[simp] theorem leaves_append (ts us : List Token) : leaves (ts ++ us) = leaves ts ++ leaves us :=
  List.filterMap_append

@[simp] theorem leaves_sym (s : String) (ts : List Token) : leaves (sym s :: ts) = leaves ts := rfl

@[simp] theorem leaves_blank (ts : List Token) : leaves (blank :: ts) = leaves ts := rfl

@[simp] theorem leaves_name (n : Name) (ts : List Token) :
    leaves (name n :: ts) = .name n.text :: leaves ts := rfl

@[simp] theorem leaves_filledName (n : Name) (ts : List Token) :
    leaves (filledName n :: ts) = .name n.text :: leaves ts := rfl

@[simp] theorem leaves_function (f : FunctionName) (ts : List Token) :
    leaves (function f :: ts) = leaves ts := rfl

@[simp] theorem leaves_param (p : ParamName) (ts : List Token) :
    leaves (param p :: ts) = .param p.toValue :: leaves ts := rfl

@[simp] theorem leaves_string (s : String) (ts : List Token) :
    leaves (string s :: ts) = .string s :: leaves ts := rfl

@[simp] theorem leaves_numeral (n : Nat) (ts : List Token) :
    leaves (numeral n :: ts) = leaves ts := rfl

@[simp] theorem leaves_decimal (x : Binary64.Finite) (ts : List Token) :
    leaves (decimal x :: ts) = leaves ts := rfl

theorem leaves_intercalate {sep : List Token} (h : leaves sep = []) (parts : List (List Token)) :
    leaves (List.intercalate sep parts) = parts.flatMap leaves := by
  induction parts with
  | nil => rfl
  | cons ts parts ih =>
    cases parts with
    | nil => simp [List.intercalate]
    | cons us parts =>
      rw [List.intercalate_cons_cons, leaves_append, leaves_append, ih, h, List.append_nil]
      rfl

@[simp] theorem leaves_commas (parts : List (List Token)) :
    leaves (commas parts) = parts.flatMap leaves :=
  leaves_intercalate rfl parts

@[simp] theorem leaves_blanks (parts : List (List Token)) :
    leaves (blanks parts) = parts.flatMap leaves :=
  leaves_intercalate rfl parts

@[simp] theorem leaves_fill (ts : List Token) : leaves (fill ts) = leaves ts := by
  unfold fill
  split <;> rfl

@[simp] theorem leaves_parens (ts : List Token) : leaves (parens ts) = leaves ts := by
  simp [parens]

@[simp] theorem leaves_after (keyword : String) (ts : List Token) :
    leaves (after keyword ts) = leaves ts := rfl

@[simp] theorem leaves_flagged (flag : Bool) (keyword : String) :
    leaves (flagged flag keyword) = [] := by
  cases flag <;> rfl

/-! ## Marks -/

theorem string?_chars (cs : List Char) : (cs.map Mark.char).filterMap Mark.string? = [] := by
  simp [List.filterMap_map, Function.comp_def, Mark.string?]

theorem quoted?_chars (cs : List Char) : (cs.map Mark.char).filterMap Mark.quoted? = [] := by
  simp [List.filterMap_map, Function.comp_def, Mark.quoted?]

theorem string?_ofName (s : String) : (Mark.ofName s).filterMap Mark.string? = [] := by
  unfold Mark.ofName
  split_ifs
  · exact string?_chars _
  · rfl

theorem quoted?_ofName (s : String) :
    (Mark.ofName s).filterMap Mark.quoted? = [s].filter fun s => !Identifier.isPlain s := by
  unfold Mark.ofName
  split_ifs with h
  · rw [quoted?_chars, List.filter_cons_of_neg (by simp [h])]
    rfl
  · rw [List.filter_cons_of_pos (by simp [h])]
    rfl

/-- A symbol is plain under either of its names. -/
theorem isPlain_of_symbol {w : Word} {s : String} (h : w.symbol? = some s) :
    Identifier.isPlain w.text = true := by
  cases w with
  | plain s => cases h
  | direction d => cases d <;> decide +kernel
  | mode m => cases m <;> decide +kernel

theorem string?_marks (t : Token) :
    t.marks.filterMap Mark.string? = (leaves [t]).filterMap Leaf.string? := by
  cases t with
  | name n => exact string?_ofName n.text
  | filledName n =>
    rw [marks]
    split
    · exact string?_chars _
    · exact string?_ofName n.text
  | string s => rfl
  | _ => exact string?_chars _

theorem quoted?_marks (t : Token) :
    t.marks.filterMap Mark.quoted? =
      ((leaves [t]).filterMap Leaf.name?).filter fun s => !Identifier.isPlain s := by
  cases t with
  | name n => exact quoted?_ofName n.text
  | filledName n =>
    rw [marks]
    split
    · rename_i s hs
      have hplain : Identifier.isPlain n.text = true := isPlain_of_symbol hs
      rw [quoted?_chars, leaves_filledName, List.filterMap_cons, Leaf.name?]
      simp [hplain]
    · exact quoted?_ofName n.text
  | string s => rfl
  | _ => exact quoted?_chars _

/-- The strings in a text are its leaves that are strings. -/
theorem strings_marks (ts : List Token) :
    (ts.flatMap marks).filterMap Mark.string? = (leaves ts).filterMap Leaf.string? := by
  induction ts with
  | nil => rfl
  | cons t ts ih =>
    rw [List.flatMap_cons, List.filterMap_append, string?_marks, ih, ← List.filterMap_append,
      ← leaves_append]
    rfl

/-- The quoted names in a text are its leaves that are names and not plain. -/
theorem quoted_marks (ts : List Token) :
    (ts.flatMap marks).filterMap Mark.quoted? =
      ((leaves ts).filterMap Leaf.name?).filter fun s => !Identifier.isPlain s := by
  induction ts with
  | nil => rfl
  | cons t ts ih =>
    rw [List.flatMap_cons, List.filterMap_append, quoted?_marks, ih, ← List.filter_append,
      ← List.filterMap_append, ← leaves_append]
    rfl

end Token

/-! ## Patterns -/

open Token

/-- The leaf of a name, if there is one. -/
def optionLeaves : Option Name → List (Leaf Value)
  | some n => [.name n.text]
  | none => []

/-- The leaves of the entries of a map. -/
def entryLeaves (es : List (Name × Expr)) : List (Leaf Value) :=
  es.flatMap fun e => .name e.1.text :: leaves e.2.render

/-- The leaves of a node. -/
def Node.leaves (n : Node Expr) : List (Leaf Value) :=
  optionLeaves n.name ++ optionLeaves n.label ++ entryLeaves n.props

/-- The leaves of a relationship. -/
def Rel.leaves (r : Rel Expr) : List (Leaf Value) :=
  optionLeaves r.name ++ optionLeaves r.type ++ entryLeaves r.props

/-- The leaves of a path. -/
def Path.leaves (p : Path Expr) : List (Leaf Value) :=
  p.start.leaves ++ p.links.flatMap fun l => l.rel.leaves ++ l.node.leaves

@[simp] theorem leaves_renderName (n : Option Name) : leaves (renderName n) = optionLeaves n := by
  cases n <;> rfl

@[simp] theorem leaves_renderLabel (n : Option Name) : leaves (renderLabel n) = optionLeaves n := by
  cases n <;> rfl

@[simp] theorem leaves_renderHops (h : Option Hops) : leaves (renderHops h) = [] := by
  rcases h with _ | n | ⟨_ | a, _ | b⟩ <;> rfl

theorem leaves_renderMap (es : List (Name × Expr)) :
    leaves (renderMap (mapValues Expr.render es)) = entryLeaves es := by
  simp [renderMap, entryLeaves, mapValues, List.flatMap_map]

theorem leaves_renderProps (es : List (Name × Expr)) :
    leaves (renderProps (mapValues Expr.render es)) = entryLeaves es := by
  rw [renderProps]
  split_ifs with h
  · have hes : es = [] := by simpa [mapValues] using h
    rw [hes]
    rfl
  · rw [leaves_blank, leaves_renderMap]

theorem leaves_node (n : Node Expr) : leaves (n.map Expr.render).render = n.leaves := by
  simp [Node.render, Node.map, Node.leaves, leaves_renderProps]

theorem leaves_rel (r : Rel Expr) : leaves (r.map Expr.render).render = r.leaves := by
  simp [Rel.render, Rel.map, Rel.leaves, leaves_renderProps]

theorem leaves_path (p : Path Expr) : leaves (p.map Expr.render).render = p.leaves := by
  have hlink : ∀ l : Link Expr, leaves (l.map Expr.render).render = l.rel.leaves ++ l.node.leaves := by
    intro l
    have hopening : leaves l.direction.opening = [] := by cases l.direction <;> rfl
    have hclosing : leaves l.direction.closing = [] := by cases l.direction <;> rfl
    simp [Link.render, Link.map, hopening, hclosing, leaves_node, leaves_rel]
  have hlinks : ∀ ls : List (Link Expr),
      leaves ((ls.map (Link.map Expr.render)).flatMap Link.render) =
        ls.flatMap fun l => l.rel.leaves ++ l.node.leaves := by
    intro ls
    induction ls with
    | nil => rfl
    | cons l ls ih => simp [hlink, ih]
  simp [Path.render, Path.map, Path.leaves, leaves_node, hlinks]

@[simp] theorem leaves_pathTokens (ps : List (Path Expr)) :
    leaves (pathTokens ps) = ps.flatMap Path.leaves := by
  rw [pathTokens, Expr.renderPathList_eq_map, renderPaths, leaves_commas, List.map_map,
    List.flatMap_map]
  exact congrArg (List.flatMap · ps) (funext leaves_path)

/-! ## Expressions -/

namespace Expr

@[simp] theorem leaves_guarded (needed : Bool) (r : Rendering) :
    leaves (r.guarded needed) = leaves r.tokens := by
  cases needed <;> simp [Rendering.guarded]

theorem leaves_disjunction (l r : Rendering) :
    leaves (Rendering.disjunction l r).tokens = (l.disjuncts ++ r.disjuncts).flatMap leaves := by
  rw [Rendering.disjunction, leaves_sym, leaves_append, leaves_intercalate rfl]
  exact List.append_nil _

/-- The disjuncts of an expression hold its leaves. -/
theorem leaves_disjuncts (e : Expr) : e.rendering.disjuncts.flatMap leaves = leaves e.render := by
  have hsingle : ∀ prec tokens, (Rendering.single prec tokens).disjuncts.flatMap leaves =
      leaves (Rendering.single prec tokens).tokens := fun _ _ => List.append_nil _
  cases e with
  | binary op l r =>
    rw [render, rendering, Rendering.binary]
    split_ifs
    · exact (leaves_disjunction _ _).symm
    · exact hsingle _ _
  | unary op e =>
    rw [render, rendering]
    cases op <;> exact hsingle _ _
  | _ =>
    rw [render, rendering]
    exact hsingle _ _

theorem leaves_binary (op : BinaryOp) (l r : Expr) :
    leaves (binary op l r).render = leaves l.render ++ leaves r.render := by
  rw [render, rendering, Rendering.binary]
  split_ifs
  · rw [leaves_disjunction, List.flatMap_append, leaves_disjuncts, leaves_disjuncts]
  · simp [Rendering.single, render]

theorem leaves_unary (op : UnaryOp) (e : Expr) : leaves (unary op e).render = leaves e.render := by
  rw [render, rendering]
  cases op <;> simp [Rendering.unary, Rendering.single, render]

theorem leaves_list (es : List Expr) :
    leaves (list es).render = es.flatMap fun e => leaves e.render := by
  simp [render, rendering, Rendering.single, renderAll_eq_map, List.flatMap_map]

theorem leaves_map (es : List (Name × Expr)) : leaves (map es).render = entryLeaves es := by
  rw [render, rendering, renderEntries_eq_mapValues]
  exact leaves_renderMap es

theorem leaves_call (f : FunctionName) (distinct : Bool) (es : List Expr) :
    leaves (call f distinct es).render = es.flatMap fun e => leaves e.render := by
  cases distinct <;>
    simp [render, rendering, Rendering.single, renderAll_eq_map, List.flatMap_map]

theorem leaves_case (bs : List (Expr × Expr)) (d : Option Expr) :
    leaves (case bs d).render =
      bs.flatMap (fun b => leaves b.1.render ++ leaves b.2.render) ++
        d.toList.flatMap fun e => leaves e.render := by
  rw [render, rendering, renderBranches_eq_map, renderOption_eq_map, Rendering.single]
  unfold renderCase
  cases d <;> simp [List.flatMap_map]

theorem leaves_existence (ps : List (Path Expr)) :
    leaves (existence ps).render = ps.flatMap Path.leaves := by
  have h := leaves_pathTokens ps
  rw [pathTokens] at h
  simp [render, rendering, Rendering.single, h]

theorem leaves_join (op : BinaryOp) (e : Expr) (es : List Expr) :
    leaves (join op e es).render = (e :: es).flatMap fun e => leaves e.render := by
  induction es generalizing e with
  | nil => simp [join]
  | cons f es ih =>
    rw [join, List.foldl_cons]
    exact (ih (binary op e f)).trans (by simp [leaves_binary])

end Expr

/-! ## Clauses -/

namespace Clause

theorem leaves_projection (p : Projection) :
    leaves p.render = leaves p.expr.render ++ optionLeaves p.name := by
  rw [Projection.render]
  cases p.name <;> simp [optionLeaves]

theorem leaves_projections (ps : List Projection) :
    leaves (renderProjections ps) =
      ps.flatMap fun p => leaves p.expr.render ++ optionLeaves p.name := by
  rw [renderProjections]
  split_ifs with h
  · rw [List.isEmpty_iff.1 h]
    rfl
  · rw [leaves_commas, List.flatMap_map]
    exact congrArg (List.flatMap · ps) (funext leaves_projection)

theorem leaves_assignments (as : List Assignment) :
    leaves (renderAssignments as) =
      as.flatMap fun a => leaves a.target.render ++ leaves a.value.render := by
  simp [renderAssignments, List.flatMap_map, Assignment.render]

theorem leaves_sortKey (k : SortKey) : leaves k.render = leaves k.expr.render := by
  rw [SortKey.render]
  cases k.order <;> simp

theorem leaves_head (what : String) (n : Option Name) (ifNotExists : Bool) :
    leaves (renderHead what n ifNotExists) = optionLeaves n := by
  cases n <;> cases ifNotExists <;> rfl

theorem leaves_keys (ks : List Name) :
    (ks.map renderKey).flatMap leaves = ks.map fun k => .name k.text := by
  rw [List.flatMap_map, List.map_eq_flatMap]
  rfl

theorem leaves_demand (kind : Constraint) (ks : List Name) :
    leaves (renderDemand kind ks) = ks.map fun k => .name k.text := by
  unfold renderDemand
  -- only a single key stands without parentheses
  rcases ks with _ | ⟨k, _ | ⟨k', ks⟩⟩
  · cases kind <;> rfl
  · cases kind <;> rfl
  · have hkeys := leaves_keys (k :: k' :: ks)
    cases kind <;> simpa using hkeys

end Clause

end CypherCompose
