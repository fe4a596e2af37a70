import CypherCompose.Expr.Render

/-!
# Induction over expressions

`Expr.induct` is the induction over expressions with the subexpressions of a collection given as its
members; those of a pattern are the values of its property maps (`Path.values`).  The functions that
render collections are maps, so that one equation for each form (`Expr.rendering_list`, …) is all
that later proofs need.
-/

namespace CypherCompose

/-! ## The values of patterns -/

section Values

variable {ε δ : Type}

/-- The property values of a node. -/
def Node.values (n : Node ε) : List ε :=
  n.props.map (·.2)

/-- The property values of a relationship. -/
def Rel.values (r : Rel ε) : List ε :=
  r.props.map (·.2)

/-- The property values of a link. -/
def Link.values (l : Link ε) : List ε :=
  l.rel.values ++ l.node.values

/-- The property values of a path, from left to right. -/
def Path.values (p : Path ε) : List ε :=
  p.start.values ++ p.links.flatMap Link.values

/-- Entries with other values. -/
def mapValues (f : ε → δ) (entries : List (Name × ε)) : List (Name × δ) :=
  entries.map fun e => (e.1, f e.2)

/-- A node with other property values. -/
def Node.map (f : ε → δ) (n : Node ε) : Node δ :=
  ⟨n.name, n.label, mapValues f n.props⟩

/-- A relationship with other property values. -/
def Rel.map (f : ε → δ) (r : Rel ε) : Rel δ :=
  ⟨r.name, r.type, r.hops, mapValues f r.props⟩

/-- A link with other property values. -/
def Link.map (f : ε → δ) (l : Link ε) : Link δ :=
  ⟨l.direction, l.rel.map f, l.node.map f⟩

/-- A path with other property values. -/
def Path.map (f : ε → δ) (p : Path ε) : Path δ :=
  ⟨p.start.map f, p.links.map (Link.map f)⟩

theorem Node.values_map (f : ε → δ) (n : Node ε) : (n.map f).values = n.values.map f := by
  simp [Node.values, Node.map, mapValues]

theorem Rel.values_map (f : ε → δ) (r : Rel ε) : (r.map f).values = r.values.map f := by
  simp [Rel.values, Rel.map, mapValues]

theorem Link.values_map (f : ε → δ) (l : Link ε) : (l.map f).values = l.values.map f := by
  simp [Link.values, Link.map, Rel.values_map, Node.values_map]

theorem Path.values_map (f : ε → δ) (p : Path ε) : (p.map f).values = p.values.map f := by
  simp [Path.values, Path.map, Node.values_map, List.flatMap_map, List.map_flatMap, Link.values_map]

end Values

namespace Expr

/-! ## The induction -/

/-- What an induction shows for each form of expression. -/
structure Steps (motive : Expr → Prop) : Prop where
  null : motive .null
  bool : ∀ b, motive (.bool b)
  int : ∀ n, motive (.int n)
  float : ∀ x, motive (.float x)
  text : ∀ s, motive (.text s)
  star : motive .star
  var : ∀ n, motive (.var n)
  property : ∀ owner key, motive (.property owner key)
  param : ∀ p, motive (.param p)
  list : ∀ items, (∀ e ∈ items, motive e) → motive (.list items)
  map : ∀ entries, (∀ e ∈ entries, motive e.2) → motive (.map entries)
  binary : ∀ op l r, motive l → motive r → motive (.binary op l r)
  unary : ∀ op e, motive e → motive (.unary op e)
  call : ∀ f d args, (∀ e ∈ args, motive e) → motive (.call f d args)
  case : ∀ branches default, (∀ b ∈ branches, motive b.1 ∧ motive b.2) →
    (∀ d ∈ default, motive d) → motive (.case branches default)
  existence : ∀ paths, (∀ p ∈ paths, ∀ e ∈ p.values, motive e) → motive (.existence paths)
  enclosed : ∀ e, motive e → motive (.enclosed e)

namespace Steps

variable {motive : Expr → Prop}

mutual

theorem expr (h : Steps motive) : ∀ e, motive e
  | .null => h.null
  | .bool b => h.bool b
  | .int n => h.int n
  | .float x => h.float x
  | .text s => h.text s
  | .star => h.star
  | .var n => h.var n
  | .property o k => h.property o k
  | .param p => h.param p
  | .list items => h.list items (all h items)
  | .map es => h.map es (entries h es)
  | .binary op l r => h.binary op l r (expr h l) (expr h r)
  | .unary op e => h.unary op e (expr h e)
  | .call f d args => h.call f d args (all h args)
  | .case bs default => h.case bs default (branches h bs) (option h default)
  | .existence ps => h.existence ps (paths h ps)
  | .enclosed e => h.enclosed e (expr h e)

theorem all (h : Steps motive) : ∀ es : List Expr, ∀ e ∈ es, motive e
  | [] => fun _ he => by cases he
  | e :: es => List.forall_mem_cons.2 ⟨expr h e, all h es⟩

theorem entries (h : Steps motive) : ∀ es : List (Name × Expr), ∀ e ∈ es, motive e.2
  | [] => fun _ he => by cases he
  | (_, e) :: es => List.forall_mem_cons.2 ⟨expr h e, entries h es⟩

theorem branches (h : Steps motive) : ∀ bs : List (Expr × Expr), ∀ b ∈ bs, motive b.1 ∧ motive b.2
  | [] => fun _ hb => by cases hb
  | (c, v) :: bs => List.forall_mem_cons.2 ⟨⟨expr h c, expr h v⟩, branches h bs⟩

theorem option (h : Steps motive) : ∀ o : Option Expr, ∀ e ∈ o, motive e
  | none => fun _ he => by cases he
  | some e => fun _ he => Option.some.inj he ▸ expr h e

theorem paths (h : Steps motive) : ∀ ps : List (Path Expr), ∀ p ∈ ps, ∀ e ∈ p.values, motive e
  | [] => fun _ hp => by cases hp
  | p :: ps => List.forall_mem_cons.2 ⟨path h p, paths h ps⟩

theorem path (h : Steps motive) : ∀ p : Path Expr, ∀ e ∈ p.values, motive e
  | ⟨start, ls⟩ => List.forall_mem_append.2
      ⟨node h start, List.forall_mem_flatMap.2 (links h ls)⟩

theorem links (h : Steps motive) : ∀ ls : List (Link Expr), ∀ l ∈ ls, ∀ e ∈ l.values, motive e
  | [] => fun _ hl => by cases hl
  | l :: ls => List.forall_mem_cons.2 ⟨link h l, links h ls⟩

theorem link (h : Steps motive) : ∀ l : Link Expr, ∀ e ∈ l.values, motive e
  | ⟨_, r, n⟩ => List.forall_mem_append.2 ⟨rel h r, node h n⟩

theorem node (h : Steps motive) : ∀ n : Node Expr, ∀ e ∈ n.values, motive e
  | ⟨_, _, props⟩ => List.forall_mem_map.2 (entries h props)

theorem rel (h : Steps motive) : ∀ r : Rel Expr, ∀ e ∈ r.values, motive e
  | ⟨_, _, _, props⟩ => List.forall_mem_map.2 (entries h props)

end

end Steps

@[elab_as_elim]
theorem induct {motive : Expr → Prop} (null : motive .null) (bool : ∀ b, motive (.bool b))
    (int : ∀ n, motive (.int n)) (float : ∀ x, motive (.float x)) (text : ∀ s, motive (.text s))
    (star : motive .star) (var : ∀ n, motive (.var n))
    (property : ∀ owner key, motive (.property owner key)) (param : ∀ p, motive (.param p))
    (list : ∀ items, (∀ e ∈ items, motive e) → motive (.list items))
    (map : ∀ entries, (∀ e ∈ entries, motive e.2) → motive (.map entries))
    (binary : ∀ op l r, motive l → motive r → motive (.binary op l r))
    (unary : ∀ op e, motive e → motive (.unary op e))
    (call : ∀ f d args, (∀ e ∈ args, motive e) → motive (.call f d args))
    (case : ∀ branches default, (∀ b ∈ branches, motive b.1 ∧ motive b.2) →
      (∀ d ∈ default, motive d) → motive (.case branches default))
    (existence : ∀ paths, (∀ p ∈ paths, ∀ e ∈ p.values, motive e) → motive (.existence paths))
    (enclosed : ∀ e, motive e → motive (.enclosed e)) (e : Expr) : motive e :=
  Steps.expr ⟨null, bool, int, float, text, star, var, property, param, list, map, binary, unary,
    call, case, existence, enclosed⟩ e

/-! ## Rendering collections -/

theorem renderAll_eq_map (es : List Expr) : renderAll es = es.map render := by
  induction es with
  | nil => rfl
  | cons e es ih => rw [renderAll, ih, List.map_cons, render]

theorem renderEntries_eq_mapValues (es : List (Name × Expr)) :
    renderEntries es = mapValues render es := by
  induction es with
  | nil => rfl
  | cons e es ih =>
    obtain ⟨k, e⟩ := e
    rw [renderEntries, ih]
    rfl

theorem renderBranches_eq_map (bs : List (Expr × Expr)) :
    renderBranches bs = bs.map fun b => (b.1.render, b.2.render) := by
  induction bs with
  | nil => rfl
  | cons b bs ih =>
    obtain ⟨c, v⟩ := b
    rw [renderBranches, ih]
    rfl

theorem renderOption_eq_map (o : Option Expr) : renderOption o = o.map render := by
  cases o <;> rfl

theorem renderNode_eq_map (n : Node Expr) : renderNode n = n.map render := by
  obtain ⟨name, label, props⟩ := n
  rw [renderNode, renderEntries_eq_mapValues]
  rfl

theorem renderRel_eq_map (r : Rel Expr) : renderRel r = r.map render := by
  obtain ⟨name, type, hops, props⟩ := r
  rw [renderRel, renderEntries_eq_mapValues]
  rfl

theorem renderLinks_eq_map (ls : List (Link Expr)) : renderLinks ls = ls.map (Link.map render) := by
  induction ls with
  | nil => rfl
  | cons l ls ih =>
    obtain ⟨d, r, n⟩ := l
    rw [renderLinks, ih, renderLink, renderRel_eq_map, renderNode_eq_map]
    rfl

theorem renderPath_eq_map (p : Path Expr) : renderPath p = p.map render := by
  obtain ⟨start, links⟩ := p
  rw [renderPath, renderNode_eq_map, renderLinks_eq_map]
  rfl

theorem renderPathList_eq_map (ps : List (Path Expr)) :
    renderPathList ps = ps.map (Path.map render) := by
  induction ps with
  | nil => rfl
  | cons p ps ih => rw [renderPathList, ih, renderPath_eq_map, List.map_cons]

end Expr

end CypherCompose
