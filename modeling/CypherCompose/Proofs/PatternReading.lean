import CypherCompose.Proofs.PatternGrammar

/-!
# Reading patterns back

`readPaths_spell`: the reader of patterns gives back the paths that were written, with the texts of the
values in their maps, provided their names are plain texts that no line end closes.  The proof follows
the writing part by part: a part is cut into certain chunks (`cut_…`), the chunks that follow it open with
no character it could go on with (`opens_…`), and so its reader takes the part and leaves the rest.
-/

namespace CypherCompose

open Token

/-! ## Values -/

namespace Expr

theorem signed_ne_nil (negative : Bool) (t : Token) : signed negative t ≠ [] := by
  cases negative <;> simp [signed]

theorem render_ne_nil (e : Expr) : e.render ≠ [] := by
  induction e using Expr.induct with
  | int n => exact signed_ne_nil _ _
  | float x => exact signed_ne_nil _ _
  | binary op l r =>
    rw [render, rendering]
    unfold Rendering.binary Rendering.disjunction
    split_ifs <;> simp [Rendering.single]
  | unary op e => cases op <;> simp [render, rendering, Rendering.unary, Rendering.single]
  | map entries => simp [render, rendering, Rendering.single, renderMap]
  | case branches default =>
    have hcase : ∀ parts : List (List Token), blanks ([sym "CASE"] :: parts) ≠ [] := by
      intro parts
      cases parts <;> simp [blanks, List.intercalate]
    rw [render, rendering]
    exact hcase _
  | enclosed e ih => exact ih
  | _ => simp [render, rendering, Rendering.single]

/-- The text of an expression where it is filled into a template. -/
def filledText (e : Expr) : String :=
  spell (fill e.render)

end Expr

/-! ## Maps -/

namespace PatternGrammar

theorem cut_plainChunks {ts : List Token} (h : ts.all isFlat = true) :
    Cut (ts.flatMap marks) (plainChunks ts) := by
  refine .inert fun m hm => ?_
  obtain ⟨t, ht, hm⟩ := List.mem_flatMap.1 hm
  exact isInert_marks (List.all_eq_true.1 h t ht) m hm

/-- The tokens of an entry of a map. -/
def entryTokens (e : Name × Expr) : List Token :=
  filledName e.1 :: sym ":" :: blank :: fill e.2.render

theorem fill_ne_nil {ts : List Token} (h : ts ≠ []) : fill ts ≠ [] := by
  unfold fill
  split
  · simp
  · exact h

theorem pieces_entry {e : Name × Expr} (hk : e.1.IsLegible) :
    Whole (entryTokens e) ∧ pieces (entryTokens e) =
      (Mark.ofName e.1.text).map .mark
        ++ (.mark (.char ':') :: .mark (.char ' ') :: pieces (fill e.2.render)) := by
  have hvalue : Whole (fill e.2.render) := e.2.whole_render.fill
  have hentry : Whole (entryTokens e) :=
    ((hvalue.cons (t := blank) rfl).cons rfl).cons rfl
  have hmarks : (filledName e.1).marks = Mark.ofName e.1.text := by
    rw [marks, hk.1]
    rfl
  have hkey : Cut ((filledName e.1).marks) ((Mark.ofName e.1.text).map .mark) := by
    rw [hmarks]
    exact .inert (isInert_ofName _)
  have hsigns : Cut [.char ':', .char ' '] [.mark (.char ':'), .mark (.char ' ')] :=
    (Cut.mark (.inr rfl)).append (.mark (.inr rfl))
  have hcut := (hkey.append hsigns).append hvalue.cut.1
  refine ⟨hentry, pieces_eq ?_⟩
  simpa [entryTokens, marks, spelling] using hcut

theorem entry?_pieces {e : Name × Expr} (hk : e.1.IsLegible) :
    entry? (pieces (entryTokens e)) = some (e.1, e.2.filledText) := by
  have hvalue : Fragment (fill e.2.render) := e.2.fragment_render.fill
  have hmarks := e.2.whole_render.fill.cut.1.marks
  have hne : pieces (fill e.2.render) ≠ [] := by
    intro hnil
    rw [hnil] at hmarks
    obtain ⟨t, ts, hts⟩ := List.exists_cons_of_ne_nil (fill_ne_nil e.2.render_ne_nil)
    have ht : t.marks ≠ [] := marks_ne_nil (hvalue.known t (by simp [hts]))
    simp [hts, ht] at hmarks
  obtain ⟨c, value, hpieces⟩ := List.exists_cons_of_ne_nil hne
  have hcolon : Opens [':', '*', ' '] (.mark (.char ':') :: .mark (.char ' ') ::
      pieces (fill e.2.render)) := .mark (by simp) _
  have hname := name?_append hk hcolon
  rw [(pieces_entry hk).2, entry?, hname, hpieces, Option.bind_eq_bind, Option.bind_some]
  rw [hpieces] at hmarks
  show some (e.1, spellMarks ((c :: value).flatMap Chunk.marks)) = _
  rw [hmarks, spellMarks_flatMap hvalue.known, Expr.filledText]

theorem head?_ne_blank {cs : List Chunk} (h : startsName cs = true) :
    cs.head? ≠ some (.mark (.char ' ')) := by
  intro hcs
  obtain ⟨rest, rfl⟩ := List.head?_eq_some_iff.1 hcs
  have hblank : Identifier.isHead ' ' = false := by decide
  rw [startsName, hblank] at h
  cases h

/-- The chunks of a node's or a relationship's map. -/
def propsChunks (entries : List (Name × Expr)) : List Chunk :=
  if entries.isEmpty then []
  else [.mark (.char ' '), .group '\x7b' ((commas (entries.map entryTokens)).flatMap marks)]

theorem opens_propsChunks (entries : List (Name × Expr)) : Opens [' '] (propsChunks entries) := by
  unfold propsChunks
  split_ifs
  · exact .nil _
  · exact .mark (by simp) _

theorem map_entryTokens (entries : List (Name × Expr)) :
    (mapValues Expr.render entries).map (fun e => filledName e.1 :: sym ":" :: blank :: fill e.2) =
      entries.map entryTokens := by
  rw [mapValues, List.map_map]
  rfl

theorem fragment_entries (entries : List (Name × Expr)) :
    Fragment (commas (entries.map entryTokens)) := by
  rw [← map_entryTokens]
  exact Fragment.entries (List.forall_mem_map.2 fun e _ => e.2.fragment_render)

theorem cut_propsChunks (entries : List (Name × Expr)) :
    Cut ((renderProps (mapValues Expr.render entries)).flatMap marks) (propsChunks entries) := by
  have hempty : (mapValues Expr.render entries).isEmpty = entries.isEmpty := by
    rw [mapValues, List.isEmpty_map]
  rw [renderProps, propsChunks, hempty, renderMap, map_entryTokens]
  split_ifs
  · exact .nil
  · have hgroup := Cut.group (o := '\x7b') rfl ((fragment_entries entries).nested [])
    have hcut := (Cut.mark (m := .char ' ') (.inr rfl)).append hgroup
    simpa [marks, spelling] using hcut

theorem props?_propsChunks {entries : List (Name × Expr)} (hk : ∀ e ∈ entries, e.1.IsLegible) :
    props? (propsChunks entries) = some (mapValues Expr.filledText entries) := by
  unfold propsChunks
  split_ifs with hempty
  · obtain rfl := List.isEmpty_iff.1 hempty
    rfl
  · have hne : entries.map entryTokens ≠ [] := by simpa using hempty
    have hparts : ∀ ts ∈ entries.map entryTokens,
        Whole ts ∧ (pieces ts).head? ≠ some (.mark (.char ' ')) := by
      refine List.forall_mem_map.2 fun e he => ⟨(pieces_entry (hk e he)).1, ?_⟩
      rw [(pieces_entry (hk e he)).2]
      exact head?_ne_blank (startsName_of_name? (name?_append (hk e he) (.mark (by simp) _)))
    obtain ⟨cs, hcs, hlisted⟩ := listed_commas hne hparts
    rw [props?, hcs, Option.bind_eq_bind, Option.bind_some, hlisted, List.map_map]
    exact mapM_map_some fun e he => entry?_pieces (hk e he)

end PatternGrammar

/-! ## Nodes, relationships and paths -/

section Names

variable {ε : Type}

/-- The names of a node: its own, its label and its keys. -/
def Node.names (n : Node ε) : List Name :=
  n.name.toList ++ n.label.toList ++ n.props.map (·.1)

/-- The names of a relationship: its own, its type and its keys. -/
def Rel.names (r : Rel ε) : List Name :=
  r.name.toList ++ r.type.toList ++ r.props.map (·.1)

/-- The names of a path, from left to right. -/
def Path.names (p : Path ε) : List Name :=
  p.start.names ++ p.links.flatMap fun l => l.rel.names ++ l.node.names

theorem Path.names_map {δ : Type} (f : ε → δ) (p : Path ε) : (p.map f).names = p.names := by
  have hnode : ∀ n : Node ε, (n.map f).names = n.names := by
    simp [Node.names, Node.map, mapValues]
  have hrel : ∀ r : Rel ε, (r.map f).names = r.names := by
    simp [Rel.names, Rel.map, mapValues]
  simp [names, Path.map, Link.map, hnode, hrel, List.flatMap_map]

end Names

namespace PatternGrammar

theorem cut_renderName (n : Option Name) :
    Cut ((renderName n).flatMap marks) (plainChunks (renderName n)) := by
  cases n <;> exact cut_plainChunks rfl

theorem cut_renderLabel (n : Option Name) :
    Cut ((renderLabel n).flatMap marks) (plainChunks (renderLabel n)) := by
  cases n <;> exact cut_plainChunks rfl

theorem opens_renderLabel (n : Option Name) : Opens [':'] (plainChunks (renderLabel n)) := by
  cases n with
  | none => exact .nil _
  | some n => exact .mark (a := ':') (by simp) _

theorem cut_renderHops (h : Option Hops) :
    Cut ((renderHops h).flatMap marks) (plainChunks (renderHops h)) := by
  rcases h with _ | n | ⟨_ | lo, _ | hi⟩ <;> exact cut_plainChunks rfl

theorem opens_renderHops (h : Option Hops) : Opens ['*'] (plainChunks (renderHops h)) := by
  rcases h with _ | n | ⟨_ | lo, _ | hi⟩
  · exact .nil _
  all_goals exact .mark (a := '*') (by simp) _

/-- The tokens between the parentheses of a node. -/
def nodeInside (n : Node Expr) : List Token :=
  renderName n.name ++ renderLabel n.label ++ renderProps (mapValues Expr.render n.props)

/-- The tokens between the brackets of a relationship. -/
def relInside (r : Rel Expr) : List Token :=
  (r.map Expr.render).render

theorem node?_nodeInside {n : Node Expr} (h : ∀ k ∈ n.names, k.IsLegible) :
    node? ((nodeInside n).flatMap marks) = some (n.map Expr.filledText) := by
  obtain ⟨hname, hlabel, hprops⟩ : (∀ k ∈ n.name, k.IsLegible) ∧ (∀ k ∈ n.label, k.IsLegible) ∧
      ∀ e ∈ n.props, e.1.IsLegible := by
    simpa [Node.names, or_imp, forall_and] using h
  have hcut := ((cut_renderName n.name).append (cut_renderLabel n.label)).append
    (cut_propsChunks n.props)
  have hopens : Opens [':', '*', ' '] (plainChunks (renderLabel n.label) ++ propsChunks n.props) :=
    ((opens_renderLabel n.label).mono (by simp)).append ((opens_propsChunks n.props).mono (by simp))
  rw [node?, nodeInside, List.flatMap_append, List.flatMap_append, hcut.chunks_eq, List.append_assoc]
  simp only [Option.bind_eq_bind, Option.bind_some, binding?_append hname hopens,
    label?_append hlabel ((opens_propsChunks n.props).mono (by simp)), props?_propsChunks hprops]
  rfl

theorem rel?_relInside {r : Rel Expr} (h : ∀ k ∈ r.names, k.IsLegible) :
    rel? ((relInside r).flatMap marks) = some (r.map Expr.filledText) := by
  obtain ⟨hname, htype, hprops⟩ : (∀ k ∈ r.name, k.IsLegible) ∧ (∀ k ∈ r.type, k.IsLegible) ∧
      ∀ e ∈ r.props, e.1.IsLegible := by
    simpa [Rel.names, or_imp, forall_and] using h
  have hcut := (((cut_renderName r.name).append (cut_renderLabel r.type)).append
    (cut_renderHops r.hops)).append (cut_propsChunks r.props)
  have hopens : Opens ['*', ' '] (plainChunks (renderHops r.hops) ++ propsChunks r.props) :=
    ((opens_renderHops r.hops).mono (by simp)).append ((opens_propsChunks r.props).mono (by simp))
  have hopens' : Opens [':', '*', ' '] (plainChunks (renderLabel r.type)
      ++ (plainChunks (renderHops r.hops) ++ propsChunks r.props)) :=
    ((opens_renderLabel r.type).mono (by simp)).append (hopens.mono (by simp))
  rw [rel?, relInside, Rel.render, Rel.map, List.flatMap_append, List.flatMap_append,
    List.flatMap_append, hcut.chunks_eq, List.append_assoc, List.append_assoc]
  simp only [Option.bind_eq_bind, Option.bind_some, binding?_append hname hopens',
    label?_append htype hopens, hops_append r.hops (opens_propsChunks r.props),
    props?_propsChunks hprops]
  rfl

theorem fragment_nodeInside (n : Node Expr) : Fragment (nodeInside n) := by
  refine Fragment.nodeInside (n := n.map Expr.render) fun ts hts => ?_
  rw [Node.values_map] at hts
  obtain ⟨e, -, rfl⟩ := List.mem_map.1 hts
  exact e.fragment_render

theorem fragment_relInside (r : Rel Expr) : Fragment (relInside r) := by
  refine Fragment.rel fun ts hts => ?_
  rw [Rel.values_map] at hts
  obtain ⟨e, -, rfl⟩ := List.mem_map.1 hts
  exact e.fragment_render

/-- The chunks of a node. -/
def nodeChunk (n : Node Expr) : Chunk :=
  .group '(' ((nodeInside n).flatMap marks)

/-- The chunks of a link. -/
def linkChunks (l : Link Expr) : List Chunk :=
  let rel := Chunk.group '[' ((relInside l.rel).flatMap marks)
  match l.direction with
  | .forward => [.mark (.char '-'), rel, .mark (.char '-'), .mark (.char '>'), nodeChunk l.node]
  | .backward => [.mark (.char '<'), .mark (.char '-'), rel, .mark (.char '-'), nodeChunk l.node]
  | .undirected => [.mark (.char '-'), rel, .mark (.char '-'), nodeChunk l.node]

theorem cut_node (n : Node Expr) :
    Cut ((n.map Expr.render).render.flatMap marks) [nodeChunk n] := by
  have hgroup := Cut.group (o := '(') rfl ((fragment_nodeInside n).nested [])
  simpa [Node.render, Node.map, nodeInside, marks, spelling, nodeChunk] using hgroup

theorem cut_link (l : Link Expr) :
    Cut ((l.map Expr.render).render.flatMap marks) (linkChunks l) := by
  obtain ⟨d, r, n⟩ := l
  have hrel := Cut.group (o := '[') rfl ((fragment_relInside r).nested [])
  -- an arrow on either side of the brackets, whichever the direction asks for
  have harrows : ∀ a b : String, (sym a).isFlat = true → (sym b).isFlat = true →
      Cut (([sym a, sym "["] ++ relInside r ++ [sym "]", sym b] ++ (n.map Expr.render).render).flatMap
          marks)
        (plainChunks [sym a] ++ [.group '[' ((relInside r).flatMap marks)] ++ plainChunks [sym b]
          ++ [nodeChunk n]) := by
    intro a b ha hb
    have hleft : Cut ([sym a].flatMap marks) (plainChunks [sym a]) := cut_plainChunks (by simpa using ha)
    have hright : Cut ([sym b].flatMap marks) (plainChunks [sym b]) := cut_plainChunks (by simpa using hb)
    simpa [marks, spelling] using ((hleft.append hrel).append hright).append (cut_node n)
  cases d with
  | forward => exact harrows "-" "->" rfl rfl
  | backward => exact harrows "<-" "-" rfl rfl
  | undirected => exact harrows "-" "-" rfl rfl

theorem links?_linkChunks {l : Link Expr} (hr : ∀ k ∈ l.rel.names, k.IsLegible)
    (hn : ∀ k ∈ l.node.names, k.IsLegible) (cs : List Chunk) :
    links? (linkChunks l ++ cs) = (links? cs).map (l.map Expr.filledText :: ·) := by
  obtain ⟨d, r, n⟩ := l
  have hrel : rel? ((relInside r).flatMap marks) = some (r.map Expr.filledText) :=
    rel?_relInside hr
  have hnode : node? ((nodeInside n).flatMap marks) = some (n.map Expr.filledText) :=
    node?_nodeInside hn
  cases hcs : links? cs with
  | none => cases d <;> simp [linkChunks, nodeChunk, links?, hrel, hnode, hcs]
  | some ls => cases d <;> simp [linkChunks, nodeChunk, links?, hrel, hnode, hcs, Link.map]

/-- The chunks of a path. -/
def pathChunks (p : Path Expr) : List Chunk :=
  nodeChunk p.start :: p.links.flatMap linkChunks

theorem cut_path (p : Path Expr) :
    Cut ((p.map Expr.render).render.flatMap marks) (pathChunks p) := by
  obtain ⟨start, links⟩ := p
  have hlinks : Cut (((links.map (Link.map Expr.render)).flatMap Link.render).flatMap marks)
      (links.flatMap linkChunks) := by
    induction links with
    | nil => exact .nil
    | cons l links ih => simpa using (cut_link l).append ih
  simpa [Path.render, Path.map, pathChunks] using (cut_node start).append hlinks

theorem links?_flatMap {links : List (Link Expr)}
    (h : ∀ l ∈ links, ∀ k ∈ l.rel.names ++ l.node.names, k.IsLegible) :
    links? (links.flatMap linkChunks) = some (links.map (Link.map Expr.filledText)) := by
  induction links with
  | nil => rfl
  | cons l links ih =>
    obtain ⟨hl, hlinks⟩ := List.forall_mem_cons.1 h
    obtain ⟨hrel, hnode⟩ := List.forall_mem_append.1 hl
    rw [List.flatMap_cons, links?_linkChunks hrel hnode, ih hlinks]
    rfl

theorem path?_pathChunks {p : Path Expr} (h : ∀ k ∈ p.names, k.IsLegible) :
    path? (pathChunks p) = some (p.map Expr.filledText) := by
  obtain ⟨hstart, hlinks⟩ := List.forall_mem_append.1 h
  have hread := links?_flatMap (List.forall_mem_flatMap.1 hlinks)
  simp [pathChunks, nodeChunk, path?, node?_nodeInside hstart, hread, Path.map]

theorem whole_path (p : Path Expr) : Whole (p.map Expr.render).render := by
  refine ⟨pathChunks p, cut_path p, ?_⟩
  have hlink : ∀ l, ∀ c ∈ linkChunks l, c.isComma = false := by
    rintro ⟨d, r, n⟩
    cases d <;> simp [linkChunks, nodeChunk, Chunk.isComma]
  refine List.forall_mem_cons.2 ⟨rfl, List.forall_mem_flatMap.2 fun l _ => hlink l⟩

end PatternGrammar

theorem pathTokens_eq_commas (ps : List (Path Expr)) :
    pathTokens ps = commas (ps.map fun p => (p.map Expr.render).render) := by
  rw [pathTokens, Expr.renderPathList_eq_map, renderPaths, List.map_map]
  rfl

open PatternGrammar in
/-- Reading the text of paths gives back the paths, with the texts of their values. -/
theorem readPaths_spell {ps : List (Path Expr)} (hne : ps ≠ [])
    (h : ∀ p ∈ ps, ∀ k ∈ p.names, k.IsLegible) :
    readPaths (spell (pathTokens ps)) = some (ps.map (Path.map Expr.filledText)) := by
  have hscan := scan_spell (fragment_pathTokens ps)
  have hparts : ∀ ts ∈ ps.map fun p => (p.map Expr.render).render,
      Whole ts ∧ (pieces ts).head? ≠ some (.mark (.char ' ')) := by
    refine List.forall_mem_map.2 fun p _ => ⟨whole_path p, ?_⟩
    rw [pieces_eq (cut_path p)]
    simp [pathChunks, nodeChunk]
  obtain ⟨cs, hcs, hlisted⟩ := listed_commas (by simpa using hne) hparts
  rw [← pathTokens_eq_commas] at hcs
  rw [readPaths, hscan, Option.bind_eq_bind, Option.bind_some, hcs, Option.bind_eq_bind,
    Option.bind_some, hlisted, List.map_map]
  refine mapM_map_some fun p hp => ?_
  rw [Function.comp_apply, pieces_eq (cut_path p), path?_pathChunks (h p hp)]

end CypherCompose
