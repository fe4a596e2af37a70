import CypherCompose.Piece
import CypherCompose.Proofs.Trace
import CypherCompose.Proofs.Writing
import CypherCompose.Value.Form

/-!
# Chains folded from steps

A chain is written as nodes and relationships in turn, with a step between any two neighbours.  The
order in which the steps are taken does not matter: each puts the parts of its two sides in a row, so
that every bracketing comes to the chain of all operands and all steps (`Bracketing.value_eq_flat`).

A chain is then read two elements and two steps at a time.  `readLinks_leg` says what one relationship
and its node come to: a link, if the steps around the relationship agree.  By induction the first pair
of steps that does not agree decides the error, and without one the text of the chain is made of the
texts of its elements.
-/

namespace CypherCompose

/-! ## Steps and their brackets -/

/-- The two operators that join the parts of a chain. -/
inductive Way where
  | forth
  | back
  deriving DecidableEq, Repr

namespace Way

/-- The direction of a step. -/
def direction : Way → Direction
  | forth => .forward
  | back => .backward

/-- A step as a chain keeps it. -/
def toValue (w : Way) : Value :=
  .atom (.direction w.direction)

end Way

/-- Operands joined by steps, one pair after the other. -/
inductive Bracketing where
  | operand (v : Value)
  | join (w : Way) (left right : Bracketing)

namespace Bracketing

/-- The operands from left to right. -/
def operands : Bracketing → List Value
  | operand v => [v]
  | join _ l r => l.operands ++ r.operands

/-- The steps from left to right. -/
def ways : Bracketing → List Way
  | operand _ => []
  | join w l r => l.ways ++ w :: r.ways

/-- What the steps come to, those inside brackets first. -/
def value : Bracketing → Except Misuse Value
  | operand v => .ok v
  | join w l r => do
      let a ← l.value
      let b ← r.value
      Value.stepTo w.direction a b

/-- An operand that is a text and no form. -/
def isText : Bracketing → Bool
  | operand v => v.isText
  | join .. => false

/-- Texts have no steps of their own, so each step needs another operand or a chain beside it. -/
def IsStepped : Bracketing → Prop
  | operand _ => True
  | join _ l r => l.IsStepped ∧ r.IsStepped ∧ ¬ (l.isText = true ∧ r.isText = true)

/-- Nodes and relationships, given as forms or as texts. -/
def IsElement (v : Value) : Prop :=
  v.isText = true ∨ (∃ name label props, v = .nodeRef name label props) ∨
    ∃ name type hops props, v = .relRef name type hops props

theorem IsElement.chainParts {v : Value} (h : IsElement v) : v.chainParts = .ok ([v], []) := by
  obtain htext | ⟨name, label, props, rfl⟩ | ⟨name, type, hops, props, rfl⟩ := h
  · cases v with
    | atom a => rfl
    | _ => cases htext
  · rfl
  · rfl

theorem IsElement.isSteppable {v : Value} (h : IsElement v) : v.isSteppable = !v.isText := by
  obtain htext | ⟨name, label, props, rfl⟩ | ⟨name, type, hops, props, rfl⟩ := h
  · cases v with
    | atom a =>
      rw [htext]
      rfl
    | _ => cases htext
  · rfl
  · rfl

theorem stepTo_of_chainParts {a b : Value} {es fs ss ts : List Value} (w : Way)
    (ha : a.chainParts = .ok (es, ss)) (hb : b.chainParts = .ok (fs, ts))
    (hstep : a.isSteppable = true ∨ b.isSteppable = true) :
    Value.stepTo w.direction a b =
      .ok (.chain (.list (es ++ fs)) (.list (ss ++ w.toValue :: ts))) := by
  rw [Value.stepTo, if_pos (by simpa using hstep), Value.link, ha, hb]
  rfl

/-- The chain of all operands and steps; an operand alone is itself. -/
def flat : Bracketing → Value
  | operand v => v
  | join w l r =>
      .chain (.list (join w l r).operands) (.list ((join w l r).ways.map Way.toValue))

theorem chainParts_flat {t : Bracketing} (helements : ∀ v ∈ t.operands, IsElement v) :
    t.flat.chainParts = .ok (t.operands, t.ways.map Way.toValue) := by
  cases t with
  | operand v => exact (helements v (List.mem_singleton_self v)).chainParts
  | join w l r => rfl

theorem isSteppable_flat {t : Bracketing} (helements : ∀ v ∈ t.operands, IsElement v) :
    t.flat.isSteppable = !t.isText := by
  cases t with
  | operand v => exact (helements v (List.mem_singleton_self v)).isSteppable
  | join w l r => rfl

theorem value_eq_flat {t : Bracketing} (helements : ∀ v ∈ t.operands, IsElement v)
    (hstepped : t.IsStepped) : t.value = .ok t.flat := by
  induction t with
  | operand v => rfl
  | join w l r ihl ihr =>
    obtain ⟨hl, hr, htexts⟩ := hstepped
    obtain ⟨hleft, hright⟩ := List.forall_mem_append.1 helements
    have hstep : l.flat.isSteppable = true ∨ r.flat.isSteppable = true := by
      rw [isSteppable_flat hleft, isSteppable_flat hright]
      grind
    have hjoin := stepTo_of_chainParts w (chainParts_flat hleft) (chainParts_flat hright) hstep
    calc (join w l r).value
      _ = Value.stepTo w.direction l.flat r.flat := by
          rw [value, ihl hleft hl, ihr hright hr]
          rfl
      _ = .ok (join w l r).flat := by
          rw [hjoin, flat, operands, ways, List.map_append, List.map_cons]

/-- Forms have steps, so their brackets may stand anywhere. -/
theorem isStepped_of_forms {t : Bracketing} (h : ∀ v ∈ t.operands, v.isText = false) :
    t.IsStepped := by
  induction t with
  | operand v => trivial
  | join w l r ihl ihr =>
    obtain ⟨hleft, hright⟩ := List.forall_mem_append.1 h
    refine ⟨ihl hleft, ihr hright, ?_⟩
    rintro ⟨htext, -⟩
    cases l with
    | operand v => exact absurd htext (by simp [isText, hleft v (List.mem_singleton_self v)])
    | join _ _ _ => cases htext

end Bracketing

/-! ## Nodes and relationships in turn -/

/-- A value that is read as a piece by itself and asks for no parameter. -/
structure Piece.Closed (p : Piece) where
  value : Value
  tokens : List Token
  reads : p.draft value = ⟨[], .ok tokens⟩

namespace Piece.Closed

/-- The text of the piece. -/
def text {p : Piece} (c : p.Closed) : String :=
  Token.spell c.tokens

/-- The node of a name. -/
def named (s : String) (hs : s ≠ "") : Piece.node.Closed where
  value := .text s
  tokens := [.sym "(", .name ⟨.plain s, hs⟩, .sym ")"]
  reads := by
    change Node.tokens <$> namedNode (.text s) = _
    rw [namedNode, readNode, readName_text _ _ hs]
    rfl

/-- The relationship of a type. -/
def typed (s : String) (hs : s ≠ "") : Piece.rel.Closed where
  value := .relRef .null (.text s) .null .null
  tokens := [.sym ":", .name ⟨.plain s, hs⟩]
  reads := by
    change Rel.tokens <$> readRel .null (.text s) .null (readProps .null) _ = _
    rw [readRel, readName_text _ _ hs]
    rfl

theorem exists_node (c : Piece.node.Closed) :
    ∃ n, nodeOf c.value = ⟨[], .ok n⟩ ∧ n.tokens = c.tokens :=
  Draft.map_eq_ok.1 c.reads

theorem exists_rel (c : Piece.rel.Closed) :
    ∃ r, relOf c.value = ⟨[], .ok r⟩ ∧ r.tokens = c.tokens :=
  Draft.map_eq_ok.1 c.reads

end Piece.Closed

theorem readStation_of_nodeOf {v : Value} {rs : List Request} {n : Node Expr}
    (h : nodeOf v = ⟨rs, .ok n⟩) :
    Bracketing.IsElement v ∧ (readStation v).node? = some ⟨rs, .ok n⟩ := by
  unfold nodeOf at h
  split at h
  · rename_i name label props
    exact ⟨.inr (.inl ⟨name, label, props, rfl⟩), congrArg some h⟩
  · split_ifs at h with htext
    · cases v with
      | atom a =>
        refine ⟨.inl htext, ?_⟩
        rw [Value.readStation_atom, Station.plain, if_pos htext, h]
      | _ => cases htext
    · cases h

theorem readStation_of_relOf {v : Value} {rs : List Request} {r : Rel Expr}
    (h : relOf v = ⟨rs, .ok r⟩) :
    Bracketing.IsElement v ∧ readStation v = ⟨v, (readStation v).node?, some ⟨rs, .ok r⟩⟩ := by
  unfold relOf at h
  split at h
  · rename_i name type hops props
    exact ⟨.inr (.inr ⟨name, type, hops, props, rfl⟩), by rw [readStation, h]⟩
  · split_ifs at h with htext
    · cases v with
      | atom a =>
        refine ⟨.inl htext, ?_⟩
        rw [Value.readStation_atom, Station.plain, if_pos htext, h]
      | _ => cases htext
    · cases h

/-- A relationship between two steps, and the node behind it. -/
structure Leg where
  before : Way
  rel : Piece.rel.Closed
  after : Way
  node : Piece.node.Closed

namespace Leg

/-- The two steps around the relationship point the same way. -/
def Agrees (l : Leg) : Prop :=
  l.before = l.after

instance (l : Leg) : Decidable l.Agrees :=
  inferInstanceAs (Decidable (l.before = l.after))

def operands (l : Leg) : List Value :=
  [l.rel.value, l.node.value]

def ways (l : Leg) : List Way :=
  [l.before, l.after]

/-- The arrow of the relationship, pointing as the step behind it does, and the node. -/
def text (l : Leg) : String :=
  match l.after with
  | .forth => "-[" ++ l.rel.text ++ "]->" ++ l.node.text
  | .back => "<-[" ++ l.rel.text ++ "]-" ++ l.node.text

/-- The complaint about two steps that disagree around the relationship at a position. -/
def disagreement (l : Leg) (position : Nat) : Error :=
  .pattern (.directions position l.before.toValue l.after.toValue l.rel.value)

/-- The complaint can be written, as directions can. -/
theorem raised_disagreement (l : Leg) (position : Nat) :
    (l.disagreement position).raised = l.disagreement position :=
  Error.raised_of_isWritable rfl

/-- The complaint names the position first. -/
theorem exists_reason_disagreement (l : Leg) (position : Nat) :
    ∃ reason, (l.disagreement position).message? =
      some ("Inconsistent direction around relationship at chain position " ++ toString position ++
        ": " ++ reason) := by
  refine ⟨l.before.direction.text ++ " vs " ++ l.after.direction.text ++
    ". Use `>> rel >>` for forward or `<< rel <<` for backward.", ?_⟩
  simp [disagreement, Error.message?, Error.wording?, PatternError.wording, Way.toValue,
    PatternError.directionName, Message.text?, Phrase.text?, String.append_assoc, ToString.toString]

end Leg

/-- A node and the legs that lead on from it. -/
structure Walk where
  start : Piece.node.Closed
  legs : List Leg

namespace Walk

def operands (w : Walk) : List Value :=
  w.start.value :: w.legs.flatMap Leg.operands

def ways (w : Walk) : List Way :=
  w.legs.flatMap Leg.ways

/-- The chain of all operands and all steps. -/
def chain (w : Walk) : Value :=
  .chain (.list w.operands) (.list (w.ways.map Way.toValue))

def text (w : Walk) : String :=
  w.start.text ++ String.join (w.legs.map Leg.text)

end Walk

/-! ## Reading a chain -/

theorem Way.equal?_toValue (w w' : Way) : w.toValue.equal? w'.toValue = some (decide (w = w')) := by
  cases w <;> cases w' <;>
    simp [toValue, direction, Value.equal?, Value.outline, Outline.equal?, Atom.equal?, Atom.number?,
      Atom.text?, Direction.text]

theorem Way.ofText?_toValue (w : Way) :
    w.toValue.text?.bind Direction.ofText? = some w.direction := by
  cases w <;> rfl

theorem pathsOf_list_chain (elements steps : List Value) :
    pathsOf (.chain (.list elements) (.list steps)) =
      (fun p => [p]) <$> readChain (.chain (.list elements) (.list steps)) (elements.map readStation)
        steps := by
  rw [← Value.readStations_eq_map, map_eq_pure_bind]
  rfl

/-- A relationship and the node behind it are read as a link, unless the steps around the relationship
disagree. -/
theorem readLinks_pair {v u : Value} {rs qs : List Request} {rel : Rel Expr} {node : Node Expr}
    (hrel : relOf v = ⟨rs, .ok rel⟩) (hnode : nodeOf u = ⟨qs, .ok node⟩) (chain : Value) (i : Nat)
    (before after : Way) (stations : List Station) (steps : List Value) :
    readLinks chain i (readStation v :: readStation u :: stations)
        (before.toValue :: after.toValue :: steps) =
      if before = after then do
        let rel ← relOf v
        let node ← nodeOf u
        let links ← readLinks chain (i + 2) stations steps
        pure (⟨after.direction, rel, node⟩ :: links)
      else .fail (.pattern (.directions i before.toValue after.toValue v)) := by
  have hlink : (readStation v).link chain i before.toValue after.toValue =
      if before = after then (fun rel => (after.direction, rel)) <$> relOf v
      else .fail (.pattern (.directions i before.toValue after.toValue v)) := by
    rw [(readStation_of_relOf hrel).2, Station.link, Way.equal?_toValue, ← hrel]
    split_ifs with hagree
    · subst hagree
      simp only [decide_true, Way.ofText?_toValue, map_eq_pure_bind]
      rfl
    · simp only [decide_eq_false hagree]
  have hread : (readStation u).node chain (i + 1) = nodeOf u := by
    rw [Station.node, (readStation_of_nodeOf hnode).2, hnode]
    rfl
  rw [readLinks, hlink, hread]
  split_ifs with hagree
  · simp only [map_eq_pure_bind, bind_assoc, pure_bind]
  · rfl

/-- What a leg adds to the links of a chain. -/
theorem readLinks_leg (chain : Value) (i : Nat) (l : Leg) :
    ∃ rel node, rel.tokens = l.rel.tokens ∧ node.tokens = l.node.tokens ∧
      ∀ stations steps,
        readLinks chain i (l.operands.map readStation ++ stations) (l.ways.map Way.toValue ++ steps) =
          if l.Agrees then
            (⟨l.after.direction, rel, node⟩ :: ·) <$> readLinks chain (i + 2) stations steps
          else .fail (l.disagreement i) := by
  obtain ⟨rel, hrel, hreltokens⟩ := l.rel.exists_rel
  obtain ⟨node, hnode, hnodetokens⟩ := l.node.exists_node
  refine ⟨rel, node, hreltokens, hnodetokens, fun stations steps => ?_⟩
  refine (readLinks_pair hrel hnode chain i l.before l.after stations steps).trans ?_
  rw [hrel, hnode, map_eq_pure_bind]
  rfl

/-- A link is written as the leg it was read from. -/
theorem Link.spell_render {l : Leg} {rel : Rel Expr} {node : Node Expr}
    (hrel : rel.tokens = l.rel.tokens) (hnode : node.tokens = l.node.tokens) :
    Token.spell (Expr.renderLink ⟨l.after.direction, rel, node⟩).render = l.text := by
  have hrel' : (Expr.renderRel rel).render = l.rel.tokens := hrel
  have hnode' : (Expr.renderNode node).render = l.node.tokens := hnode
  rw [Expr.renderLink, Link.render, hrel', hnode', Token.spell_append, Token.spell_append,
    Token.spell_append, Leg.text]
  cases l.after with
  | forth =>
    rw [show Token.spell Way.forth.direction.opening = "-[" by decide,
      show Token.spell Way.forth.direction.closing = "]->" by decide]
    rfl
  | back =>
    rw [show Token.spell Way.back.direction.opening = "<-[" by decide,
      show Token.spell Way.back.direction.closing = "]-" by decide]
    rfl

/-- Legs that agree make links, with the texts of the legs. -/
theorem readLinks_of_agree (chain : Value) {legs : List Leg} (h : ∀ l ∈ legs, l.Agrees) (i : Nat) :
    ∃ links, readLinks chain i ((legs.flatMap Leg.operands).map readStation)
        ((legs.flatMap Leg.ways).map Way.toValue) = ⟨[], .ok links⟩ ∧
      Token.spell ((Expr.renderLinks links).flatMap Link.render) = String.join (legs.map Leg.text) := by
  induction legs generalizing i with
  | nil => exact ⟨[], rfl, rfl⟩
  | cons l legs ih =>
    obtain ⟨hl, hlegs⟩ := List.forall_mem_cons.1 h
    obtain ⟨rel, node, hrel, hnode, hread⟩ := readLinks_leg chain i l
    obtain ⟨links, hlinks, htext⟩ := ih hlegs (i + 2)
    refine ⟨⟨l.after.direction, rel, node⟩ :: links, ?_, ?_⟩
    · rw [List.flatMap_cons, List.flatMap_cons, List.map_append, List.map_append, hread, if_pos hl,
        hlinks]
      rfl
    · rw [Expr.renderLinks, List.flatMap_cons, Token.spell_append, htext, List.map_cons,
        String.join_cons, Link.spell_render hrel hnode]

/-- The first leg that does not agree ends the reading. -/
theorem readLinks_of_disagree (chain : Value) {legs : List Leg} (h : ∀ l ∈ legs, l.Agrees) {l : Leg}
    (hl : ¬ l.Agrees) (rest : List Leg) (i : Nat) :
    readLinks chain i (((legs ++ l :: rest).flatMap Leg.operands).map readStation)
        (((legs ++ l :: rest).flatMap Leg.ways).map Way.toValue) =
      .fail (l.disagreement (i + 2 * legs.length)) := by
  induction legs generalizing i with
  | nil =>
    obtain ⟨rel, node, -, -, hread⟩ := readLinks_leg chain i l
    rw [List.nil_append, List.flatMap_cons, List.flatMap_cons, List.map_append, List.map_append, hread,
      if_neg hl]
    rfl
  | cons k legs ih =>
    obtain ⟨hk, hlegs⟩ := List.forall_mem_cons.1 h
    obtain ⟨rel, node, -, -, hread⟩ := readLinks_leg chain i k
    rw [List.cons_append, List.flatMap_cons, List.flatMap_cons, List.map_append, List.map_append, hread,
      if_pos hk, ih hlegs (i + 2), List.length_cons]
    rw [show i + 2 + 2 * legs.length = i + 2 * (legs.length + 1) by omega]
    rfl

namespace Walk

theorem isElement_operands (w : Walk) : ∀ v ∈ w.operands, Bracketing.IsElement v := by
  obtain ⟨n, hn, -⟩ := w.start.exists_node
  refine List.forall_mem_cons.2 ⟨(readStation_of_nodeOf hn).1, fun v hv => ?_⟩
  obtain ⟨l, -, hv⟩ := List.mem_flatMap.1 hv
  obtain ⟨r, hr, -⟩ := l.rel.exists_rel
  obtain ⟨m, hm, -⟩ := l.node.exists_node
  obtain rfl | rfl : v = l.rel.value ∨ v = l.node.value := by
    simpa [Leg.operands] using hv
  · exact (readStation_of_relOf hr).1
  · exact (readStation_of_nodeOf hm).1

theorem length_operands (legs : List Leg) :
    (legs.flatMap Leg.operands).length = 2 * legs.length := by
  simp [List.length_flatMap, Leg.operands, Nat.mul_comm]

theorem length_ways (legs : List Leg) : (legs.flatMap Leg.ways).length = 2 * legs.length := by
  simp [List.length_flatMap, Leg.ways, Nat.mul_comm]

/-- A chain of nodes and relationships in turn is read as its first node and its links. -/
theorem pathsOf_chain (w : Walk) :
    ∃ start, start.tokens = w.start.tokens ∧
      pathsOf w.chain =
        (fun links => [⟨start, links⟩]) <$>
          readLinks w.chain 1 ((w.legs.flatMap Leg.operands).map readStation)
            (w.ways.map Way.toValue) := by
  obtain ⟨start, hstart, htokens⟩ := w.start.exists_node
  refine ⟨start, htokens, ?_⟩
  have hnode : (readStation w.start.value).node w.chain 0 = .done start := by
    rw [Station.node, (readStation_of_nodeOf hstart).2]
    rfl
  have hsteps : (w.ways.map Way.toValue).length = 2 * w.legs.length := by
    rw [List.length_map, ways, length_ways]
  have hrest : ((w.legs.flatMap Leg.operands).map readStation).length = 2 * w.legs.length := by
    rw [List.length_map, length_operands]
  rw [chain, pathsOf_list_chain, ← chain, operands, List.map_cons, readChain,
    if_neg (by simp [hsteps, hrest]), if_neg (by simp [hrest]), hnode, map_eq_pure_bind,
    map_eq_pure_bind]
  simp only [bind_assoc, pure_bind]
  rfl

/-- The text of a walk whose legs agree. -/
theorem draft_of_agree {w : Walk} (h : ∀ l ∈ w.legs, l.Agrees) :
    ∃ ts, Piece.draft .pattern w.chain = ⟨[], .ok ts⟩ ∧ Token.spell ts = w.text := by
  obtain ⟨start, hstart, hpaths⟩ := w.pathsOf_chain
  obtain ⟨links, hlinks, htext⟩ := readLinks_of_agree w.chain h 1
  refine ⟨pathTokens [⟨start, links⟩], ?_, ?_⟩
  · rw [Piece.draft, hpaths, ways, hlinks]
    rfl
  · have htokens : pathTokens [⟨start, links⟩] =
        start.tokens ++ (Expr.renderLinks links).flatMap Link.render := by
      simp [pathTokens, Expr.renderPathList, Expr.renderPath, renderPaths, Token.commas, Path.render,
        Node.tokens]
    rw [htokens, Token.spell_append, hstart, htext]
    rfl

/-- The first leg that does not agree is complained about at the place of its relationship. -/
theorem draft_of_disagree {w : Walk} {legs rest : List Leg} {l : Leg}
    (hw : w.legs = legs ++ l :: rest) (h : ∀ k ∈ legs, k.Agrees) (hl : ¬ l.Agrees) :
    Piece.draft .pattern w.chain = .fail (l.disagreement (2 * legs.length + 1)) := by
  obtain ⟨start, -, hpaths⟩ := w.pathsOf_chain
  rw [Piece.draft, hpaths, ways, hw, readLinks_of_disagree w.chain h hl rest 1, Nat.add_comm 1]
  rfl

/-- All legs agree, or there is a first one that does not. -/
theorem agree_or_exists_first (legs : List Leg) :
    (∀ l ∈ legs, l.Agrees) ∨
      ∃ (before : List Leg) (l : Leg) (rest : List Leg),
        legs = before ++ l :: rest ∧ (∀ k ∈ before, k.Agrees) ∧ ¬ l.Agrees := by
  cases hfind : legs.find? fun l => !decide l.Agrees with
  | none => exact .inl (by simpa using hfind)
  | some l =>
    obtain ⟨hl, before, rest, hlegs, hbefore⟩ := List.find?_eq_some_iff_append.1 hfind
    exact .inr ⟨before, l, rest, hlegs, by simpa using hbefore, by simpa using hl⟩

theorem flat_eq_chain {w : Walk} (hlegs : w.legs ≠ []) {t : Bracketing}
    (hoperands : t.operands = w.operands) (hways : t.ways = w.ways) : t.flat = w.chain := by
  cases t with
  | operand v =>
    cases hw : w.legs with
    | nil => exact absurd hw hlegs
    | cons l legs => simp [Bracketing.ways, ways, hw, Leg.ways] at hways
  | join s l r => rw [Bracketing.flat, hoperands, hways, chain]

/-- Brackets around nodes and relationships do not matter: they come to one chain, which has a text if
the two steps around each relationship agree, and else a complaint about the first that do not.  For
forms the brackets may be any; of two texts next to each other neither has steps, so where operands are
given as texts no step may stand between two that are bare. -/
theorem fold_eq_chain (w : Walk) (hlegs : w.legs ≠ []) (r : Registry) :
    (∀ t : Bracketing, t.operands = w.operands → t.ways = w.ways → t.IsStepped →
      t.value = .ok w.chain) ∧
    ((∀ v ∈ w.operands, v.isText = false) → ∀ t : Bracketing, t.operands = w.operands →
      t.ways = w.ways → t.value = .ok w.chain) ∧
    ((∃ ts, (r.run (Piece.draft .pattern w.chain)).1 = .ok ts) ↔ ∀ l ∈ w.legs, l.before = l.after) ∧
    (∀ ts, (r.run (Piece.draft .pattern w.chain)).1 = .ok ts → Token.spell ts = w.text) ∧
    ∀ before l rest, w.legs = before ++ l :: rest → (∀ k ∈ before, k.before = k.after) →
      l.before ≠ l.after →
      (r.run (Piece.draft .pattern w.chain)).1 =
        .error (.pattern (.directions (2 * (before.length + 1) - 1) l.before.toValue l.after.toValue
          l.rel.value)) ∧
      ∃ reason, (l.disagreement (2 * (before.length + 1) - 1)).message? =
        some ("Inconsistent direction around relationship at chain position " ++
          toString (2 * (before.length + 1) - 1) ++ ": " ++ reason) := by
  have hdisagree {before rest : List Leg} {l : Leg} (hw : w.legs = before ++ l :: rest)
      (h : ∀ k ∈ before, k.Agrees) (hl : ¬ l.Agrees) :
      (r.run (Piece.draft .pattern w.chain)).1 = .error (l.disagreement (2 * before.length + 1)) := by
    rw [draft_of_disagree hw h hl, ← l.raised_disagreement]
    rfl
  have hagree (h : ∀ l ∈ w.legs, l.Agrees) :
      ∃ ts, (r.run (Piece.draft .pattern w.chain)).1 = .ok ts ∧ Token.spell ts = w.text := by
    obtain ⟨ts, hdraft, htext⟩ := draft_of_agree h
    exact ⟨ts, by rw [hdraft]; rfl, htext⟩
  have hiff : (∃ ts, (r.run (Piece.draft .pattern w.chain)).1 = .ok ts) ↔ ∀ l ∈ w.legs, l.Agrees := by
    refine ⟨fun ⟨ts, hts⟩ => ?_, fun h => (hagree h).imp fun _ => And.left⟩
    obtain h | ⟨before, l, rest, hw, hbefore, hl⟩ := agree_or_exists_first w.legs
    · exact h
    · rw [hdisagree hw hbefore hl] at hts
      cases hts
  have hfold (t : Bracketing) (hoperands : t.operands = w.operands) (hways : t.ways = w.ways)
      (hstepped : t.IsStepped) : t.value = .ok w.chain := by
    have helements : ∀ v ∈ t.operands, Bracketing.IsElement v := hoperands ▸ w.isElement_operands
    rw [Bracketing.value_eq_flat helements hstepped, flat_eq_chain hlegs hoperands hways]
  refine ⟨hfold, fun hforms t hoperands hways => ?_, hiff, fun ts hts => ?_,
    fun before l rest hw h hl => ?_⟩
  · exact hfold t hoperands hways (Bracketing.isStepped_of_forms (hoperands ▸ hforms))
  · obtain ⟨us, hus, htext⟩ := hagree (hiff.1 ⟨ts, hts⟩)
    obtain rfl : ts = us := Except.ok.inj (hts.symm.trans hus)
    exact htext
  · refine ⟨?_, l.exists_reason_disagreement _⟩
    rw [show 2 * (before.length + 1) - 1 = 2 * before.length + 1 by omega]
    exact hdisagree hw h hl

/-- From `a` along `R` to `b`, and against `S` to `c`; the step before `S` may point either way. -/
def zigzag (before : Way) : Walk where
  start := .named "a" (by decide)
  legs := [⟨.forth, .typed "R" (by decide), .forth, .named "b" (by decide)⟩,
    ⟨before, .typed "S" (by decide), .back, .named "c" (by decide)⟩]

/-- The same walk, with brackets around each relationship and the node behind it. -/
def zigzagBrackets : Bracketing :=
  let rel (type : String) : Bracketing := .operand (.relRef .null (.text type) .null .null)
  .join .forth (.operand (.text "a"))
    (.join .back (.join .forth (rel "R") (.operand (.text "b")))
      (.join .back (rel "S") (.operand (.text "c"))))

theorem fold_eq_chain_zigzag :
    (zigzag .back).legs ≠ [] ∧ zigzagBrackets.value = .ok (zigzag .back).chain ∧
    (∃ ts, (Registry.empty.run (Piece.draft .pattern (zigzag .back).chain)).1 = .ok ts ∧
      Token.spell ts = "(a)-[:R]->(b)<-[:S]-(c)") ∧
    (Registry.empty.run (Piece.draft .pattern (zigzag .forth).chain)).1 =
      .error (.pattern (.directions 3 Way.forth.toValue Way.back.toValue
        (.relRef .null (.text "S") .null .null))) := by
  obtain ⟨hbrackets, -, hiff, htext, -⟩ := fold_eq_chain (zigzag .back) (by simp [zigzag]) .empty
  obtain ⟨-, -, -, -, herror⟩ := fold_eq_chain (zigzag .forth) (by simp [zigzag]) .empty
  obtain ⟨ts, hts⟩ := hiff.2 (by simp [zigzag])
  refine ⟨by simp [zigzag], hbrackets _ rfl rfl ?_, ⟨ts, hts, (htext ts hts).trans ?_⟩, ?_⟩
  · simp [zigzagBrackets, Bracketing.IsStepped, Bracketing.isText, Value.isText, Value.text?]
  · decide
  · exact (herror [_] _ [] rfl (by simp) (by simp)).1

end Walk

end CypherCompose
