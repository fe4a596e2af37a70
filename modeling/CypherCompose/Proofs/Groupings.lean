import CypherCompose.Proofs.Normal
import CypherCompose.Proofs.SetLayout
import CypherCompose.Session

/-!
# Groupings that are not written

Operands joined by AND, by OR or by XOR may be grouped in any way: the text shows the operands in
their order and nothing of the grouping (`Grouping.render_ofValue_toValue`).  For OR that is so
because a nest of ORs is written as one (`Grouping.disjuncts_toExpr`).  For AND and XOR it is a
matter of levels: the nodes inside a grouping stand on the level of the operator, and no operand
does (`Expr.carries_of_prec`), so a left operand is put between parentheses exactly if its level is
looser, and so is a right one, since on the same level nodes of the same operator go without
(`Grouping.rendering_node`).
-/

namespace CypherCompose

open Token

/-- The operators between conditions. -/
def BinaryOp.isLogical : BinaryOp → Bool
  | and | or | xor => true
  | _ => false

/-- The spellings of an operator. -/
abbrev BinaryOp.Spelling (op : BinaryOp) :=
  {s : String // BinaryOp.ofSpelling? s = some op}

/-- Operands joined by an operator, each time in one of its spellings. -/
inductive Grouping (op : BinaryOp) (α : Type) where
  | operand (a : α)
  | node (s : op.Spelling) (l r : Grouping op α)

/-- Whether a value applies the operator at its top, be it given as a literal. -/
def Value.carries (op : BinaryOp) : Value → Bool
  | .binary o _ _ => o.text?.bind BinaryOp.ofSpelling? == some op
  | .literal v => v.carries op
  | _ => false

/-- Whether an expression applies the operator at its top, be it given as a literal. -/
def Expr.carries (op : BinaryOp) : Expr → Bool
  | .binary o _ _ => o == op
  | .enclosed e => e.carries op
  | _ => false

namespace Grouping

variable {op : BinaryOp} {α β : Type}

/-- The operands from left to right. -/
def operands : Grouping op α → List α
  | operand a => [a]
  | node _ l r => l.operands ++ r.operands

/-- The tree of a grouping. -/
def toValue : Grouping op Value → Value
  | operand v => v
  | node s l r => .binary (.text s) l.toValue r.toValue

/-- The expression of a grouping. -/
def toExpr : Grouping op Expr → Expr
  | operand e => e
  | node _ l r => .binary op l.toExpr r.toExpr

/-- Reads the operands from left to right. -/
def readWith (read : α → Draft β) : Grouping op α → Draft (Grouping op β)
  | operand a => do
      let b ← read a
      pure (operand b)
  | node s l r => do
      let l' ← l.readWith read
      let r' ← r.readWith read
      pure (node s l' r')

/-- Operands grouped to the left. -/
def leftward (s : op.Spelling) (a : α) (as : List α) : Grouping op α :=
  as.foldl (fun g b => node s g (operand b)) (operand a)

theorem operands_ne_nil (g : Grouping op α) : g.operands ≠ [] := by
  induction g with
  | operand a => simp [operands]
  | node s l r ihl ihr => simp [operands, ihl]

theorem exists_node (g : Grouping op α) (h : 2 ≤ g.operands.length) :
    ∃ s l r, g = node s l r := by
  cases g with
  | operand a => simp [operands] at h
  | node s l r => exact ⟨s, l, r, rfl⟩

theorem operands_foldl (s : op.Spelling) (g : Grouping op α) (as : List α) :
    (as.foldl (fun g b => node s g (operand b)) g).operands = g.operands ++ as := by
  induction as generalizing g with
  | nil => simp
  | cons a as ih => simp [ih, operands]

theorem operands_leftward (s : op.Spelling) (a : α) (as : List α) :
    (leftward s a as).operands = a :: as :=
  operands_foldl s (operand a) as

theorem toExpr_leftward (s : op.Spelling) (e : Expr) (es : List Expr) :
    (leftward s e es).toExpr = Expr.join op e es := by
  have hfold : ∀ g : Grouping op Expr,
      (es.foldl (fun g b => node s g (operand b)) g).toExpr = es.foldl (.binary op) g.toExpr := by
    induction es with
    | nil => intro g; rfl
    | cons e es ih => intro g; exact ih (node s g (operand e))
  exact hfold (operand e)

end Grouping

/-! ## Readings of groupings -/

theorem Draft.bind_congr_ok {α β : Type} {d : Draft α} {f g : α → Draft β}
    (h : ∀ rs a, d = ⟨rs, .ok a⟩ → f a = g a) : d >>= f = d >>= g := by
  rcases d with ⟨rs, e | a⟩
  · rfl
  · rw [bind_eq, bind_eq, andThen_ok, andThen_ok, h rs a rfl]

theorem readEachWith_singleton {α : Type} (read : Value → Draft α) (v : Value) :
    readEachWith read [v] = (fun a => [a]) <$> read v := by
  rw [map_eq_pure_bind]
  rfl

namespace Grouping

variable {op : BinaryOp}

theorem operands_readWith {α : Type} (read : Value → Draft α) (g : Grouping op Value) :
    operands <$> g.readWith read = readEachWith read g.operands := by
  induction g with
  | operand v =>
    rw [operands, readEachWith_singleton, readWith, map_bind, map_eq_pure_bind]
    rfl
  | node s l r ihl ihr =>
    rw [operands, readEachWith_append, ← ihl, ← ihr, readWith]
    simp only [map_bind, map_pure, bind_map_left, operands]

theorem readBinaryOp_spelling (s : op.Spelling) (e : Value) :
    readBinaryOp (.text s) e = .done op := by
  change Draft.ofOption _ (BinaryOp.ofSpelling? s) = _
  rw [s.2]
  rfl

/-- The tree of a grouping is read by reading its operands in order. -/
theorem ofValue_toValue (g : Grouping op Value) :
    Expr.ofValue g.toValue = toExpr <$> g.readWith Expr.ofValue := by
  induction g with
  | operand v => simp only [toValue, readWith, map_bind, map_pure, toExpr, bind_pure]
  | node s l r ihl ihr =>
    rw [toValue, Expr.ofValue, readBinaryOp_spelling, ihl, ihr, readWith]
    change (pure op : Draft BinaryOp) >>= _ = _
    simp only [pure_bind, map_bind, map_pure, bind_map_left, toExpr]

end Grouping

/-! ## Operands -/

/-- What a draft comes to, if it does, has the property. -/
def Draft.Yields {α : Type} (P : α → Prop) (d : Draft α) : Prop :=
  ∀ rs a, d = ⟨rs, .ok a⟩ → P a

namespace Draft.Yields

variable {α β : Type} {P : β → Prop}

theorem pure {b : β} (h : P b) : Yields P (pure b : Draft β) := by
  intro rs a ha
  obtain ⟨rfl, -⟩ := pure_eq_ok.1 ha
  exact h

theorem fail (e : Error) : Yields P (.fail e) := by
  intro rs a ha
  cases ha

theorem bind {d : Draft α} {f : α → Draft β} (h : ∀ a, Yields P (f a)) : Yields P (d >>= f) := by
  intro rs b hb
  obtain ⟨_, a, qs, -, hf, -⟩ := bind_eq_ok.1 hb
  exact h a qs b hf

theorem readEachWith {read : Value → Draft β} {vs : List Value} (h : ∀ v ∈ vs, Yields P (read v)) :
    Yields (fun bs => bs.length = vs.length ∧ ∀ b ∈ bs, P b) (readEachWith read vs) := by
  induction vs with
  | nil => exact pure ⟨rfl, by simp⟩
  | cons v vs ih =>
    intro rs bs hbs
    rw [List.forall_mem_cons] at h
    simp only [CypherCompose.readEachWith, bind_eq_ok, pure_eq_ok] at hbs
    obtain ⟨qs, b, _, hb, ⟨qs', cs, _, hcs, ⟨rfl, -⟩, -⟩, -⟩ := hbs
    obtain ⟨hlength, hall⟩ := ih h.2 qs' cs hcs
    refine ⟨by simp [hlength], ?_⟩
    rw [List.forall_mem_cons]
    exact ⟨h.1 qs b hb, hall⟩

end Draft.Yields

namespace Expr

open Draft (Yields)

variable {op : BinaryOp}

theorem yields_ofAtom (a : Atom) : Yields (fun e => e.carries op = false) (ofAtom a) := by
  unfold ofAtom
  split
  · exact .pure rfl
  · exact .pure rfl
  · exact .bind fun _ => .pure rfl
  · exact .pure rfl
  · exact .fail _
  · split
    · exact .pure rfl
    · exact .fail _

theorem yields_readVar (v : Value) : Yields (fun e => e.carries op = false) (readVar v) := by
  intro rs e h
  obtain ⟨-, ⟨-, rfl⟩ | ⟨-, n, -, rfl⟩⟩ := readVar_eq_ok h
  · rfl
  · rfl

theorem yields_binary (o l r : Value) :
    Yields (fun e => e.carries op = (Value.binary o l r).carries op)
      (Expr.ofValue (.binary o l r)) := by
  intro rs e h
  simp only [Expr.ofValue, Draft.bind_eq_ok, Draft.pure_eq_ok] at h
  obtain ⟨_, o', _, ho, ⟨_, _, _, -, ⟨_, _, _, -, ⟨rfl, -⟩, -⟩, -⟩, -⟩ := h
  rw [Value.carries, readBinaryOp_eq_ok ho]
  rfl

/-- An expression applies the operator that its value applies. -/
theorem yields_carries : ∀ v : Value,
    Yields (fun e => e.carries op = v.carries op) (Expr.ofValue v)
  | .atom a => by
    rw [Expr.ofValue]
    exact yields_ofAtom a
  | .literal w => by
    intro rs e h
    rw [Expr.ofValue] at h
    obtain ⟨qs, e', _, he, hpure, -⟩ := Draft.bind_eq_ok.1 h
    obtain ⟨rfl, -⟩ := Draft.pure_eq_ok.1 hpure
    exact yields_carries w qs e' he
  | .binary o l r => yields_binary o l r
  | .var n => by
    rw [Expr.ofValue]
    exact yields_readVar n
  | .list _ | .tuple _ | .map _ | .param _ _ | .existence _ => by
    rw [Expr.ofValue]
    exact .bind fun _ => .pure rfl
  | .property _ _ => by
    rw [Expr.ofValue]
    exact .bind fun _ => .bind fun _ => .pure rfl
  | .unary _ _ => by
    rw [Expr.ofValue]
    exact .bind fun _ => .bind fun _ => .pure rfl
  | .call _ _ _ => by
    rw [Expr.ofValue]
    exact .bind fun _ => .bind fun _ => .bind fun _ => .bind fun _ => .pure rfl
  | .case _ _ => by
    rw [Expr.ofValue]
    refine .bind fun b => ?_
    cases b with
    | false => exact .fail _
    | true =>
      refine .bind fun _ => .bind fun _ => ?_
      dsimp only
      split_ifs <;> exact .bind fun _ => .pure rfl
  | .unknownExpr _ | .builder _ _ | .nodeRef _ _ _ | .relRef _ _ _ _ | .chain _ _ | .aliased _ _
  | .orderItem _ _ | .assign _ _ | .clause _ | .comprehension _ _ _ _ | .statement _ _ _
  | .propertyDef _ _ _ _ | .nodeSchema _ _ | .relSchema _ _ | .settings _ _ _ _ => by
    simp only [Expr.ofValue]
    exact .fail _

end Expr

/-! ## Levels -/

theorem BinaryOp.eq_of_prec {o op : BinaryOp} (hop : op.isLogical = true) (h : o.prec = op.prec) :
    o = op := by
  cases op <;> cases hop <;> cases o <;> cases h <;> rfl

theorem BinaryOp.ne_prec {op : BinaryOp} (hop : op.isLogical = true) {p : Prec} (hp : 3 < p.rank) :
    p ≠ op.prec := by
  rintro rfl
  cases op <;> cases hop <;> exact absurd hp (by decide)

namespace Expr

variable {op : BinaryOp}

/-- On the level of an operator between conditions stand its own nodes alone. -/
theorem carries_of_prec (hop : op.isLogical = true) : ∀ {e : Expr},
    e.rendering.prec = op.prec → e.carries op = true
  | binary o l r, h => by
    rw [rendering, Rendering.binary] at h
    split_ifs at h with ho
    · exact absurd h (BinaryOp.ne_prec hop (p := .atom) (by decide))
    · rw [carries, BinaryOp.eq_of_prec hop h, beq_self_eq_true]
  | enclosed e, h => carries_of_prec (e := e) hop h
  | unary o e, h => by
    rw [rendering] at h
    cases o with
    | not => exact absurd h (BinaryOp.ne_prec hop (p := .not) (by decide))
    | neg => exact absurd h (BinaryOp.ne_prec hop (p := .negation) (by decide))
    | _ => exact absurd h (BinaryOp.ne_prec hop (p := .comparison) (by decide))
  | int n, h => by
    rw [rendering] at h
    split_ifs at h
    · exact absurd h (BinaryOp.ne_prec hop (p := .negation) (by decide))
    · exact absurd h (BinaryOp.ne_prec hop (p := .atom) (by decide))
  | float x, h => by
    rw [rendering] at h
    split_ifs at h
    · exact absurd h (BinaryOp.ne_prec hop (p := .negation) (by decide))
    · exact absurd h (BinaryOp.ne_prec hop (p := .atom) (by decide))
  | null, h | bool _, h | text _, h | star, h | var _, h | property _ _, h | param _, h | list _, h
  | map _, h | call _ _ _, h | case _ _, h | existence _, h => by
    rw [rendering] at h
    exact absurd h (BinaryOp.ne_prec hop (p := .atom) (by decide))

theorem disjuncts_of_carries : ∀ {e : Expr}, e.carries .or = false →
    e.rendering.disjuncts = [e.render]
  | binary o l r, h => by
    have ho : o ≠ .or := by simpa [carries] using h
    rw [render, rendering, Rendering.binary, if_neg ho]
    rfl
  | unary o e, _ => by
    cases o <;> rfl
  | null, _ | bool _, _ | int _, _ | float _, _ | text _, _ | star, _ | var _, _ | property _ _, _
  | param _, _ | list _, _ | map _, _ | call _ _ _, _ | case _ _, _ | existence _, _
  | enclosed _, _ => rfl

end Expr

/-! ## Texts -/

/-- An operand as it is written under the operator. -/
def operandTokens (op : BinaryOp) (e : Expr) : List Token :=
  if e.rendering.prec < op.prec then parens e.render
  else if op = .or then e.render
  else fill e.render

/-- Operands with the operator between them. -/
def chainTokens (op : BinaryOp) (es : List Expr) : List Token :=
  let body := List.intercalate [blank, sym op.token, blank] (es.map (operandTokens op))
  if op = .or then sym "(" :: (body ++ [sym ")"]) else body

theorem operandTokens_or (e : Expr) : operandTokens .or e = e.render := by
  have hlevel : ¬ e.rendering.prec < BinaryOp.or.prec := by
    change ¬ e.rendering.prec.rank < 1
    cases e.rendering.prec <;> decide
  rw [operandTokens, if_neg hlevel, if_pos rfl]

theorem operandTokens_of_ne_or {op : BinaryOp} (hor : op ≠ .or) (e : Expr) :
    operandTokens op e = e.rendering.guarded (e.rendering.prec < op.prec) := by
  rw [operandTokens, if_neg hor, Rendering.guarded]
  simp only [decide_eq_true_eq]
  rfl

namespace Grouping

variable {op : BinaryOp}

theorem applies_of_prec (hop : op.isLogical = true) {g : Grouping op Expr}
    (hg : ∀ e ∈ g.operands, e.carries op = false) (h : g.toExpr.rendering.prec = op.prec) :
    g.toExpr.applies op = true := by
  cases g with
  | operand e =>
    have hcarries := Expr.carries_of_prec hop h
    rw [toExpr, hg e (by simp [operands])] at hcarries
    cases hcarries
  | node s l r => exact beq_self_eq_true op

theorem rendering_node (hop : op.isLogical = true) (hor : op ≠ .or) (s : op.Spelling)
    {l r : Grouping op Expr} (hr : ∀ e ∈ r.operands, e.carries op = false) :
    (node s l r).toExpr.rendering =
      .single op.prec (operandTokens op l.toExpr ++ [blank, sym op.token, blank] ++
        operandTokens op r.toExpr) := by
  have hcomparison : op.prec ≠ .comparison :=
    (BinaryOp.ne_prec hop (p := .comparison) (by decide)).symm
  have hassociative : op.isAssociative = true := by
    cases op <;> cases hop <;> rfl
  -- On the operator's own level a right operand is a node of that operator, which goes without.
  have hright : (decide (r.toExpr.rendering.prec = op.prec) &&
      !(op.isAssociative && r.toExpr.applies op)) = false := by
    by_cases h : r.toExpr.rendering.prec = op.prec
    · rw [hassociative, applies_of_prec hop hr h]
      simp
    · simp [h]
  rw [toExpr, Expr.rendering, Rendering.binary, if_neg hor, hright, operandTokens_of_ne_or hor,
    operandTokens_of_ne_or hor]
  simp [hcomparison]

theorem operandTokens_node (hop : op.isLogical = true) (hor : op ≠ .or) (s : op.Spelling)
    {l r : Grouping op Expr} (hr : ∀ e ∈ r.operands, e.carries op = false) :
    operandTokens op (node s l r).toExpr = (node s l r).toExpr.render := by
  have hlevel : decide (op.prec < op.prec) = false := decide_eq_false (Nat.lt_irrefl _)
  rw [operandTokens_of_ne_or hor, Expr.render, rendering_node hop hor s hr, Rendering.guarded,
    Rendering.single, hlevel, if_neg Bool.false_ne_true]
  exact Rendering.Says.fill_between _ _ op

/-- Under AND and XOR a grouping is written as its operands are. -/
theorem operandTokens_toExpr (hop : op.isLogical = true) (hor : op ≠ .or) {g : Grouping op Expr}
    (hg : ∀ e ∈ g.operands, e.carries op = false) :
    operandTokens op g.toExpr =
      List.intercalate [blank, sym op.token, blank] (g.operands.map (operandTokens op)) := by
  induction g with
  | operand e => simp [toExpr, operands]
  | node s l r ihl ihr =>
    rw [operands, List.forall_mem_append] at hg
    rw [operandTokens_node hop hor s hg.2, Expr.render, rendering_node hop hor s hg.2, operands,
      List.map_append, Rendering.Says.intercalate_append _ (by simp [operands_ne_nil])
        (by simp [operands_ne_nil]), ← ihl hg.1, ← ihr hg.2]
    rfl

/-- OR joins the operands of a grouping. -/
theorem disjuncts_toExpr {g : Grouping .or Expr} (hg : ∀ e ∈ g.operands, e.carries .or = false) :
    g.toExpr.rendering.disjuncts = g.operands.map Expr.render := by
  induction g with
  | operand e =>
    rw [toExpr, Expr.disjuncts_of_carries (hg e (by simp [operands]))]
    rfl
  | node s l r ihl ihr =>
    rw [operands, List.forall_mem_append] at hg
    rw [operands, List.map_append, ← ihl hg.1, ← ihr hg.2]
    rfl

/-- A grouping of two operands or more is written as its operands with the operator between them. -/
theorem render_toExpr (hop : op.isLogical = true) {g : Grouping op Expr}
    (htwo : 2 ≤ g.operands.length) (hg : ∀ e ∈ g.operands, e.carries op = false) :
    g.toExpr.render = chainTokens op g.operands := by
  obtain ⟨s, l, r, rfl⟩ := exists_node g htwo
  by_cases hor : op = .or
  · subst hor
    have hbody : (node s l r).operands.map (operandTokens .or) =
        (node s l r).toExpr.rendering.disjuncts := by
      rw [disjuncts_toExpr hg]
      exact List.map_congr_left fun e _ => operandTokens_or e
    rw [chainTokens, hbody, if_pos rfl]
    rfl
  · rw [chainTokens, if_neg hor, ← operandTokens_toExpr hop hor hg]
    rw [operands, List.forall_mem_append] at hg
    exact (operandTokens_node hop hor s hg.2).symm

end Grouping

/-- An operand's text under the operator: between parentheses if its level is looser.  OR joins the
texts of its operands, and the other operators fill them into a template. -/
def operandText (op : BinaryOp) (e : Expr) : String :=
  if e.rendering.prec < op.prec then "(" ++ e.filledText ++ ")"
  else if op = .or then spell e.render
  else e.filledText

/-- The texts of operands joined by the operator, for OR between parentheses. -/
def chainText (op : BinaryOp) (es : List Expr) : String :=
  let body := (" " ++ op.token ++ " ").intercalate (es.map (operandText op))
  if op = .or then "(" ++ body ++ ")" else body

theorem spell_operandTokens (op : BinaryOp) (e : Expr) :
    spell (operandTokens op e) = operandText op e := by
  unfold operandTokens operandText
  split_ifs
  · simp [parens, spelling, Expr.filledText, String.append_assoc]
  · rfl
  · rfl

theorem spell_chainTokens (op : BinaryOp) (es : List Expr) :
    spell (chainTokens op es) = chainText op es := by
  have hsep : spell [blank, sym op.token, blank] = " " ++ op.token ++ " " := by
    simp [spelling, String.append_assoc]
  have hbody : spell (List.intercalate [blank, sym op.token, blank] (es.map (operandTokens op))) =
      (" " ++ op.token ++ " ").intercalate (es.map (operandText op)) := by
    rw [Token.spell_intercalate, hsep, List.map_map]
    congr 1
    exact List.map_congr_left fun e _ => spell_operandTokens op e
  unfold chainTokens chainText
  split_ifs
  · simp [hbody, spelling, String.append_assoc]
  · exact hbody

/-! ## Symbols -/

/-- A symbol has a longer name than the text that it stands for. -/
theorem Word.length_quote_lt {w : Word} {q : String} (h : w.symbol? = some q) :
    (Identifier.quote w.text).length < q.length := by
  cases w with
  | plain s => cases h
  | direction d =>
    cases h
    cases d <;> decide
  | mode m =>
    cases h
    cases m <;> decide

namespace Expr

/-- A text filled into a template is the text itself, or a longer one for a lone name that is a
symbol. -/
theorem filledText_cases (e : Expr) :
    e.filledText = spell e.render ∧ (¬ ∃ n, e.render = [.name n] ∧ n.word.symbol? ≠ none) ∨
      (spell e.render).length < e.filledText.length ∧
        ∃ n, e.render = [.name n] ∧ n.word.symbol? ≠ none := by
  by_cases hsymbol : ∃ n, e.render = [.name n] ∧ n.word.symbol? ≠ none
  · right
    refine ⟨?_, hsymbol⟩
    obtain ⟨n, hn, hq⟩ := hsymbol
    obtain ⟨q, hq⟩ := Option.ne_none_iff_exists'.1 hq
    have hlt : n.spelling.length < q.length := Word.length_quote_lt hq
    simpa [filledText, hn, fill, spelling, Name.filled, hq] using hlt
  · left
    refine ⟨?_, hsymbol⟩
    unfold filledText fill
    split
    next n hn =>
      have hnone : n.word.symbol? = none := by
        by_contra hq
        exact hsymbol ⟨n, hn, hq⟩
      rw [hn]
      simp [spelling, Name.filled, hnone]
    next => rfl

theorem filledText_eq_iff (e : Expr) :
    e.filledText = spell e.render ↔ ¬ ∃ n, e.render = [.name n] ∧ n.word.symbol? ≠ none := by
  obtain ⟨heq, hnot⟩ | ⟨hlt, hsymbol⟩ := e.filledText_cases
  · exact iff_of_true heq hnot
  · exact iff_of_false (fun h => by rw [h] at hlt; omega) (not_not.2 hsymbol)

/-- Operands that AND and XOR do not write by their own text: a lone name that is a symbol is filled in
under the name of the symbol. -/
def NamesSymbol (op : BinaryOp) (e : Expr) : Prop :=
  op ≠ .or ∧ ∃ n, e.render = [.name n] ∧ n.word.symbol? ≠ none

end Expr

/-- An operand's own text, between parentheses if its level is looser than the operator's. -/
def ownText (op : BinaryOp) (e : Expr) : String :=
  if e.rendering.prec < op.prec then "(" ++ spell e.render ++ ")" else spell e.render

/-- The operands' own texts joined by the operator, for OR between parentheses. -/
def joinedText (op : BinaryOp) (es : List Expr) : String :=
  let body := (" " ++ op.token ++ " ").intercalate (es.map (ownText op))
  if op = .or then "(" ++ body ++ ")" else body

theorem operandText_cases (op : BinaryOp) (e : Expr) :
    operandText op e = ownText op e ∧ ¬ e.NamesSymbol op ∨
      (ownText op e).length < (operandText op e).length ∧ e.NamesSymbol op := by
  by_cases hor : op = .or
  · subst hor
    have hlevel : ¬ e.rendering.prec < BinaryOp.or.prec := by
      change ¬ e.rendering.prec.rank < 1
      cases e.rendering.prec <;> decide
    refine .inl ⟨?_, fun h => h.1 rfl⟩
    rw [operandText, ownText, if_neg hlevel, if_pos rfl, if_neg hlevel]
  · obtain ⟨heq, hnot⟩ | ⟨hlt, hsymbol⟩ := e.filledText_cases
    · refine .inl ⟨?_, fun h => hnot h.2⟩
      rw [operandText, ownText, if_neg hor, heq]
    · refine .inr ⟨?_, hor, hsymbol⟩
      rw [operandText, ownText, if_neg hor]
      split_ifs
      · simp only [String.length_append]
        omega
      · exact hlt

theorem length_intercalate_le {es : List Expr} {f g : Expr → String} (sep : String)
    (h : ∀ e ∈ es, (f e).length ≤ (g e).length) :
    (sep.intercalate (es.map f)).length ≤ (sep.intercalate (es.map g)).length := by
  induction es with
  | nil => exact Nat.le_refl _
  | cons d es ih =>
    rw [List.forall_mem_cons] at h
    cases es with
    | nil => simpa using h.1
    | cons d' es =>
      have hrest := ih h.2
      simp only [List.map_cons, String.intercalate_cons_cons, String.length_append] at hrest ⊢
      omega

theorem length_intercalate_lt {es : List Expr} {f g : Expr → String} (sep : String)
    (h : ∀ e ∈ es, (f e).length ≤ (g e).length) {e : Expr} (he : e ∈ es)
    (hlt : (f e).length < (g e).length) :
    (sep.intercalate (es.map f)).length < (sep.intercalate (es.map g)).length := by
  induction es with
  | nil => cases he
  | cons d es ih =>
    rw [List.forall_mem_cons] at h
    cases es with
    | nil =>
      obtain rfl := List.mem_singleton.1 he
      simpa using hlt
    | cons d' es =>
      have hle := length_intercalate_le sep h.2
      rcases List.mem_cons.1 he with rfl | he
      · simp only [List.map_cons, String.intercalate_cons_cons, String.length_append] at hle ⊢
        omega
      · have hrest := ih h.2 he
        simp only [List.map_cons, String.intercalate_cons_cons, String.length_append] at hrest ⊢
        omega

/-- The text of a chain is made of the operands' own texts exactly if none of them is a lone name that
is a symbol, and for OR always. -/
theorem chainText_eq_iff (op : BinaryOp) (es : List Expr) :
    chainText op es = joinedText op es ↔ ∀ e ∈ es, ¬ e.NamesSymbol op := by
  constructor
  · intro h e he hsymbol
    rw [chainText, joinedText, if_neg hsymbol.1, if_neg hsymbol.1] at h
    have hlt := length_intercalate_lt (" " ++ op.token ++ " ") (f := ownText op) (g := operandText op)
      (fun d _ => ?_) he ?_
    · rw [h] at hlt
      omega
    · obtain ⟨heq, -⟩ | ⟨hlt, -⟩ := operandText_cases op d
      · rw [heq]
      · omega
    · exact ((operandText_cases op e).resolve_left fun h => h.2 hsymbol).1
  · intro h
    have htexts : es.map (operandText op) = es.map (ownText op) :=
      List.map_congr_left fun e he =>
        ((operandText_cases op e).resolve_right fun hlt => h e he hlt.2).1
    rw [chainText, joinedText, htexts]

/-! ## Groupings of values -/

namespace Grouping

variable {op : BinaryOp}

theorem yields_operands {vs : List Value} (htwo : 2 ≤ vs.length)
    (hbare : ∀ v ∈ vs, v.carries op = false) :
    Draft.Yields (fun es => 2 ≤ es.length ∧ ∀ e ∈ es, e.carries op = false)
      (readEachWith Expr.ofValue vs) := by
  intro rs es hes
  have hread : ∀ v ∈ vs, Draft.Yields (fun e => e.carries op = false) (Expr.ofValue v) :=
    fun v hv => hbare v hv ▸ Expr.yields_carries v
  obtain ⟨hlength, hall⟩ := Draft.Yields.readEachWith hread rs es hes
  exact ⟨hlength ▸ htwo, hall⟩

/-- The tokens of a grouping are made of its operands, read in order. -/
theorem render_ofValue_toValue (hop : op.isLogical = true) (g : Grouping op Value)
    (htwo : 2 ≤ g.operands.length) (hbare : ∀ v ∈ g.operands, v.carries op = false) :
    Expr.render <$> Expr.ofValue g.toValue =
      chainTokens op <$> readEachWith Expr.ofValue g.operands := by
  rw [ofValue_toValue, ← operands_readWith, ← comp_map, ← comp_map, map_eq_pure_bind,
    map_eq_pure_bind]
  refine Draft.bind_congr_ok fun rs g' hg' => ?_
  have hread : readEachWith Expr.ofValue g.operands = ⟨rs, .ok g'.operands⟩ := by
    rw [← operands_readWith, hg']
    exact Draft.map_eq_ok.2 ⟨g', rfl, rfl⟩
  obtain ⟨htwo', hall⟩ := yields_operands htwo hbare rs _ hread
  exact congrArg pure (render_toExpr hop htwo' hall)

/-! ## Conditions -/

/-- The spelling of AND that a clause of several conditions uses. -/
def andSpelling : BinaryOp.and.Spelling :=
  ⟨"and", by decide +kernel⟩

theorem readPlain_filter (i : Nat) {c : Value} {vs : List Value} (hc : c.asList = vs)
    (hvs : vs ≠ []) :
    readPlain i (.clause (.filter c)) = (do
      let es ← readEachWith Expr.ofValue vs
      match es with
      | [] => .fail (.clause (.noConditions (.clause (.filter c))))
      | e :: es => pure (.filter (Expr.join .and e es))) := by
  have hitems : readItems (.noConditions (.clause (.filter c))) c = pure vs := by
    rw [readItems, hc, if_neg (by simpa using hvs)]
    rfl
  rw [readPlain, hitems]
  exact pure_bind vs _

theorem render_join {e : Expr} {es : List Expr} (htwo : 2 ≤ (e :: es).length)
    (hall : ∀ d ∈ e :: es, d.carries .and = false) :
    (Expr.join .and e es).render = chainTokens .and (e :: es) := by
  rw [← operands_leftward andSpelling e es] at htwo hall ⊢
  rw [← render_toExpr rfl htwo hall, toExpr_leftward]

/-- Conditions in a row are written as a grouping of them is. -/
theorem render_conditions (i : Nat) {c : Value} {vs : List Value} (hc : c.asList = vs)
    (htwo : 2 ≤ vs.length) (hbare : ∀ v ∈ vs, v.carries .and = false) :
    Clause.render <$> readPlain i (.clause (.filter c)) =
      (fun es => after "WHERE" (chainTokens .and es)) <$> readEachWith Expr.ofValue vs := by
  have hvs : vs ≠ [] := List.ne_nil_of_length_pos (by omega)
  rw [readPlain_filter i hc hvs, map_bind, map_eq_pure_bind]
  refine Draft.bind_congr_ok fun rs es hes => ?_
  -- Reading keeps the number of conditions, so the error for none of them is out.
  obtain ⟨htwo', hall⟩ := yields_operands htwo hbare rs es hes
  cases es with
  | nil => simp at htwo'
  | cons e es =>
    rw [← render_join htwo' hall]
    rfl

/-- A condition of its own is written as it is. -/
theorem render_condition (i : Nat) {c v : Value} (hc : c.asList = [v]) :
    Clause.render <$> readPlain i (.clause (.filter c)) =
      after "WHERE" <$> Expr.render <$> Expr.ofValue v := by
  rw [readPlain_filter i hc (by simp), readEachWith_singleton, map_bind, bind_map_left,
    ← comp_map, map_eq_pure_bind]
  rfl

end Grouping

open Grouping in
/-- Let `g` and `h` group the same operands under AND, OR or XOR, two at least, none of which
applies that operator itself, be it given as a literal.  Then they are written alike over every
table: the same text or error, and the same table afterwards.  The operands are read from left to
right, and the text is theirs with the operator between them, the looser ones between parentheses,
and for OR all of it.  Conditions in a row are written as any grouping of them under AND is.  Last,
the texts between the operators are the operands' own exactly if no operand of AND or XOR is a lone
name that is a symbol. -/
theorem Session.write_grouping {op : BinaryOp} (hop : op.isLogical = true) {g h : Grouping op Value}
    (hsame : g.operands = h.operands) (htwo : 2 ≤ g.operands.length)
    (hbare : ∀ v ∈ g.operands, v.carries op = false) :
    (∀ r, step r (.write .expr g.toValue) = step r (.write .expr h.toValue)) ∧
    spell <$> Piece.draft .expr g.toValue =
      chainText op <$> readEachWith Expr.ofValue g.operands ∧
    (op = .and → ∀ i c, c.asList = g.operands →
      Clause.render <$> readPlain i (.clause (.filter c)) =
        Clause.render <$> readPlain i (.clause (.filter g.toValue))) ∧
    ∀ rs es, readEachWith Expr.ofValue g.operands = ⟨rs, .ok es⟩ →
      (spell <$> Piece.draft .expr g.toValue = ⟨rs, .ok (joinedText op es)⟩ ↔
        ∀ e ∈ es, ¬ e.NamesSymbol op) := by
  have hg := render_ofValue_toValue hop g htwo hbare
  have hh := render_ofValue_toValue hop h (hsame ▸ htwo) (hsame ▸ hbare)
  have htext : spell <$> Piece.draft .expr g.toValue =
      chainText op <$> readEachWith Expr.ofValue g.operands := by
    rw [Piece.draft, hg, ← comp_map]
    congr 1
    funext es
    exact spell_chainTokens op es
  refine ⟨fun r => ?_, htext, ?_, ?_⟩
  · have hdraft : Piece.draft .expr g.toValue = Piece.draft .expr h.toValue := by
      rw [Piece.draft, Piece.draft, hg, hh, hsame]
    rw [step, step, hdraft]
  · rintro rfl i c hc
    obtain ⟨s, l, r, rfl⟩ := exists_node g htwo
    rw [render_conditions i hc htwo hbare, render_condition i rfl, hg, ← comp_map]
    rfl
  · intro rs es hes
    rw [htext, hes, Draft.map_eq_ok, ← chainText_eq_iff]
    constructor
    · rintro ⟨_, heq, hjoined⟩
      cases heq
      exact hjoined
    · exact fun hjoined => ⟨es, rfl, hjoined⟩

namespace Grouping

/-- AND in capitals. -/
def capitalAnd : BinaryOp.and.Spelling :=
  ⟨"AND", by decide +kernel⟩

/-- A variable, a looser XOR and a parameter, grouped to the left. -/
def leftSpecimen : Grouping .and Value :=
  .node andSpelling
    (.node capitalAnd (.operand (.var (.text "a")))
      (.operand (.binary (.text "Xor") (.var (.text "b")) (.var (.text "c")))))
    (.operand (.param (.text "p") (.int 1)))

/-- The same operands grouped to the right. -/
def rightSpecimen : Grouping .and Value :=
  .node capitalAnd (.operand (.var (.text "a")))
    (.node andSpelling
      (.operand (.binary (.text "Xor") (.var (.text "b")) (.var (.text "c"))))
      (.operand (.param (.text "p") (.int 1))))

/-- A variable named by a symbol, and another. -/
def symbolSpecimen (op : BinaryOp) (s : op.Spelling) : Grouping op Value :=
  .node s (.operand (.var (.atom (.direction .forward)))) (.operand (.var (.text "a")))

end Grouping

open Grouping in
theorem Session.write_grouping_specimen :
    leftSpecimen.operands = rightSpecimen.operands ∧ 2 ≤ leftSpecimen.operands.length ∧
      (∀ v ∈ leftSpecimen.operands, v.carries .and = false) ∧
      step .empty (.write .expr leftSpecimen.toValue) =
        step .empty (.write .expr rightSpecimen.toValue) ∧
      (spell <$> Piece.draft .expr leftSpecimen.toValue).outcome.toOption =
        some "a AND (b XOR c) AND $p" ∧
      Clause.render <$> readPlain 0 (.clause (.filter (.list leftSpecimen.operands))) =
        Clause.render <$> readPlain 0 (.clause (.filter leftSpecimen.toValue)) := by
  have hbare : ∀ v ∈ leftSpecimen.operands, v.carries .and = false := by
    have hxor : BinaryOp.ofSpelling? "Xor" = some .xor := by decide +kernel
    simp [leftSpecimen, operands, Value.carries, Value.text?, Atom.text?, hxor]
  obtain ⟨halike, htext, hwhere, -⟩ :=
    write_grouping (g := leftSpecimen) (h := rightSpecimen) rfl rfl (by decide) hbare
  refine ⟨rfl, by decide, hbare, halike .empty, ?_, hwhere rfl 0 _ rfl⟩
  rw [htext]
  decide +kernel

open Grouping in
/-- The symbol is written by its own text alone and under OR, but under AND by its qualified name. -/
theorem Session.write_symbolSpecimen :
    (spell <$> Piece.draft .expr (.var (.atom (.direction .forward)))).outcome.toOption =
        some "forward" ∧
      (spell <$> Piece.draft .expr
          (symbolSpecimen .or ⟨"or", by decide +kernel⟩).toValue).outcome.toOption =
        some "(forward OR a)" ∧
      (spell <$> Piece.draft .expr (symbolSpecimen .and andSpelling).toValue).outcome.toOption =
        some "Direction.FORWARD AND a" := by
  refine ⟨?_, ?_, ?_⟩ <;> decide +kernel

end CypherCompose
