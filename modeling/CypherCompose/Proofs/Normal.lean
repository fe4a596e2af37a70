import CypherCompose.Piece
import CypherCompose.Proofs.Drafts
import CypherCompose.Proofs.Structure

/-!
# Expressions keep their structure

`normal?` is what the text of an expression should say, for the expressions of the grammar: operators
under any of their spellings, wrappers of literals dropped, tuples as lists, a number below zero as the
minus of a numeral, and chains of AND, of OR and of XOR regrouped to the left.  `parse_spell_normal`
says that the text is read back as just that.
-/

namespace CypherCompose

open Grammar

/-- The characters of a text given as such. -/
def Value.plain? : Value → Option String
  | .text s => some s
  | _ => none

namespace Normal

/-- Names that no line end closes and that the grammar does not keep for itself. -/
def isName (s : String) : Bool :=
  Unbroken s && !isReserved s

/-- Literals: constants, and lists and maps of any expressions, in any number of wrappers. -/
def isLiteral : Value → Bool
  | .atom _ | .list _ | .tuple _ | .map _ => true
  | .literal v => isLiteral v
  | _ => false

/-- The star that stands for all variables. -/
def isStar : Value → Bool
  | .var name => name.plain? == some "*"
  | _ => false

/-- An atom: nothing, a truth value, an integer or a text. -/
def ofAtom? : Atom → Option Term
  | .null => some .null
  | .bool b => some (.bool b)
  | .int n => some (if n < 0 then .unary .neg (.numeral n.natAbs) else .numeral n.natAbs)
  | .text s => some (.string s)
  | _ => none

/-- Two terms under an operator.  Sums do not stand on the right of a sum, nor products on the right
of a product. -/
def ofOperands? (op : BinaryOp) (t u : Term) : Option Term :=
  if op = .and ∨ op = .or ∨ op = .xor then some (t.graft op u)
  else if (op = .add ∨ op = .mul) ∧ u.applies op = true then none
  else some (.binary op t u)

end Normal

open CypherCompose.Normal

mutual

/-- What the text of a value says as an expression, for values of the grammar. -/
def normal? : Value → Option Term
  | .atom a => ofAtom? a
  | .list xs => (normalItems? xs).map .list
  | .tuple xs => (normalItems? xs).map .list
  | .map es => (normalEntries? es).map .map
  | .property owner key => do
      let o ← owner.plain?
      let k ← key.plain?
      if isName o && Unbroken k then some (.property o k) else none
  | .param name _ => do
      let p ← name.plain?
      if Unbroken p then some (.param p) else none
  | .var name => do
      let s ← name.plain?
      if s != "*" && isName s then some (.var s) else none
  | .literal v => if isLiteral v then normal? v else none
  | .binary op left right => do
      let o ← op.text?.bind BinaryOp.ofSpelling?
      let t ← normal? left
      let u ← normal? right
      ofOperands? o t u
  | .unary op operand => do
      let o ← op.text?.bind UnaryOp.ofSpelling?
      let t ← normal? operand
      some (.unary o t)
  | .call name args distinct => do
      let f ← name.plain?
      let ts ← normalArgs? args
      let d ← distinct.truth?
      if isName f then some (.call f d ts) else none
  | .case whens default => do
      let bs ← normalWhens? whens
      if default.isNull then some (.case bs none)
      else (normal? default).map fun t => .case bs (some t)
  | _ => none

/-- The terms of items. -/
def normalItems? : List Value → Option (List Term)
  | [] => some []
  | v :: vs => do
      let t ← normal? v
      let ts ← normalItems? vs
      some (t :: ts)

/-- The terms of the entries of a map. -/
def normalEntries? : List (Value × Value) → Option (List (String × Term))
  | [] => some []
  | (k, v) :: es => do
      let k ← k.plain?
      let t ← normal? v
      let ts ← normalEntries? es
      if Unbroken k then some ((k, t) :: ts) else none

/-- The terms of the arguments of a call, given as a list or a tuple. -/
def normalArgs? : Value → Option (List Term)
  | .list xs => normalArguments? xs
  | .tuple xs => normalArguments? xs
  | _ => none

/-- The terms of arguments, the star among them. -/
def normalArguments? : List Value → Option (List Term)
  | [] => some []
  | v :: vs => do
      let t ← if isStar v then some .star else normal? v
      let ts ← normalArguments? vs
      some (t :: ts)

/-- The terms of the branches of a CASE, given as a list or a tuple. -/
def normalWhens? : Value → Option (List (Term × Term))
  | .list bs => normalBranches? bs
  | .tuple bs => normalBranches? bs
  | _ => none

/-- The terms of branches. -/
def normalBranches? : List Value → Option (List (Term × Term))
  | [] => some []
  | b :: bs => do
      let t ← normalBranch? b
      let ts ← normalBranches? bs
      some (t :: ts)

/-- The terms of a branch, given as a list or a tuple. -/
def normalBranch? : Value → Option (Term × Term)
  | .list xs => normalPair? xs
  | .tuple xs => normalPair? xs
  | _ => none

/-- The terms of the condition and the value of a branch. -/
def normalPair? : List Value → Option (Term × Term)
  | [c, v] => do
      let t ← normal? c
      let u ← normal? v
      some (t, u)
  | _ => none

end

/-! ## Names -/

theorem Value.eq_text_of_plain? {v : Value} {s : String} (h : v.plain? = some s) : v = .text s := by
  unfold Value.plain? at h
  split at h
  · cases h
    rfl
  · cases h

theorem Name.word_of_text {s : String} {n : Name} (h : Name.ofValue? (.text s) = some n) :
    n.word = .plain s := by
  simp only [Name.ofValue?, Word.ofValue?, Option.bind_some, Name.ofWord?] at h
  split_ifs at h
  cases h
  rfl

theorem ParamName.word_of_text {s : String} {p : ParamName}
    (h : ParamName.ofValue? (.text s) = some p) : p.word = .plain s := by
  simp only [ParamName.ofValue?, Word.ofValue?, Option.bind_some, ParamName.ofWord?] at h
  split_ifs at h
  cases h
  rfl

theorem FunctionName.word_of_text {s : String} {f : FunctionName}
    (h : FunctionName.ofValue? (.text s) = some f) : f.word = .plain s := by
  simp only [FunctionName.ofValue?, Word.ofValue?, Option.bind_some] at h
  split_ifs at h
  cases h
  rfl

theorem Normal.isName_iff {s : String} : isName s = true ↔ Unbroken s ∧ isReserved s = false := by
  simp [isName]

/-! ## Leaves -/

/-- The text of an expression is read back as a term, and the two apply the same operator. -/
structure Expr.Keeps (e : Expr) (t : Term) : Prop where
  reads : e.rendering.Says t
  applies : ∀ op, e.applies op = t.applies op

namespace Expr

theorem prec_ne_or : ∀ e : Expr, e.rendering.prec ≠ .or
  | binary op l r => by
    rw [rendering, Rendering.binary]
    split_ifs with hop
    · rintro ⟨⟩
    · cases op with
      | or => exact absurd rfl hop
      | _ => rintro ⟨⟩
  | unary op e => by
    rw [rendering]
    cases op <;> rintro ⟨⟩
  | enclosed e => prec_ne_or e
  | int n => by
    rw [rendering]
    split_ifs <;> rintro ⟨⟩
  | float x => by
    rw [rendering]
    split_ifs <;> rintro ⟨⟩
  | null | bool _ | text _ | star | var _ | property _ _ | param _ | list _ | map _ | call _ _ _
  | case _ _ | existence _ => by
    rw [rendering]
    rintro ⟨⟩

theorem keeps_ofAtom {a : Atom} {t : Term} {rs : List Request} {e : Expr} (ht : ofAtom? a = some t)
    (he : ofAtom a = ⟨rs, .ok e⟩) : e.Keeps t := by
  cases a with
  | null =>
    cases ht
    cases he
    exact ⟨.null, fun _ => rfl⟩
  | bool b =>
    cases ht
    cases he
    exact ⟨.bool b, fun _ => rfl⟩
  | int n =>
    obtain rfl := Option.some.inj ht
    obtain ⟨-, rfl, -⟩ := Draft.integer_bind_eq_ok.1 he
    by_cases hn : n < 0
    · rw [if_pos hn]
      refine ⟨?_, fun _ => rfl⟩
      simpa [rendering, signed, hn] using Rendering.Says.negative (.numeral n.natAbs)
    · rw [if_neg hn]
      refine ⟨?_, fun _ => rfl⟩
      simpa [rendering, signed, hn] using Rendering.Says.numeral n.natAbs
  | text s =>
    cases ht
    cases he
    exact ⟨.string s, fun _ => rfl⟩
  | _ => cases ht

theorem keeps_readProperty {owner key : Value} {t : Term} {rs : List Request} {e : Expr}
    (ht : normal? (.property owner key) = some t) (he : readProperty owner key = ⟨rs, .ok e⟩) :
    e.Keeps t := by
  simp only [normal?, Option.bind_eq_bind, Option.bind_eq_some_iff] at ht
  obtain ⟨o, ho, k, hk, ht⟩ := ht
  rw [Value.eq_text_of_plain? ho, Value.eq_text_of_plain? hk] at he
  simp only [readProperty, Draft.bind_eq_ok, Draft.ofOption_eq_ok, Draft.pure_eq_ok] at he
  obtain ⟨-, n, -, ⟨hn, -⟩, ⟨-, m, -, ⟨hm, -⟩, ⟨rfl, -⟩, -⟩, -⟩ := he
  split_ifs at ht with hnames
  cases ht
  rw [Bool.and_eq_true, isName_iff, decide_eq_true_eq] at hnames
  have hn' := Name.word_of_text hn
  have hm' := Name.word_of_text hm
  have hno : n.text = o := by rw [Name.text, hn']; rfl
  have hmk : m.text = k := by rw [Name.text, hm']; rfl
  rw [← hno, ← hmk]
  refine ⟨?_, fun _ => rfl⟩
  rw [rendering]
  exact .property (by rw [hn']; rfl) (by rw [hm']; rfl) (hno ▸ hnames.1.1) (hmk ▸ hnames.2)
    (hno ▸ hnames.1.2)

theorem keeps_readVar {name : Value} {t : Term} {rs : List Request} {e : Expr}
    (ht : normal? (.var name) = some t) (he : readVar name = ⟨rs, .ok e⟩) : e.Keeps t := by
  simp only [normal?, Option.bind_eq_bind, Option.bind_eq_some_iff] at ht
  obtain ⟨s, hs, ht⟩ := ht
  rw [Value.eq_text_of_plain? hs] at he
  split_ifs at ht with hname
  cases ht
  rw [Bool.and_eq_true, bne_iff_ne, isName_iff] at hname
  obtain ⟨-, ⟨hstar, -⟩ | ⟨-, n, hn, rfl⟩⟩ := readVar_eq_ok he
  · exact absurd (Option.some.inj hstar) hname.1
  · have hn' := Name.word_of_text hn
    have hns : n.text = s := by rw [Name.text, hn']; rfl
    rw [← hns]
    refine ⟨?_, fun _ => rfl⟩
    rw [rendering]
    exact .var (by rw [hn']; rfl) (hns ▸ hname.2.1) (hns ▸ hname.2.2)

theorem keeps_parameter {name value : Value} {t : Term} {rs : List Request} {p : ParamName}
    (ht : normal? (.param name value) = some t) (hp : Draft.parameter name value = ⟨rs, .ok p⟩) :
    (param p).Keeps t := by
  simp only [normal?, Option.bind_eq_bind, Option.bind_eq_some_iff] at ht
  obtain ⟨s, hs, ht⟩ := ht
  split_ifs at ht with hunbroken
  cases ht
  rw [Value.eq_text_of_plain? hs, Draft.parameter_eq_ok] at hp
  have hw := ParamName.word_of_text hp.1
  have hps : p.text = s := by rw [ParamName.text, hw]; rfl
  rw [← hps]
  refine ⟨?_, fun _ => rfl⟩
  rw [rendering]
  exact .param (by rw [hw]; rfl) (hps ▸ hunbroken)

end Expr

/-! ## Operators -/

namespace Normal

open Rendering.Says

theorem combined_of_ofOperands? {op : BinaryOp} {t u w : Term} (h : ofOperands? op t u = some w) :
    combined op (u.applies op) t u = w := by
  -- at the level of a logical operator there is no other, so a term that does not apply it stays
  have hkeep : op = .and ∨ op = .xor → u.applies op = false → t.graft op u = .binary op t u := by
    intro hop hu
    refine Term.graft_of_prec_ne fun o l r ho => ?_
    have hne : o ≠ op := by
      rintro rfl
      simp [ho, Term.applies] at hu
    have hlevel : ∀ o : BinaryOp, o.prec = op.prec → o = op := by
      rcases hop with rfl | rfl <;> intro o <;> cases o <;> decide
    exact fun hprec => hne (hlevel o hprec)
  unfold ofOperands? at h
  unfold combined joined
  split_ifs at h with hlogic hchain
  · cases h
    rcases hlogic with rfl | rfl | rfl
    · cases hu : u.applies .and with
      | true => rfl
      | false => exact (hkeep (.inl rfl) hu).symm
    · rfl
    · cases hu : u.applies .xor with
      | true => rfl
      | false => exact (hkeep (.inr rfl) hu).symm
  · cases h
    have hor : op ≠ .or := fun h => hlogic (.inr (.inl h))
    rw [if_neg hor]
    refine if_neg fun hregroups => ?_
    rw [Bool.and_eq_true] at hregroups
    cases op <;> simp_all [BinaryOp.isAssociative]

theorem not_binary_of_isLiteral : ∀ {v : Value} {t : Term}, isLiteral v = true → normal? v = some t →
    ∀ o l r, t ≠ .binary o l r
  | .atom a, t, _, ht => by
    rintro o l r rfl
    cases a with
    | int n =>
      simp only [normal?, ofAtom?] at ht
      split_ifs at ht <;> cases ht
    | _ => cases ht
  | .list xs, t, _, ht => by
    rintro o l r rfl
    obtain ⟨_, -, h⟩ := Option.map_eq_some_iff.1 ht
    cases h
  | .tuple xs, t, _, ht => by
    rintro o l r rfl
    obtain ⟨_, -, h⟩ := Option.map_eq_some_iff.1 ht
    cases h
  | .map es, t, _, ht => by
    rintro o l r rfl
    obtain ⟨_, -, h⟩ := Option.map_eq_some_iff.1 ht
    cases h
  | .literal v, t, hv, ht => by
    rw [normal?] at ht
    split_ifs at ht with hlit
    exact not_binary_of_isLiteral hlit ht

theorem applies_of_ofOperands? {o : BinaryOp} {t u w : Term} (h : ofOperands? o t u = some w)
    (op : BinaryOp) : w.applies op = (o == op) := by
  unfold ofOperands? at h
  split_ifs at h with hlogic
  · obtain rfl := Option.some.inj h
    cases hw : t.graft o u with
    | binary o' l r =>
      have hprec := Term.prec_of_graft hw
      have hlevel : ∀ o' : BinaryOp, o'.prec = o.prec → o' = o := by
        rcases hlogic with rfl | rfl | rfl <;> intro o' <;> cases o' <;> decide
      rw [hlevel o' hprec]
      rfl
    | _ =>
      unfold Term.graft at hw
      split at hw
      · split_ifs at hw
      · cases hw
  · obtain rfl := Option.some.inj h
    rfl

end Normal

/-! ## Expressions -/

namespace Expr

open Rendering (Says)

theorem keeps_binary {l r : Expr} {op : BinaryOp} {t u w : Term} (hl : l.Keeps t) (hr : r.Keeps u)
    (h : ofOperands? op t u = some w) : (binary op l r).Keeps w where
  reads := by
    rw [rendering, hr.applies, ← combined_of_ofOperands? h]
    exact hl.reads.binary hr.reads op _
  applies o := (applies_of_ofOperands? h o).symm

theorem keeps_unary {e : Expr} {t : Term} (h : e.Keeps t) (op : UnaryOp) :
    (unary op e).Keeps (.unary op t) :=
  ⟨by rw [rendering]; exact h.reads.unary op, fun _ => rfl⟩

theorem keeps_enclosed {e : Expr} {t : Term} (h : e.Keeps t) (ht : ∀ o l r, t ≠ .binary o l r) :
    (enclosed e).Keeps t where
  reads := by
    rw [rendering]
    exact h.reads.enclosed e.prec_ne_or ht
  applies op := by
    cases t with
    | binary o l r => exact absurd rfl (ht o l r)
    | _ => rfl

theorem map_render (es : List Expr) : es.map render = (es.map rendering).map Rendering.tokens := by
  rw [List.map_map]
  rfl

theorem keeps_list {es : List Expr} {ts : List Term} (h : List.Forall₂ Keeps es ts) :
    (list es).Keeps (.list ts) := by
  refine ⟨?_, fun _ => rfl⟩
  rw [rendering, renderAll_eq_map, map_render]
  exact .list (Says.forall₂_map h fun e _ t ht => ht.reads)

theorem keeps_map {es : List (Name × Expr)} {ts : List (String × Term)}
    (h : List.Forall₂ (fun e b => e.1.word = .plain b.1 ∧ Unbroken b.1 ∧ e.2.Keeps b.2) es ts) :
    (map es).Keeps (.map ts) := by
  have htokens : renderEntries es =
      (es.map fun e => (e.1, e.2.rendering)).map fun e => (e.1, e.2.tokens) := by
    rw [renderEntries_eq_mapValues, mapValues, List.map_map]
    rfl
  refine ⟨?_, fun _ => rfl⟩
  rw [rendering, htokens]
  refine .map (Says.forall₂_map h fun e _ b hb => ?_)
  have hkey : e.1.text = b.1 := by rw [Name.text, hb.1]; rfl
  exact ⟨by rw [hb.1]; rfl, hkey ▸ hb.2.1, hkey.symm, hb.2.2.reads⟩

theorem keeps_call {f : FunctionName} {s : String} (hf : f.word = .plain s) (hs : isName s = true)
    (d : Bool) {es : List Expr} {ts : List Term}
    (h : List.Forall₂ (fun e t => e = star ∧ t = .star ∨ e.Keeps t) es ts) :
    (call f d es).Keeps (.call s d ts) := by
  have htext : f.word.text = s := by rw [hf]; rfl
  rw [isName_iff, ← htext] at hs
  refine ⟨?_, fun _ => rfl⟩
  rw [rendering, renderAll_eq_map, map_render, ← htext]
  refine .call (by rw [hf]; rfl) hs.1 hs.2 d (Says.forall₂_map h fun e _ t ht => ?_)
  rcases ht with ⟨rfl, rfl⟩ | ht
  · exact .inl ⟨rfl, rfl⟩
  · exact .inr ht.reads

theorem keeps_case {bs : List (Expr × Expr)} {d : Option Expr} {ts : List (Term × Term)}
    {u : Option Term} (hne : ts ≠ [])
    (h : List.Forall₂ (fun b t => b.1.Keeps t.1 ∧ b.2.Keeps t.2) bs ts)
    (hd : Option.Rel Keeps d u) : (case bs d).Keeps (.case ts u) := by
  have htokens : (bs.map fun b => (b.1.render, b.2.render)) =
      (bs.map fun b => (b.1.rendering, b.2.rendering)).map fun b => (b.1.tokens, b.2.tokens) := by
    rw [List.map_map]
    rfl
  have hdefault : d.map render = (d.map rendering).map Rendering.tokens := by
    rw [Option.map_map]
    rfl
  refine ⟨?_, fun _ => rfl⟩
  rw [rendering, renderBranches_eq_map, renderOption_eq_map, htokens, hdefault]
  refine .case hne (Says.forall₂_map h fun b _ t ht => ⟨ht.1.reads, ht.2.reads⟩) ?_
  cases hd with
  | none => exact .none
  | some h => exact .some h.reads

end Expr

theorem readBinaryOp_eq_ok {op e : Value} {rs : List Request} {o : BinaryOp}
    (h : readBinaryOp op e = ⟨rs, .ok o⟩) : op.text?.bind BinaryOp.ofSpelling? = some o := by
  unfold readBinaryOp at h
  split at h
  next s hs => rw [hs, Option.bind_some, (Draft.ofOption_eq_ok.1 h).1]
  next => exact absurd h Draft.fail_ne_ok

theorem readUnaryOp_eq_ok {op e : Value} {rs : List Request} {o : UnaryOp}
    (h : readUnaryOp op e = ⟨rs, .ok o⟩) : op.text?.bind UnaryOp.ofSpelling? = some o := by
  unfold readUnaryOp at h
  split at h
  next s hs => rw [hs, Option.bind_some, (Draft.ofOption_eq_ok.1 h).1]
  next => exact absurd h Draft.fail_ne_ok

theorem Value.truth?_of_truth {v : Value} {b : Bool} (h : v.truth = .ok b) : v.truth? = some b := by
  unfold Value.truth at h
  split at h
  next b' hb =>
    cases h
    exact hb
  next => cases h

theorem ofValue_of_isStar {v : Value} {rs : List Request} {e : Expr} (hs : isStar v = true)
    (h : Expr.ofValue v = ⟨rs, .ok e⟩) : e = .star := by
  cases v with
  | var name =>
    have hname : name = .text "*" := Value.eq_text_of_plain? (by simpa [isStar] using hs)
    rw [Expr.ofValue, hname] at h
    obtain ⟨-, ⟨-, rfl⟩ | ⟨hstar, -⟩⟩ := readVar_eq_ok h
    · rfl
    · exact absurd rfl hstar
  | _ => cases hs

theorem normalBranches?_ne_nil {bs : List Value} {ts : List (Term × Term)} (hbs : bs ≠ [])
    (h : normalBranches? bs = some ts) : ts ≠ [] := by
  cases bs with
  | nil => exact absurd rfl hbs
  | cons b bs =>
    simp only [normalBranches?, Option.bind_eq_bind, Option.bind_eq_some_iff] at h
    obtain ⟨t, -, us, -, h⟩ := h
    obtain rfl := Option.some.inj h
    exact List.cons_ne_nil _ _

theorem normalWhens?_ne_nil {whens : Value} {ts : List (Term × Term)} (htruth : whens.truth = .ok true)
    (h : normalWhens? whens = some ts) : ts ≠ [] := by
  have htruth := Value.truth?_of_truth htruth
  cases whens with
  | list bs => exact normalBranches?_ne_nil (by simpa [Value.truth?] using htruth) h
  | tuple bs => exact normalBranches?_ne_nil (by simpa [Value.truth?] using htruth) h
  | _ => cases h

mutual

theorem keeps_ofValue : ∀ (v : Value) {t : Term} {rs : List Request} {e : Expr},
    normal? v = some t → Expr.ofValue v = ⟨rs, .ok e⟩ → e.Keeps t
  | .atom a, _, _, _, ht, he => Expr.keeps_ofAtom ht he
  | .list xs, t, rs, e, ht, he => by
    obtain ⟨ts, hts, rfl⟩ := Option.map_eq_some_iff.1 ht
    simp only [Expr.ofValue, Draft.bind_eq_ok, Draft.pure_eq_ok] at he
    obtain ⟨_, es, -, hes, ⟨rfl, -⟩, -⟩ := he
    exact Expr.keeps_list (keeps_items xs hts hes)
  | .tuple xs, t, rs, e, ht, he => by
    obtain ⟨ts, hts, rfl⟩ := Option.map_eq_some_iff.1 ht
    simp only [Expr.ofValue, Draft.bind_eq_ok, Draft.pure_eq_ok] at he
    obtain ⟨_, es, -, hes, ⟨rfl, -⟩, -⟩ := he
    exact Expr.keeps_list (keeps_items xs hts hes)
  | .map entries, t, rs, e, ht, he => by
    obtain ⟨ts, hts, rfl⟩ := Option.map_eq_some_iff.1 ht
    simp only [Expr.ofValue, Draft.bind_eq_ok, Draft.pure_eq_ok] at he
    obtain ⟨_, es, -, hes, ⟨rfl, -⟩, -⟩ := he
    exact Expr.keeps_map (keeps_entries entries hts hes)
  | .property owner key, _, _, _, ht, he => Expr.keeps_readProperty ht he
  | .param name value, t, rs, e, ht, he => by
    simp only [Expr.ofValue, Draft.bind_eq_ok, Draft.pure_eq_ok] at he
    obtain ⟨_, p, -, hp, ⟨rfl, -⟩, -⟩ := he
    exact Expr.keeps_parameter ht hp
  | .var name, _, _, _, ht, he => Expr.keeps_readVar ht he
  | .literal v, t, rs, e, ht, he => by
    rw [normal?] at ht
    split_ifs at ht with hlit
    simp only [Expr.ofValue, Draft.bind_eq_ok, Draft.pure_eq_ok] at he
    obtain ⟨_, inner, -, hinner, ⟨rfl, -⟩, -⟩ := he
    exact Expr.keeps_enclosed (keeps_ofValue v ht hinner) (not_binary_of_isLiteral hlit ht)
  | .binary op l r, t, rs, e, ht, he => by
    simp only [normal?, Option.bind_eq_bind] at ht
    simp only [Expr.ofValue, Draft.bind_eq_ok, Draft.pure_eq_ok] at he
    obtain ⟨_, o, _, ho, ⟨_, le, _, hl, ⟨_, re, _, hr, ⟨rfl, -⟩, -⟩, -⟩, -⟩ := he
    rw [readBinaryOp_eq_ok ho, Option.bind_some] at ht
    obtain ⟨t₁, h₁, ht⟩ := Option.bind_eq_some_iff.1 ht
    obtain ⟨t₂, h₂, ht⟩ := Option.bind_eq_some_iff.1 ht
    exact Expr.keeps_binary (keeps_ofValue l h₁ hl) (keeps_ofValue r h₂ hr) ht
  | .unary op v, t, rs, e, ht, he => by
    simp only [normal?, Option.bind_eq_bind] at ht
    simp only [Expr.ofValue, Draft.bind_eq_ok, Draft.pure_eq_ok] at he
    obtain ⟨_, o, _, ho, ⟨_, inner, _, hv, ⟨rfl, -⟩, -⟩, -⟩ := he
    rw [readUnaryOp_eq_ok ho, Option.bind_some] at ht
    obtain ⟨t', ht', ht⟩ := Option.bind_eq_some_iff.1 ht
    obtain rfl := Option.some.inj ht
    exact Expr.keeps_unary (keeps_ofValue v ht' hv) o
  | .call name args distinct, t, rs, e, ht, he => by
    simp only [normal?, Option.bind_eq_bind, Option.bind_eq_some_iff] at ht
    obtain ⟨s, hs, ts, hts, d, hd, ht⟩ := ht
    split_ifs at ht with hname
    obtain rfl := Option.some.inj ht
    simp only [Expr.ofValue, Draft.bind_eq_ok, Draft.pure_eq_ok, Draft.ofOption_eq_ok,
      Draft.ofMisuse_eq_ok] at he
    obtain ⟨_, f, _, ⟨hf, -⟩, ⟨_, items, _, ⟨hitems, -⟩, ⟨_, es, _, hes, ⟨_, d', _, ⟨hd', -⟩,
      ⟨rfl, -⟩, -⟩, -⟩, -⟩, -⟩ := he
    rw [Value.eq_text_of_plain? hs] at hf
    rw [Value.truth?_of_truth hd'] at hd
    obtain rfl := Option.some.inj hd
    exact Expr.keeps_call (FunctionName.word_of_text hf) hname _ (keeps_args args hts hitems hes)
  | .case whens default, t, rs, e, ht, he => by
    simp only [normal?, Option.bind_eq_bind, Option.bind_eq_some_iff] at ht
    obtain ⟨ts, hts, ht⟩ := ht
    simp only [Expr.ofValue, Draft.bind_eq_ok, Draft.ofMisuse_eq_ok] at he
    obtain ⟨_, truth, _, ⟨htruth, -⟩, he, -⟩ := he
    cases truth with
    | false => exact absurd he Draft.fail_ne_ok
    | true =>
      simp only [if_true, Draft.bind_eq_ok, Draft.ofOption_eq_ok] at he
      obtain ⟨_, readings, _, ⟨hreadings, -⟩, ⟨_, bs, _, hbs, he, -⟩, -⟩ := he
      have hbranches := keeps_whens whens hts hreadings hbs
      have hne := normalWhens?_ne_nil htruth hts
      by_cases hnull : default.isNull = true
      · rw [if_pos hnull] at ht he
        obtain rfl := Option.some.inj ht
        simp only [Draft.bind_eq_ok, Draft.pure_eq_ok] at he
        obtain ⟨_, _, _, ⟨rfl, -⟩, ⟨rfl, -⟩, -⟩ := he
        exact Expr.keeps_case hne hbranches .none
      · rw [if_neg hnull] at ht he
        obtain ⟨u, hu, rfl⟩ := Option.map_eq_some_iff.1 ht
        simp only [Draft.bind_eq_ok, Draft.map_eq_ok, Draft.pure_eq_ok] at he
        obtain ⟨_, _, _, ⟨inner, hinner, rfl⟩, ⟨rfl, -⟩, -⟩ := he
        exact Expr.keeps_case hne hbranches (.some (keeps_ofValue default hu hinner))

theorem keeps_items : ∀ (vs : List Value) {ts : List Term} {rs : List Request} {es : List Expr},
    normalItems? vs = some ts → Draft.all (readAll vs) = ⟨rs, .ok es⟩ →
      List.Forall₂ Expr.Keeps es ts
  | [], ts, rs, es, hts, hes => by
    obtain rfl := Option.some.inj hts
    obtain ⟨rfl, -⟩ := Draft.done_eq_ok.1 hes
    exact .nil
  | v :: vs, ts, rs, es, hts, hes => by
    simp only [normalItems?, Option.bind_eq_bind, Option.bind_eq_some_iff] at hts
    obtain ⟨t, ht, us, hus, hts⟩ := hts
    obtain rfl := Option.some.inj hts
    simp only [readAll, Draft.all, Draft.bind_eq_ok, Draft.pure_eq_ok] at hes
    obtain ⟨_, e, _, he, ⟨_, es', _, hes, ⟨rfl, -⟩, -⟩, -⟩ := hes
    exact .cons (keeps_ofValue v ht he) (keeps_items vs hus hes)

theorem keeps_entries : ∀ (entries : List (Value × Value)) {whole : Value}
    {ts : List (String × Term)} {rs : List Request} {es : List (Name × Expr)},
    normalEntries? entries = some ts → readEntries whole entries = ⟨rs, .ok es⟩ →
      List.Forall₂ (fun e b => e.1.word = .plain b.1 ∧ Unbroken b.1 ∧ e.2.Keeps b.2) es ts
  | [], _, ts, rs, es, hts, hes => by
    obtain rfl := Option.some.inj hts
    obtain ⟨rfl, -⟩ := Draft.done_eq_ok.1 hes
    exact .nil
  | (k, v) :: entries, _, ts, rs, es, hts, hes => by
    simp only [normalEntries?, Option.bind_eq_bind, Option.bind_eq_some_iff] at hts
    obtain ⟨s, hs, t, ht, us, hus, hts⟩ := hts
    split_ifs at hts with hunbroken
    obtain rfl := Option.some.inj hts
    simp only [readEntries, Draft.bind_eq_ok, Draft.pure_eq_ok, Draft.ofOption_eq_ok] at hes
    obtain ⟨_, n, _, ⟨hn, -⟩, ⟨_, e, _, he, ⟨_, es', _, hes, ⟨rfl, -⟩, -⟩, -⟩, -⟩ := hes
    rw [Value.eq_text_of_plain? hs] at hn
    exact .cons ⟨Name.word_of_text hn, hunbroken, keeps_ofValue v ht he⟩
      (keeps_entries entries hus hes)

theorem keeps_args : ∀ (args : Value) {ts : List Term} {items : List (Draft Expr)}
    {rs : List Request} {es : List Expr}, normalArgs? args = some ts → readItems? args = some items →
      Draft.all items = ⟨rs, .ok es⟩ →
      List.Forall₂ (fun e t => e = .star ∧ t = .star ∨ e.Keeps t) es ts
  | args, _, _, _, _, hts, hitems, hes => by
    cases args with
    | list xs =>
      rw [normalArgs?] at hts
      rw [readItems?, Option.some.injEq] at hitems
      exact keeps_arguments xs hts (hitems ▸ hes)
    | tuple xs =>
      rw [normalArgs?] at hts
      rw [readItems?, Option.some.injEq] at hitems
      exact keeps_arguments xs hts (hitems ▸ hes)
    | _ => simp [normalArgs?] at hts

theorem keeps_arguments : ∀ (vs : List Value) {ts : List Term} {rs : List Request} {es : List Expr},
    normalArguments? vs = some ts → Draft.all (readAll vs) = ⟨rs, .ok es⟩ →
      List.Forall₂ (fun e t => e = .star ∧ t = .star ∨ e.Keeps t) es ts
  | [], ts, rs, es, hts, hes => by
    obtain rfl := Option.some.inj hts
    obtain ⟨rfl, -⟩ := Draft.done_eq_ok.1 hes
    exact .nil
  | v :: vs, ts, rs, es, hts, hes => by
    simp only [readAll, Draft.all, Draft.bind_eq_ok, Draft.pure_eq_ok] at hes
    obtain ⟨_, e, _, he, ⟨_, es', _, hes, ⟨rfl, -⟩, -⟩, -⟩ := hes
    simp only [normalArguments?, Option.bind_eq_bind] at hts
    split_ifs at hts with hstar
    · rw [Option.bind_some] at hts
      obtain ⟨us, hus, hts⟩ := Option.bind_eq_some_iff.1 hts
      obtain rfl := Option.some.inj hts
      exact .cons (.inl ⟨ofValue_of_isStar hstar he, rfl⟩) (keeps_arguments vs hus hes)
    · obtain ⟨t, ht, hts⟩ := Option.bind_eq_some_iff.1 hts
      obtain ⟨us, hus, hts⟩ := Option.bind_eq_some_iff.1 hts
      obtain rfl := Option.some.inj hts
      exact .cons (.inr (keeps_ofValue v ht he)) (keeps_arguments vs hus hes)

theorem keeps_whens : ∀ (whens : Value) {whole : Value} {ts : List (Term × Term)}
    {readings : List BranchReading} {rs : List Request} {bs : List (Expr × Expr)},
    normalWhens? whens = some ts → readBranchItems? whens = some readings →
      readBranches whole readings = ⟨rs, .ok bs⟩ →
      List.Forall₂ (fun b t => b.1.Keeps t.1 ∧ b.2.Keeps t.2) bs ts
  | whens, _, _, _, _, _, hts, hreadings, hbs => by
    cases whens with
    | list xs =>
      rw [normalWhens?] at hts
      rw [readBranchItems?, Option.some.injEq] at hreadings
      exact keeps_branches xs hts (hreadings ▸ hbs)
    | tuple xs =>
      rw [normalWhens?] at hts
      rw [readBranchItems?, Option.some.injEq] at hreadings
      exact keeps_branches xs hts (hreadings ▸ hbs)
    | _ => simp [normalWhens?] at hts

theorem keeps_branches : ∀ (vs : List Value) {whole : Value} {ts : List (Term × Term)}
    {rs : List Request} {bs : List (Expr × Expr)}, normalBranches? vs = some ts →
      readBranches whole (readBranchList vs) = ⟨rs, .ok bs⟩ →
      List.Forall₂ (fun b t => b.1.Keeps t.1 ∧ b.2.Keeps t.2) bs ts
  | [], _, ts, rs, bs, hts, hbs => by
    obtain rfl := Option.some.inj hts
    obtain ⟨rfl, -⟩ := Draft.done_eq_ok.1 hbs
    exact .nil
  | v :: vs, _, ts, rs, bs, hts, hbs => by
    simp only [normalBranches?, Option.bind_eq_bind, Option.bind_eq_some_iff] at hts
    obtain ⟨t, ht, us, hus, hts⟩ := hts
    obtain rfl := Option.some.inj hts
    simp only [readBranchList, readBranches, Draft.bind_eq_ok, Draft.pure_eq_ok,
      Draft.ofOption_eq_ok] at hbs
    obtain ⟨_, parts, _, ⟨hparts, -⟩, ⟨_, c, _, hc, ⟨_, u, _, hu, ⟨_, bs', _, hbs, ⟨rfl, -⟩, -⟩, -⟩, -⟩,
      -⟩ := hbs
    exact .cons (keeps_branch v ht hparts hc hu) (keeps_branches vs hus hbs)

theorem keeps_branch : ∀ (v : Value) {t : Term × Term} {parts : Draft Expr × Draft Expr}
    {ps qs : List Request} {c e : Expr}, normalBranch? v = some t → readPair? v = some parts →
      parts.1 = ⟨ps, .ok c⟩ → parts.2 = ⟨qs, .ok e⟩ → c.Keeps t.1 ∧ e.Keeps t.2
  | v, _, _, _, _, _, _, ht, hparts, hc, he => by
    cases v with
    | list xs =>
      rw [normalBranch?] at ht
      exact keeps_pair xs ht (.inl hparts) hc he
    | tuple xs =>
      rw [normalBranch?] at ht
      exact keeps_pair xs ht (.inr hparts) hc he
    | _ => simp [normalBranch?] at ht

theorem keeps_pair : ∀ (vs : List Value) {t : Term × Term} {parts : Draft Expr × Draft Expr}
    {ps qs : List Request} {c e : Expr}, normalPair? vs = some t →
      readPair? (.list vs) = some parts ∨ readPair? (.tuple vs) = some parts →
      parts.1 = ⟨ps, .ok c⟩ → parts.2 = ⟨qs, .ok e⟩ → c.Keeps t.1 ∧ e.Keeps t.2
  | [], _, _, _, _, _, _, ht, _, _, _ => by simp [normalPair?] at ht
  | [_], _, _, _, _, _, _, ht, _, _, _ => by simp [normalPair?] at ht
  | _ :: _ :: _ :: _, _, _, _, _, _, _, ht, _, _, _ => by simp [normalPair?] at ht
  | [x, y], t, parts, _, _, c, e, ht, hparts, hc, he => by
    obtain rfl : (Expr.ofValue x, Expr.ofValue y) = parts := by simpa [readPair?] using hparts
    simp only [normalPair?, Option.bind_eq_bind, Option.bind_eq_some_iff] at ht
    obtain ⟨t₁, h₁, t₂, h₂, ht⟩ := ht
    obtain rfl := Option.some.inj ht
    exact ⟨keeps_ofValue x h₁ hc, keeps_ofValue y h₂ he⟩

end

/-- The text of an expression of the grammar is read back, all of it, as what it should say. -/
theorem parse_spell_normal (r : Registry) {v : Value} {t : Term} {ts : List Token}
    (hv : normal? v = some t) (h : (r.run (Piece.draft .expr v)).1 = .ok ts) :
    parse (Token.spell ts) = some t := by
  obtain ⟨hdraft, -⟩ := Registry.run_eq_ok (Prod.ext h rfl)
  obtain ⟨e, he, rfl⟩ : ∃ e, Expr.ofValue v = ⟨(Piece.draft .expr v).requests, .ok e⟩ ∧ e.render = ts :=
    Draft.map_eq_ok.1 hdraft
  exact (keeps_ofValue v hv he).reads.parse e.fragment_render

namespace Normal

/-- A condition with chains on the right, a quoted name, a sign in front of a sign, a CASE and a
star. -/
def specimen : Value :=
  .binary (.text "AND") (.var (.text "b c"))
    (.binary (.text "and")
      (.binary (.text "==") (.unary (.text "neg") (.int (-1)))
        (.case (.list [.tuple [.param (.text "p") (.int 3), .literal .null]]) (.text "it's")))
      (.binary (.text "OR") (.call (.text "count") (.tuple [.var (.text "*")]) (.bool false))
        (.map [(.text "k", .list [.int 1])])))

/-- The specimen as it is read. -/
def specimenExpr : Expr :=
  .binary .and (.var ⟨.plain "b c", by decide⟩)
    (.binary .and
      (.binary .eq (.unary .neg (.int (-1)))
        (.case [(.param ⟨.plain "p", by decide⟩, .enclosed .null)] (some (.text "it's"))))
      (.binary .or (.call ⟨.plain "count", by decide⟩ false [.star])
        (.map [(⟨.plain "k", by decide⟩, .list [.int 1])])))

/-- What the text of the specimen says. -/
def specimenTerm : Term :=
  .binary .and
    (.binary .and (.var "b c")
      (.binary .eq (.unary .neg (.unary .neg (.numeral 1)))
        (.case [(.param "p", .null)] (some (.string "it's")))))
    (.binary .or (.call "count" false [.star]) (.map [("k", .list [.numeral 1])]))

end Normal

theorem parse_spell_specimen :
    normal? specimen = some specimenTerm ∧
      (Registry.empty.run (Piece.draft .expr specimen)).1 = .ok specimenExpr.render ∧
      Token.spell specimenExpr.render =
        "`b c` AND -(-1) = CASE WHEN $p THEN null ELSE 'it\\'s' END AND (count(*) OR \x7bk: [1]\x7d)" ∧
      parse (Token.spell specimenExpr.render) = some specimenTerm := by
  have hv : normal? specimen = some specimenTerm := rfl
  have hrun : (Registry.empty.run (Piece.draft .expr specimen)).1 = .ok specimenExpr.render :=
    eq_ok_of_toOption (by decide +kernel)
  exact ⟨hv, hrun, by decide +kernel, parse_spell_normal Registry.empty hv hrun⟩

end CypherCompose
