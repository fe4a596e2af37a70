import CypherCompose.Proofs.Normal

/-!
# Arithmetic

`Arith` is the part of expressions that computes with integers: sums, differences, products,
quotients, remainders and negation over variables and literals.  A tree has a value (`Arith.value`),
and so has a text, as the grammar of expressions reads it (`textValue`).

The text of a tree is read as `Arith.term`: the tree, but with a sum on the right of a sum, and a
product on the right of a product, regrouped to the left, since these stand without parentheses.
-/

namespace CypherCompose

open Grammar CypherCompose.Normal
open Rendering.Says (joined)

/-! ## Trees -/

/-- Operators on integers. -/
inductive ArithOp where
  | add
  | sub
  | mul
  | div
  | mod
  deriving DecidableEq, Repr

/-- The operator of expressions. -/
def ArithOp.sign : ArithOp → BinaryOp
  | add => .add
  | sub => .sub
  | mul => .mul
  | div => .div
  | mod => .mod

/-- A name that stands for a variable and nothing else. -/
structure Variable where
  name : String
  filled : name ≠ ""
  noStar : name ≠ "*"
  isName : isName name = true

/-- Trees of integer arithmetic.  Literals may be given as such or as bare values; those with too many
digits have no text, and no tree has them. -/
inductive Arith where
  | lit (wrapped : Bool) (n : Int) (writable : Numeral.isWritable n = true)
  | var (x : Variable)
  | neg (operand : Arith)
  | binary (op : ArithOp) (left right : Arith)

/-- The values of variables, by name. -/
abbrev Env :=
  String → Int

namespace Arith

/-- The tree as a value. -/
def toValue : Arith → Value
  | lit false n _ => .int n
  | lit true n _ => .literal (.int n)
  | var x => .var (.text x.name)
  | neg a => .unary (.text "-") a.toValue
  | binary op a b => .binary (.text op.sign.token) a.toValue b.toValue

/-- What the text of a tree says. -/
def term : Arith → Term
  | lit _ n _ => if n < 0 then .unary .neg (.numeral n.natAbs) else .numeral n.natAbs
  | var x => .var x.name
  | neg a => .unary .neg a.term
  | binary op a b => joined op.sign (b.term.applies op.sign) a.term b.term

end Arith

/-! ## Values -/

/-- An operator on two integers.  Division rounds towards zero; there is none by zero. -/
def BinaryOp.compute : BinaryOp → Int → Int → Option Int
  | add, m, n => some (m + n)
  | sub, m, n => some (m - n)
  | mul, m, n => some (m * n)
  | div, m, n => if n = 0 then none else some (m.tdiv n)
  | mod, m, n => if n = 0 then none else some (m.tmod n)
  | _, _, _ => none

/-- An operator on two values that may be missing. -/
def BinaryOp.eval (op : BinaryOp) (x y : Option Int) : Option Int :=
  x.bind fun m => y.bind fun n => op.compute m n

/-- The value of a tree. -/
def Arith.value (env : Env) : Arith → Option Int
  | lit _ n _ => some n
  | var x => some (env x.name)
  | neg a => (a.value env).map (- ·)
  | binary op a b => op.sign.eval (a.value env) (b.value env)

/-- The value of a term of arithmetic. -/
def Term.value (env : Env) : Term → Option Int
  | numeral n => some n
  | var x => some (env x)
  | unary .neg t => (t.value env).map (- ·)
  | binary op l r => op.eval (l.value env) (r.value env)
  | _ => none

/-- The value of a text of arithmetic. -/
def textValue (env : Env) (s : String) : Option Int :=
  (parse s).bind (Term.value env)

/-! ## The text of a tree -/

namespace Arith

theorem applies_joined {op o : BinaryOp} {regroups : Bool} {t u : Term}
    (h : regroups = true → u.applies op = true) : (joined op regroups t u).applies o = (op == o) := by
  unfold joined
  split_ifs with hregroups
  · rw [Bool.and_eq_true] at hregroups
    cases u with
    | binary o' l r =>
      obtain rfl : o' = op := by simpa [Term.applies] using h hregroups.2
      rw [Term.graft, if_pos rfl]
      rfl
    | _ => cases h hregroups.2
  · rfl

theorem keeps_binary {l r : Expr} {t u : Term} (op : ArithOp) (hl : l.Keeps t) (hr : r.Keeps u) :
    (Expr.binary op.sign l r).Keeps (joined op.sign (u.applies op.sign) t u) where
  reads := by
    have hor : op.sign ≠ .or := by cases op <;> decide
    have hbinary := hl.reads.binary hr.reads op.sign (u.applies op.sign)
    rw [Rendering.Says.combined, if_neg hor] at hbinary
    rwa [Expr.rendering, hr.applies]
  applies o := (applies_joined fun h => h).symm

theorem ofSpelling?_sign (op : ArithOp) : BinaryOp.ofSpelling? op.sign.token = some op.sign := by
  cases op <;> decide +kernel

theorem equal?_star (s : String) : (Value.text s).equal? (.text "*") = some (s == "*") := by
  simp [Value.equal?, Value.outline, Outline.equal?, Atom.equal?, Atom.number?, Atom.text?]

/-- A variable is read, and its text says the variable. -/
theorem keeps_var (x : Variable) :
    ∃ e, Expr.ofValue (.var (.text x.name)) = ⟨[], .ok e⟩ ∧ e.Keeps (.var x.name) := by
  have hstar : (Value.text x.name).equal? (.text "*") = some false := by
    rw [equal?_star, beq_eq_false_iff_ne.2 x.noStar]
  have hname : Name.ofValue? (.text x.name) = some ⟨.plain x.name, x.filled⟩ := dif_pos x.filled
  have hread : readVar (.text x.name) = ⟨[], .ok (.var ⟨.plain x.name, x.filled⟩)⟩ := by
    rw [readVar, hstar]
    simp [hname, Draft.ofOption, Draft.done, Draft.bind_eq]
  have hnormal : normal? (.var (.text x.name)) = some (.var x.name) := by
    simp [normal?, Value.plain?, x.noStar, x.isName]
  exact ⟨_, by rw [Expr.ofValue, hread], Expr.keeps_readVar hnormal hread⟩

/-- A tree is read, without any parameter, and its text says `Arith.term`. -/
theorem keeps_term : ∀ a : Arith, ∃ e, Expr.ofValue a.toValue = ⟨[], .ok e⟩ ∧ e.Keeps a.term
  | lit false n h => by
    have hread : Expr.ofAtom (.int n) = ⟨[], .ok (.int n)⟩ := Draft.integer_bind_eq_ok.2 ⟨h, rfl, rfl⟩
    exact ⟨.int n, hread, Expr.keeps_ofAtom rfl hread⟩
  | lit true n h => by
    have hread : Expr.ofAtom (.int n) = ⟨[], .ok (.int n)⟩ := Draft.integer_bind_eq_ok.2 ⟨h, rfl, rfl⟩
    have hkeeps := Expr.keeps_ofAtom (a := .int n) rfl hread
    refine ⟨.enclosed (.int n), Draft.bind_eq_ok.2 ⟨[], _, [], hread, rfl, rfl⟩,
      Expr.keeps_enclosed hkeeps ?_⟩
    intro o l r
    rw [term]
    split_ifs <;> exact fun h => by cases h
  | var x => keeps_var x
  | neg a => by
    obtain ⟨e, he, hkeeps⟩ := keeps_term a
    have hneg : UnaryOp.ofSpelling? "-" = some .neg := by decide +kernel
    refine ⟨.unary .neg e, ?_, Expr.keeps_unary hkeeps .neg⟩
    simp [toValue, Expr.ofValue, readUnaryOp, Value.text?, Atom.text?, hneg, he, Draft.ofOption,
      Draft.done, Draft.bind_eq]
  | binary op a b => by
    obtain ⟨e, he, hleft⟩ := keeps_term a
    obtain ⟨f, hf, hright⟩ := keeps_term b
    refine ⟨.binary op.sign e f, ?_, keeps_binary op hleft hright⟩
    simp [toValue, Expr.ofValue, readBinaryOp, Value.text?, Atom.text?, ofSpelling?_sign, he, hf,
      Draft.ofOption, Draft.done, Draft.bind_eq]

/-- The text of a tree, whatever parameters are known. -/
theorem exists_text (r : Registry) (a : Arith) :
    ∃ ts, (r.run (Piece.draft .expr a.toValue)).1 = .ok ts ∧
      parse (Token.spell ts) = some a.term := by
  obtain ⟨e, he, hkeeps⟩ := a.keeps_term
  refine ⟨e.render, ?_, hkeeps.reads.parse e.fragment_render⟩
  have hdraft : Piece.draft .expr a.toValue = ⟨[], .ok e.render⟩ :=
    Draft.map_eq_ok.2 ⟨e, he, rfl⟩
  rw [hdraft]
  rfl

end Arith

end CypherCompose
