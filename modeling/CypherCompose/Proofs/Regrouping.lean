import CypherCompose.Proofs.Arithmetic

/-!
# When regrouping keeps the value

A sum on the right of a sum, and a product on the right of a product, are written without parentheses
and so regrouped to the left.  For sums this never matters, whatever differences stand in them.  For
products it does as soon as the right one begins with a quotient or a remainder: `a * ((b / c) * d)`
is written as `a * b / c * d`.

`textValue_spell_iff_isLossless` says that these are just the trees whose text may have another value.
That such a tree fails for some choice of its leaves is shown by choosing them: every tree takes any
value (`reaches_self`), a factor can be chosen that leaves what stands before it as it is
(`exists_neutral`), and a difference at one place can be carried to the top (`Disagrees.map`).  The
leaves chosen are variables, one for each integer (`Variable.counting`), since literals may be too long
to be written.
-/

namespace CypherCompose

open Rendering.Says (joined)

namespace Arith

/-- Quotients and remainders, and products that begin with one. -/
def divides : Arith → Bool
  | binary .div _ _ => true
  | binary .mod _ _ => true
  | binary .mul a _ => a.divides
  | _ => false

/-- Products that begin with a quotient or a remainder. -/
def isDividedProduct : Arith → Bool
  | binary .mul a _ => a.divides
  | _ => false

/-- Trees in which no product that begins with a quotient or a remainder stands on the right of a
product. -/
def isLossless : Arith → Bool
  | lit _ _ _ => true
  | var _ => true
  | neg a => a.isLossless
  | binary op a b => a.isLossless && b.isLossless && !(op == .mul && b.isDividedProduct)

/-- The tree with its leaves left blank. -/
def skeleton : Arith → Arith
  | lit _ _ _ => lit false 0 rfl
  | var _ => lit false 0 rfl
  | neg a => neg a.skeleton
  | binary op a b => binary op a.skeleton b.skeleton

end Arith

/-! ## Operators -/

namespace BinaryOp

theorem eval_some {op : BinaryOp} (m n : Int) : op.eval (some m) (some n) = op.compute m n := rfl

theorem eval_add_assoc (x y z : Option Int) :
    add.eval (add.eval x y) z = add.eval x (add.eval y z) := by
  cases x <;> cases y <;> cases z <;> simp [eval, compute, Int.add_assoc]

theorem eval_sub_add (x y z : Option Int) :
    sub.eval (add.eval x y) z = add.eval x (sub.eval y z) := by
  cases x <;> cases y <;> cases z <;> simp [eval, compute, Int.add_sub_assoc]

theorem eval_mul_assoc (x y z : Option Int) :
    mul.eval (mul.eval x y) z = mul.eval x (mul.eval y z) := by
  cases x <;> cases y <;> cases z <;> simp [eval, compute, Int.mul_assoc]

end BinaryOp

/-! ## Chains of sums and of products -/

namespace Term

variable {env : Env}

/-- A sum may be put in front of a chain of sums and differences. -/
theorem value_graft_add (t u : Term) :
    (t.graft .add u).value env = BinaryOp.add.eval (t.value env) (u.value env) := by
  fun_induction graft .add t u with
  | case1 o l r hprec ih =>
    have ho : o = .add ∨ o = .sub := by
      revert hprec
      cases o <;> decide
    rcases ho with rfl | rfl
    · rw [value, ih, value, BinaryOp.eval_add_assoc]
    · rw [value, ih, value, BinaryOp.eval_sub_add]
  | case2 o l r hprec => rfl
  | case3 u hu => rfl

/-- Quotients and remainders, and products that begin with one. -/
def divides : Term → Bool
  | binary .div _ _ => true
  | binary .mod _ _ => true
  | binary .mul l _ => l.divides
  | _ => false

/-- A factor may be put in front of a chain that has products only. -/
theorem value_graft_mul {t u : Term} (h : u.divides = false) :
    (t.graft .mul u).value env = BinaryOp.mul.eval (t.value env) (u.value env) := by
  fun_induction graft .mul t u with
  | case1 o l r hprec ih =>
    obtain rfl : o = .mul := by
      revert hprec h
      cases o <;> simp [divides, BinaryOp.prec]
    rw [value, ih h, value, BinaryOp.eval_mul_assoc]
  | case2 o l r hprec => rfl
  | case3 u hu => rfl

theorem divides_graft_mul (t u : Term) : (t.graft .mul u).divides = (t.divides || u.divides) := by
  fun_induction graft .mul t u with
  | case1 o l r hprec ih =>
    have ho : o = .mul ∨ o = .div ∨ o = .mod := by
      revert hprec
      cases o <;> decide
    rcases ho with rfl | rfl | rfl
    · exact ih
    · simp [divides]
    · simp [divides]
  | case2 o l r hprec =>
    have ho : (binary o l r).divides = false := by
      revert hprec
      cases o <;> simp [divides, BinaryOp.prec]
    rw [ho, Bool.or_false]
    rfl
  | case3 u hu =>
    have hu' : u.divides = false := by
      cases u with
      | binary o l r => exact absurd rfl (hu o l r)
      | _ => rfl
    rw [hu', Bool.or_false]
    rfl

theorem divides_of_prec_ne {t : Term} (h : ∀ o l r, t = binary o l r → o.prec ≠ .product) :
    t.divides = false := by
  cases t with
  | binary o l r =>
    have ho := h o l r rfl
    revert ho
    cases o <;> simp [divides, BinaryOp.prec]
  | _ => rfl

end Term

/-! ## Lossless trees -/

namespace Arith

variable {env : Env}

theorem value_joined {op : ArithOp} (hop : op ≠ .mul) (regroups : Bool) (t u : Term) :
    (joined op.sign regroups t u).value env = op.sign.eval (t.value env) (u.value env) := by
  unfold joined
  split_ifs with hregroups
  · cases op with
    | add => exact Term.value_graft_add t u
    | mul => exact absurd rfl hop
    | _ => cases hregroups
  · rfl

/-- A product begins as its first factor does. -/
theorem divides_of_applies_mul {b : Arith} (h : b.term.applies .mul = true) :
    b.divides = b.isDividedProduct := by
  cases b with
  | lit _ n _ =>
    rw [term] at h
    split_ifs at h <;> cases h
  | var x => rfl
  | neg b => rfl
  | binary op a b =>
    rw [term, applies_joined fun h => h] at h
    cases op with
    | div => cases h
    | mod => cases h
    | _ => rfl

theorem divides_term {a : Arith} (h : a.isLossless = true) : a.term.divides = a.divides := by
  induction a with
  | lit _ n _ =>
    rw [term]
    split_ifs <;> rfl
  | var x => rfl
  | neg a => rfl
  | binary op a b iha ihb =>
    have hsum : op.sign.prec ≠ .product → (binary op a b).term.divides = false := by
      intro hprec
      refine Term.divides_of_prec_ne fun o l r ht => ?_
      rw [Rendering.Says.prec_of_joined ht]
      exact hprec
    rw [isLossless, Bool.and_eq_true, Bool.and_eq_true] at h
    obtain ⟨⟨ha, hb⟩, hmul⟩ := h
    cases op with
    | add => exact hsum (by decide)
    | sub => exact hsum (by decide)
    | div => rfl
    | mod => rfl
    | mul =>
      have hproduct : b.isDividedProduct = false := by simpa using hmul
      rw [term, joined]
      split_ifs with hregroups
      · rw [Bool.and_eq_true] at hregroups
        have hright : b.term.divides = false := by
          rw [ihb hb, divides_of_applies_mul hregroups.2, hproduct]
        rw [ArithOp.sign, Term.divides_graft_mul, hright, Bool.or_false]
        exact iha ha
      · exact iha ha

/-- The text of a lossless tree has its value. -/
theorem value_term {a : Arith} (h : a.isLossless = true) : a.term.value env = a.value env := by
  induction a with
  | lit _ n _ =>
    rw [term]
    split_ifs with hn
    · simp only [Term.value, value, Option.map_some, Option.some.injEq]
      omega
    · simp only [Term.value, value, Option.some.injEq]
      omega
  | var x => rfl
  | neg a ih =>
    rw [term, Term.value, ih h]
    rfl
  | binary op a b iha ihb =>
    rw [isLossless, Bool.and_eq_true, Bool.and_eq_true] at h
    obtain ⟨⟨ha, hb⟩, hmul⟩ := h
    rw [term, value, ← iha ha, ← ihb hb]
    by_cases hop : op = .mul
    · subst hop
      rw [joined]
      split_ifs with hregroups
      · rw [Bool.and_eq_true] at hregroups
        have hright : b.term.divides = false := by
          rw [divides_term hb, divides_of_applies_mul hregroups.2]
          simpa using hmul
        exact Term.value_graft_mul hright
      · rfl
    · exact value_joined hop _ _ _

end Arith

/-! ## Factors in front of a chain -/

namespace BinaryOp

theorem eval_mul_one_left (x : Option Int) : mul.eval (some 1) x = x := by
  cases x <;> simp [eval, compute]

theorem eval_mul_one_right (x : Option Int) : mul.eval x (some 1) = x := by
  cases x <;> simp [eval, compute]

theorem compute_div_one (m : Int) : div.compute m 1 = some m := by
  simp [compute]

theorem compute_mod_of_lt {m n : Int} (h : m.natAbs < n.natAbs) : mod.compute m n = some m := by
  have hn : n ≠ 0 := by omega
  have hmod : m.tmod n = m := by
    have hzero : m.tdiv n = 0 := by
      rw [← Int.natAbs_eq_zero, Int.natAbs_tdiv]
      exact Nat.div_eq_of_lt h
    have hsplit := Int.mul_tdiv_add_tmod m n
    rwa [hzero, Int.mul_zero, Int.zero_add] at hsplit
  rw [compute, if_neg hn, hmod]

end BinaryOp

namespace Term

variable {env : Env} {t u : Term}

theorem value_graft_one (h : t.value env = some 1) : (t.graft .mul u).value env = u.value env := by
  fun_induction graft .mul t u with
  | case1 o l r hprec ih => rw [value, ih, value]
  | case2 o l r hprec => rw [value, h, BinaryOp.eval_mul_one_left]
  | case3 u hu => rw [value, h, BinaryOp.eval_mul_one_left]

theorem value_graft_none (h : t.value env = none) : (t.graft .mul u).value env = none := by
  fun_induction graft .mul t u with
  | case1 o l r hprec ih =>
    rw [value, ih]
    rfl
  | case2 o l r hprec =>
    rw [value, h]
    rfl
  | case3 u hu =>
    rw [value, h]
    rfl

end Term

/-! ## A variable for each integer -/

namespace Variable

/-- A sign, and as many strokes behind it as the integer counts. -/
def strokes (n : Int) : List Char :=
  (if n < 0 then '-' else '+') :: List.replicate n.natAbs 'i'

/-- The integer that strokes behind a sign count. -/
def count : List Char → Int
  | '-' :: cs => -cs.length
  | _ :: cs => cs.length
  | [] => 0

theorem count_strokes (n : Int) : count (strokes n) = n := by
  unfold strokes
  split_ifs with hn
  · rw [count, List.length_replicate]
    omega
  · rw [count, List.length_replicate]
    · omega
    · simp

theorem getLast?_strokes (n : Int) : (strokes n).getLast? ≠ some '\n' := by
  have hmem : '\n' ∉ strokes n := by
    unfold strokes
    split_ifs <;> simp [List.mem_replicate]
  exact fun h => hmem (List.mem_of_getLast? h)

theorem isReserved_strokes (n : Int) : Grammar.isReserved (String.ofList (strokes n)) = false := by
  have hhead : ∀ w ∈ Grammar.reserved, w.toList.head? ≠ some '-' ∧ w.toList.head? ≠ some '+' := by
    decide
  rw [Grammar.isReserved, List.contains_eq_mem, decide_eq_false_iff_not]
  intro hmem
  have h := hhead _ hmem
  rw [Grammar.folded, String.toList_ofList, String.toList_ofList, strokes] at h
  split_ifs at h
  · exact h.1 rfl
  · exact h.2 rfl

/-- The variable that is named by the strokes of an integer. -/
def counting (n : Int) : Variable where
  name := String.ofList (strokes n)
  filled h := by simpa [strokes] using congrArg String.toList h
  noStar h := by
    have hstrokes : strokes n = ['*'] := by simpa using congrArg String.toList h
    unfold strokes at hstrokes
    split_ifs at hstrokes <;> simp at hstrokes
  isName := by
    rw [Normal.isName_iff, isReserved_strokes, Unbroken, String.toList_ofList]
    exact ⟨getLast?_strokes n, rfl⟩

/-- The assignment under which each integer is the value of its variable. -/
def tally : Env :=
  fun x => count x.toList

theorem tally_counting (n : Int) : tally (counting n).name = n := by
  rw [tally, counting, String.toList_ofList, count_strokes]

end Variable

/-! ## Choosing the leaves -/

namespace Arith

open Variable (tally tally_counting)

/-- The tree takes the value `v` for some choice of its leaves for which its text takes `w`. -/
def Reaches (v w : Option Int) (a : Arith) : Prop :=
  ∃ b : Arith, b.skeleton = a.skeleton ∧ b.value tally = v ∧ b.term.value tally = w

namespace Reaches

variable {a b : Arith} {v w v' w' : Option Int}

theorem neg (h : a.Reaches v w) : (neg a).Reaches (v.map (- ·)) (w.map (- ·)) := by
  obtain ⟨a', hs, rfl, rfl⟩ := h
  exact ⟨.neg a', congrArg Arith.neg hs, rfl, rfl⟩

theorem binary (op : ArithOp) (hop : op ≠ .mul) (ha : a.Reaches v w)
    (hb : b.Reaches v' w') :
    (binary op a b).Reaches (op.sign.eval v v') (op.sign.eval w w') := by
  obtain ⟨a', ha', rfl, rfl⟩ := ha
  obtain ⟨b', hb', rfl, rfl⟩ := hb
  exact ⟨.binary op a' b', congrArg₂ (Arith.binary op) ha' hb', rfl, value_joined hop _ _ _⟩

theorem mul_one_left (ha : a.Reaches (some 1) (some 1)) (hb : b.Reaches v w) :
    (Arith.binary .mul a b).Reaches v w := by
  obtain ⟨a', ha', hva, hwa⟩ := ha
  obtain ⟨b', hb', rfl, rfl⟩ := hb
  refine ⟨.binary .mul a' b', congrArg₂ (Arith.binary .mul) ha' hb', ?_, ?_⟩
  · rw [value, hva]
    exact BinaryOp.eval_mul_one_left _
  · rw [term, joined]
    split_ifs
    · exact Term.value_graft_one hwa
    · rw [Term.value, hwa]
      exact BinaryOp.eval_mul_one_left _

end Reaches

theorem reaches_counting (n : Int) : (var (.counting n)).Reaches (some n) (some n) :=
  ⟨var (.counting n), rfl, congrArg some (tally_counting n), congrArg some (tally_counting n)⟩

/-- Every tree takes any value, and its text with it. -/
theorem reaches_self (a : Arith) (n : Int) : a.Reaches (some n) (some n) := by
  induction a generalizing n with
  | lit _ _ _ => exact reaches_counting n
  | var x => exact reaches_counting n
  | neg a ih => simpa using (ih (-n)).neg
  | binary op a b iha ihb =>
    cases op with
    | add =>
      have h := Reaches.binary .add (by decide) (iha n) (ihb 0)
      rwa [ArithOp.sign, BinaryOp.eval_some, BinaryOp.compute, Int.add_zero] at h
    | sub =>
      have h := Reaches.binary .sub (by decide) (iha n) (ihb 0)
      rwa [ArithOp.sign, BinaryOp.eval_some, BinaryOp.compute, Int.sub_zero] at h
    | mul => exact (iha 1).mul_one_left (ihb n)
    | div =>
      have h := Reaches.binary .div (by decide) (iha n) (ihb 1)
      rwa [ArithOp.sign, BinaryOp.eval_some, BinaryOp.compute_div_one] at h
    | mod =>
      have h := Reaches.binary .mod (by decide) (iha n) (ihb (n.natAbs + 1))
      rwa [ArithOp.sign, BinaryOp.eval_some, BinaryOp.compute_mod_of_lt (by omega)] at h

/-- A tree of value one that, as a factor behind a number up to `k`, leaves that number as it is. -/
structure Neutral (k : Nat) (b : Arith) : Prop where
  value : b.value tally = some 1
  text : b.term.value tally = some 1
  graft : ∀ (t : Term) (d : Int), t.value tally = some d → d.natAbs ≤ k →
    (t.graft .mul b.term).value tally = some d

namespace Neutral

variable {k : Nat} {a b : Arith}

theorem of_prec_ne (value : b.value tally = some 1) (text : b.term.value tally = some 1)
    (h : ∀ o l r, b.term = .binary o l r → o.prec ≠ .product) : b.Neutral k where
  value := value
  text := text
  graft t d ht _ := by
    rw [Term.graft_of_prec_ne h, Term.value, text, ht, BinaryOp.eval_mul_one_right]

theorem value_joined (h : b.Neutral k) {t : Term} (ht : ∀ d ∈ t.value tally, d.natAbs ≤ k)
    (regroups : Bool) : (joined .mul regroups t b.term).value tally = t.value tally := by
  unfold joined
  split_ifs
  · cases hd : t.value tally with
    | none => exact Term.value_graft_none hd
    | some d => exact h.graft t d hd (ht d hd)
  · rw [Term.value, h.text, BinaryOp.eval_mul_one_right]

theorem mul (ha : a.Neutral k) (hb : b.Neutral k) (hk : 1 ≤ k) :
    (Arith.binary .mul a b).Neutral k where
  value := by
    rw [Arith.value, ha.value, hb.value]
    rfl
  text := by
    rw [term, ArithOp.sign, hb.value_joined, ha.text]
    rw [ha.text]
    rintro d ⟨⟩
    exact hk
  graft t d ht hd := by
    have hfront := ha.graft t d ht hd
    rw [term, ArithOp.sign, Rendering.Says.graft_joined rfl, hb.value_joined, hfront]
    rw [hfront]
    rintro d' ⟨⟩
    exact hd

/-- In front of a quotient or a remainder a factor comes under the operator. -/
theorem value_graft_divided {op : ArithOp} (hop : op = .div ∨ op = .mod) (ha : a.Neutral k)
    {n d : Int} {t : Term} (hw : b.term.value tally = some n) (ht : t.value tally = some d)
    (hd : d.natAbs ≤ k) :
    (t.graft .mul (Arith.binary op a b).term).value tally = op.sign.compute d n := by
  have hgraft : t.graft .mul (Arith.binary op a b).term =
      .binary op.sign (t.graft .mul a.term) b.term := by
    rcases hop with rfl | rfl <;> rfl
  rw [hgraft, Term.value, ha.graft t d ht hd, hw]
  rfl

/-- A quotient or a remainder that leaves the numbers up to `k` as they are. -/
theorem of_compute {op : ArithOp} (hop : op = .div ∨ op = .mod) {n : Int} (ha : a.Neutral k)
    (hk : 1 ≤ k) (hv : b.value tally = some n) (hw : b.term.value tally = some n)
    (hn : ∀ d : Int, d.natAbs ≤ k → op.sign.compute d n = some d) :
    (Arith.binary op a b).Neutral k where
  value := by
    rw [Arith.value, ha.value, hv]
    exact hn 1 hk
  text := by
    have hterm : (Arith.binary op a b).term = .binary op.sign a.term b.term := by
      rcases hop with rfl | rfl <;> rfl
    rw [hterm, Term.value, ha.text, hw]
    exact hn 1 hk
  graft t d ht hd := (value_graft_divided hop ha hw ht hd).trans (hn d hd)

end Neutral

theorem prec_of_skeleton {c x y : Arith} {op : ArithOp} {o : BinaryOp} {l r : Term}
    (hs : c.skeleton = binary op x y) (ht : c.term = .binary o l r) : o.prec = op.sign.prec := by
  cases c with
  | binary op' a b =>
    cases hs
    exact Rendering.Says.prec_of_joined ht
  | _ => cases hs

theorem exists_neutral {k : Nat} (hk : 1 ≤ k) (a : Arith) :
    ∃ b : Arith, b.skeleton = a.skeleton ∧ b.Neutral k := by
  induction a with
  | lit _ _ _ => exact ⟨lit false 1 rfl, rfl, .of_prec_ne rfl rfl nofun⟩
  | var x => exact ⟨lit false 1 rfl, rfl, .of_prec_ne rfl rfl nofun⟩
  | neg a _ =>
    obtain ⟨b, hs, hv, hw⟩ := a.reaches_self (-1)
    refine ⟨neg b, congrArg neg hs, .of_prec_ne ?_ ?_ fun _ _ _ h => by cases h⟩
    · rw [value, hv]
      rfl
    · rw [term, Term.value, hw]
      rfl
  | binary op a b iha ihb =>
    obtain ⟨a', ha, hneutral⟩ := iha
    have hsum : op.sign.prec ≠ .product → ∃ c : Arith, c.skeleton = (binary op a b).skeleton ∧
        c.Neutral k := by
      intro hprec
      obtain ⟨c, hs, hv, hw⟩ := (binary op a b).reaches_self 1
      exact ⟨c, hs, .of_prec_ne hv hw fun o l r ht => prec_of_skeleton hs ht ▸ hprec⟩
    cases op with
    | add => exact hsum (by decide)
    | sub => exact hsum (by decide)
    | mul =>
      obtain ⟨b', hb, hneutral'⟩ := ihb
      exact ⟨binary .mul a' b', congrArg₂ (binary .mul) ha hb, hneutral.mul hneutral' hk⟩
    | div =>
      obtain ⟨b', hb, hv, hw⟩ := b.reaches_self 1
      refine ⟨binary .div a' b', congrArg₂ (binary .div) ha hb, ?_⟩
      exact hneutral.of_compute (.inl rfl) hk hv hw fun d _ => BinaryOp.compute_div_one d
    | mod =>
      obtain ⟨b', hb, hv, hw⟩ := b.reaches_self (k + 1)
      refine ⟨binary .mod a' b', congrArg₂ (binary .mod) ha hb, ?_⟩
      exact hneutral.of_compute (.inr rfl) hk hv hw fun d hd => BinaryOp.compute_mod_of_lt (by omega)

/-! ## Trees that lose their value -/

/-- Where a tree begins with a quotient or a remainder, it makes a difference whether a factor comes
in front of the first operand or of the whole: one of the two gives `m` and the other zero. -/
theorem exists_distortion {m : Int} (hm : 2 ≤ m.natAbs) {p : Arith}
    (h : p.divides = true) :
    ∃ (b : Arith) (c v w : Int), b.skeleton = p.skeleton ∧ b.value tally = some v ∧
      (∀ t : Term, t.value tally = some c → (t.graft .mul b.term).value tally = some w) ∧
      (c * v = m ∧ w = 0 ∨ c * v = 0 ∧ w = m) := by
  induction p with
  | lit _ n _ => cases h
  | var x => cases h
  | neg a _ => cases h
  | binary op a b iha _ =>
    cases op with
    | add => cases h
    | sub => cases h
    | mul =>
      obtain ⟨a', c, v, w, ha, hv, hgraft, hcases⟩ := iha h
      obtain ⟨b', hb, hneutral⟩ := exists_neutral (k := m.natAbs) (by omega) b
      refine ⟨binary .mul a' b', c, v, w, congrArg₂ (binary .mul) ha hb, ?_, fun t ht => ?_, hcases⟩
      · rw [value, hv, hneutral.value]
        exact BinaryOp.eval_mul_one_right _
      · have hfront := hgraft t ht
        rw [term, ArithOp.sign, Rendering.Says.graft_joined rfl, hneutral.value_joined, hfront]
        rw [hfront]
        rintro d ⟨⟩
        omega
    | div =>
      -- `2m * (1 / 2)` is zero, and `2m * 1 / 2` is `m`
      obtain ⟨a', ha, hneutral⟩ := exists_neutral (k := (m * 2).natAbs) (by omega) a
      obtain ⟨b', hb, hv, hw⟩ := b.reaches_self 2
      refine ⟨binary .div a' b', m * 2, 0, m, congrArg₂ (binary .div) ha hb, ?_, fun t ht => ?_,
        .inr ⟨by omega, rfl⟩⟩
      · rw [value, hneutral.value, hv]
        rfl
      · rw [Neutral.value_graft_divided (.inl rfl) hneutral hw ht (Nat.le_refl _)]
        simp [ArithOp.sign, BinaryOp.compute]
    | mod =>
      -- `m * (1 % |m|)` is `m`, and `m * 1 % |m|` is zero
      obtain ⟨a', ha, hneutral⟩ := exists_neutral (k := m.natAbs) (by omega) a
      obtain ⟨b', hb, hv, hw⟩ := b.reaches_self m.natAbs
      refine ⟨binary .mod a' b', m, 1, 0, congrArg₂ (binary .mod) ha hb, ?_, fun t ht => ?_,
        .inl ⟨by omega, rfl⟩⟩
      · rw [value, hneutral.value, hv]
        exact BinaryOp.compute_mod_of_lt (by omega)
      · rw [Neutral.value_graft_divided (.inr rfl) hneutral hw ht (Nat.le_refl _)]
        have hzero : m.tmod m.natAbs = 0 := by
          rw [← Int.dvd_iff_tmod_eq_zero]
          exact Int.natAbs_dvd.2 (Int.dvd_refl m)
        rw [ArithOp.sign, BinaryOp.compute, if_neg (by omega), hzero]

/-- No value, or zero. -/
def Vanishes (x : Option Int) : Prop :=
  x = none ∨ x = some 0

/-- For some choice of the leaves one of the tree and its text has the value `m`, and the other
vanishes. -/
def Disagrees (m : Int) (a : Arith) : Prop :=
  ∃ x, Vanishes x ∧ (a.Reaches (some m) x ∨ a.Reaches x (some m))

/-- A disagreement is carried to a larger tree. -/
theorem Disagrees.map {a b : Arith} {m n : Int} (h : a.Disagrees m) (f : Option Int → Option Int)
    (hf : f (some m) = some n) (hnone : Vanishes (f none)) (hzero : Vanishes (f (some 0)))
    (hreach : ∀ v w, (∀ d ∈ w, d.natAbs ≤ m.natAbs) → a.Reaches v w →
      b.Reaches (f v) (f w)) : b.Disagrees n := by
  obtain ⟨x, hx, hcases⟩ := h
  have hfx : Vanishes (f x) := by
    rcases hx with rfl | rfl
    · exact hnone
    · exact hzero
  have hbound : ∀ d ∈ x, d.natAbs ≤ m.natAbs := by
    rcases hx with rfl | rfl
    · rintro d ⟨⟩
    · rintro d ⟨⟩
      exact Nat.zero_le _
  refine ⟨f x, hfx, ?_⟩
  rcases hcases with hr | hr
  · exact .inl (hf ▸ hreach _ _ hbound hr)
  · refine .inr (hf ▸ hreach _ _ ?_ hr)
    rintro d ⟨⟩
    exact Nat.le_refl _

theorem Disagrees.left {a : Arith} {m : Int} (hm : 1 ≤ m.natAbs) (h : a.Disagrees m)
    (op : ArithOp) (b : Arith) : (binary op a b).Disagrees m := by
  -- the right operand is chosen so that the operator leaves both `m` and zero as they are
  have hchoose : ∀ n, op ≠ .mul → op.sign.compute m n = some m → op.sign.compute 0 n = some 0 →
      (binary op a b).Disagrees m := by
    intro n hop hn hzero
    refine h.map (op.sign.eval · (some n)) hn (.inl rfl) (.inr hzero) fun v w _ hr => ?_
    exact hr.binary op hop (b.reaches_self n)
  cases op with
  | add => exact hchoose 0 (by decide) (by simp [ArithOp.sign, BinaryOp.compute]) rfl
  | sub => exact hchoose 0 (by decide) (by simp [ArithOp.sign, BinaryOp.compute]) rfl
  | mul =>
    refine h.map id rfl (.inl rfl) (.inr rfl) fun v w hw hr => ?_
    obtain ⟨a', ha, rfl, rfl⟩ := hr
    obtain ⟨b', hb, hneutral⟩ := exists_neutral hm b
    refine ⟨binary .mul a' b', congrArg₂ (binary .mul) ha hb, ?_, hneutral.value_joined hw _⟩
    rw [value, hneutral.value]
    exact BinaryOp.eval_mul_one_right _
  | div => exact hchoose 1 (by decide) (BinaryOp.compute_div_one m) rfl
  | mod =>
    refine hchoose (m.natAbs + 1) (by decide) (BinaryOp.compute_mod_of_lt (by omega)) ?_
    exact BinaryOp.compute_mod_of_lt (by omega)

theorem Disagrees.right {b : Arith} {m : Int} (hm : 2 ≤ m.natAbs)
    (h : ∀ n : Int, 2 ≤ n.natAbs → b.Disagrees n) (op : ArithOp) (a : Arith) :
    (binary op a b).Disagrees m := by
  have hchoose : ∀ l n, 2 ≤ n.natAbs → op ≠ .mul → op.sign.compute l n = some m →
      Vanishes (op.sign.compute l 0) → (binary op a b).Disagrees m := by
    intro l n habs hop hn hzero
    refine (h n habs).map (op.sign.eval (some l)) hn (.inl rfl) hzero fun v w _ hr => ?_
    exact (a.reaches_self l).binary op hop hr
  cases op with
  | add => exact hchoose 0 m hm (by decide) (by simp [ArithOp.sign, BinaryOp.compute]) (.inr rfl)
  | sub =>
    exact hchoose 0 (-m) (by omega) (by decide) (by simp [ArithOp.sign, BinaryOp.compute]) (.inr rfl)
  | mul =>
    refine (h m hm).map id rfl (.inl rfl) (.inr rfl) fun v w _ hr => ?_
    exact (a.reaches_self 1).mul_one_left hr
  | div =>
    refine hchoose (m * m) m hm (by decide) ?_ (.inl rfl)
    have hne : m ≠ 0 := by omega
    simp [ArithOp.sign, BinaryOp.compute, hne]
  | mod =>
    have hmod : BinaryOp.mod.compute m (m.natAbs + 1) = some m :=
      BinaryOp.compute_mod_of_lt (by omega)
    exact hchoose m (m.natAbs + 1) (by omega) (by decide) hmod (.inl rfl)

/-- A product on the right of a product that begins with a quotient or a remainder. -/
theorem disagrees_of_isDividedProduct {m : Int} (hm : 2 ≤ m.natAbs) (a : Arith) {b : Arith}
    (h : b.isDividedProduct = true) : (binary .mul a b).Disagrees m := by
  cases b with
  | binary op p q =>
    cases op with
    | mul =>
      obtain ⟨p', c, v, w, hp, hv, hgraft, hcases⟩ := exists_distortion hm h
      obtain ⟨q', hq, hneutral⟩ := exists_neutral (k := m.natAbs) (by omega) q
      obtain ⟨a', ha, hva, hwa⟩ := a.reaches_self c
      have hreaches : (binary .mul a (binary .mul p q)).Reaches (some (c * v)) (some w) := by
        refine ⟨binary .mul a' (binary .mul p' q'),
          congrArg₂ (binary .mul) ha (congrArg₂ (binary .mul) hp hq), ?_, ?_⟩
        · have hright : (binary .mul p' q').value tally = some v := by
            rw [value, hv, hneutral.value]
            exact BinaryOp.eval_mul_one_right _
          rw [value, hva, hright]
          rfl
        · have happlies : (binary .mul p' q').term.applies .mul = true := by
            rw [term, applies_joined fun h => h]
            rfl
          have hfront := hgraft a'.term hwa
          rw [term, ArithOp.sign, happlies, joined, if_pos (by decide), term, ArithOp.sign,
            Rendering.Says.graft_joined rfl, hneutral.value_joined, hfront]
          rw [hfront]
          rintro d ⟨⟩
          omega
      rcases hcases with ⟨hm', hw⟩ | ⟨hm', hw⟩ <;> rw [hm', hw] at hreaches
      · exact ⟨some 0, .inr rfl, .inl hreaches⟩
      · exact ⟨some 0, .inr rfl, .inr hreaches⟩
    | _ => cases h
  | _ => cases h

theorem disagrees {a : Arith} (h : a.isLossless = false) {m : Int} (hm : 2 ≤ m.natAbs) :
    a.Disagrees m := by
  induction a generalizing m with
  | lit _ n _ => cases h
  | var x => cases h
  | neg a ih =>
    refine (ih h (m := -m) (by omega)).map (Option.map (- ·)) (by simp) (.inl rfl) (.inr rfl) ?_
    exact fun v w _ hr => hr.neg
  | binary op a b iha ihb =>
    rw [isLossless, Bool.and_eq_false_iff, Bool.and_eq_false_iff] at h
    rcases h with (ha | hb) | hmul
    · exact (iha ha hm).left (by omega) op b
    · exact .right hm (fun n hn => ihb hb hn) op a
    · obtain ⟨rfl, hproduct⟩ : op = .mul ∧ b.isDividedProduct = true := by simpa using hmul
      exact disagrees_of_isDividedProduct hm a hproduct

/-! ## The text of a tree -/

theorem divides_skeleton (a : Arith) : a.skeleton.divides = a.divides := by
  induction a with
  | binary op a b iha _ =>
    cases op with
    | mul => exact iha
    | _ => rfl
  | _ => rfl

theorem isLossless_skeleton (a : Arith) : a.skeleton.isLossless = a.isLossless := by
  induction a with
  | binary op a b iha ihb =>
    have hproduct : b.skeleton.isDividedProduct = b.isDividedProduct := by
      cases b with
      | binary op p q =>
        cases op with
        | mul => exact p.divides_skeleton
        | _ => rfl
      | _ => rfl
    rw [skeleton, isLossless, iha, ihb, hproduct, isLossless]
  | neg a ih => exact ih
  | _ => rfl

end Arith

/-- A tree keeps its value in its text, whatever its leaves and the values of its variables, if and
only if no product that begins with a quotient or a remainder stands on the right of a product. -/
theorem textValue_spell_iff_isLossless (r : Registry) (a : Arith) :
    (∀ b : Arith, b.skeleton = a.skeleton → ∀ env : Env, ∃ ts,
      (r.run (Piece.draft .expr b.toValue)).1 = .ok ts ∧
        textValue env (Token.spell ts) = b.value env) ↔ a.isLossless = true := by
  constructor
  · intro h
    by_contra hlossless
    rw [Bool.not_eq_true] at hlossless
    obtain ⟨x, hx, hcases⟩ := Arith.disagrees hlossless (m := 2) (by decide)
    have hagree : ∀ v w, a.Reaches v w → v = w := by
      rintro v w ⟨b, hs, rfl, rfl⟩
      obtain ⟨ts, hts, hvalue⟩ := h b hs Variable.tally
      obtain ⟨ts', hts', hparse⟩ := b.exists_text r
      obtain rfl : ts' = ts := Except.ok.inj (hts'.symm.trans hts)
      rw [← hvalue, textValue, hparse]
      rfl
    have hx' : x = some 2 := by
      rcases hcases with hr | hr
      · exact (hagree _ _ hr).symm
      · exact hagree _ _ hr
    rcases hx with rfl | rfl <;> cases hx'
  · intro hlossless b hs env
    obtain ⟨ts, hts, hparse⟩ := b.exists_text r
    have hb : b.isLossless = true := by
      rw [← b.isLossless_skeleton, hs, a.isLossless_skeleton, hlossless]
    refine ⟨ts, hts, ?_⟩
    rw [textValue, hparse]
    exact Arith.value_term hb

/-- Two times the product of one half and one. -/
def Arith.twoHalves : Arith :=
  .binary .mul (.lit false 2 rfl)
    (.binary .mul (.binary .div (.lit false 1 rfl) (.lit false 2 rfl)) (.lit false 1 rfl))

/-- A half is rounded to zero, but in the text two comes first and is halved. -/
theorem textValue_spell_twoHalves :
    Arith.twoHalves.value (fun _ => 0) = some 0 ∧
      ∃ ts, (Registry.empty.run (Piece.draft .expr Arith.twoHalves.toValue)).1 = .ok ts ∧
        Token.spell ts = "2 * 1 / 2 * 1" ∧ textValue (fun _ => 0) (Token.spell ts) = some 1 := by
  obtain ⟨ts, hts, hparse⟩ := Arith.twoHalves.exists_text Registry.empty
  have hrender : ts = (Expr.binary .mul (.int 2)
      (.binary .mul (.binary .div (.int 1) (.int 2)) (.int 1))).render := by
    have hrun : (Registry.empty.run (Piece.draft .expr Arith.twoHalves.toValue)).1 =
        .ok (Expr.binary .mul (.int 2)
          (.binary .mul (.binary .div (.int 1) (.int 2)) (.int 1))).render :=
      eq_ok_of_toOption (by decide +kernel)
    exact Except.ok.inj (hts.symm.trans hrun)
  refine ⟨rfl, ts, hts, ?_, ?_⟩
  · rw [hrender]
    decide +kernel
  · rw [textValue, hparse]
    rfl

end CypherCompose
