import CypherCompose.Proofs.Grammar
import Mathlib.Data.List.Forall2

/-!
# What the levels of the grammar read

A text is read off the front of what follows it as long as that cannot go on with it: `tightness`
says how tightly the next lexeme binds to what is before it, and `Stops p` that a reader of level `p`
comes to its end there.

`Reads n p ts t` says that the lexemes `ts` are the term `t` at level `p`, whatever follows.
`Reads.loosen` takes it to looser levels.  At a level whose operators group to the left, `Grafts`
says what becomes of `ts` as the right operand of a chain that is already under way.
-/

namespace CypherCompose

namespace Prec

/-- The next tighter level. -/
def tighter : Prec → Prec
  | or => xor
  | xor => and
  | and => not
  | not => comparison
  | comparison => sum
  | sum => product
  | product => power
  | power => negation
  | negation => atom
  | atom => atom

/-- Levels whose operators group to the left. -/
def chains : Prec → Bool
  | or | xor | and | sum | product | power => true
  | _ => false

theorem rank_tighter {p : Prec} (h : p ≠ atom) : p.tighter.rank = p.rank + 1 := by
  cases p with
  | atom => exact absurd rfl h
  | _ => rfl

theorem rank_le_rank_atom (p : Prec) : p.rank ≤ atom.rank := by
  cases p <;> decide

theorem ne_atom_of_chains {p : Prec} (h : p.chains = true) : p ≠ atom := by
  rintro rfl
  cases h

end Prec

namespace Grammar

/-! ## What follows -/

/-- How tightly the lexemes bind to what is before them, from `0` for not at all. -/
def tightness (ts : List Lexeme) : Nat :=
  match operator? ts with
  | some (op, _) => op.prec.rank
  | none =>
      if (word? "is" ts).isSome then Prec.comparison.rank
      else if atPoint ts || (sign? "(" ts).isSome then Prec.atom.rank
      else 0

/-- A reader of level `p` comes to its end where the lexemes start, save that a level whose operators
group to the left may go on with one of them. -/
def Stops (p : Prec) (ts : List Lexeme) : Prop :=
  tightness ts < p.rank ∨ (p.chains = true ∧ tightness ts = p.rank)

theorem Stops.tighten {p q : Prec} {ts : List Lexeme} (h : Stops p ts) (hpq : p.rank < q.rank) :
    tightness ts < q.rank := by
  rcases h with h | ⟨-, h⟩ <;> omega

theorem operator?_of_tightness {ts : List Lexeme} {p : Prec} (h : tightness ts < p.rank) :
    ∀ op rest, operator? ts = some (op, rest) → op.prec.rank < p.rank := by
  intro op rest hop
  rwa [tightness, hop] at h

theorem nullTest?_of_tightness {ts : List Lexeme} (h : tightness ts < Prec.comparison.rank)
    (hop : operator? ts = none) : nullTest? ts = none := by
  rw [tightness, hop] at h
  cases hw : word? "is" ts with
  | none => simp [nullTest?, hw]
  | some rest => simp [hw] at h

theorem atPoint_of_tightness {ts : List Lexeme} (h : tightness ts < Prec.atom.rank) :
    atPoint ts = false ∧ sign? "(" ts = none := by
  unfold tightness at h
  cases hop : operator? ts with
  | some r =>
    -- an operator is neither a point nor a parenthesis
    match ts with
    | .sign s :: us =>
      have hs : ∀ o, signs.lookup s = some o → s ≠ "." ∧ s ≠ "(" := by
        intro o ho
        constructor <;> rintro rfl <;> cases ho
      obtain ⟨o, ho, -⟩ := Option.map_eq_some_iff.1 hop
      simp [atPoint, sign?, hs o ho]
    | .word w :: us => simp [atPoint, sign?]
  | none =>
    rw [hop] at h
    cases hw : word? "is" ts with
    | some rest =>
      match ts with
      | .word w :: us => simp [atPoint, sign?]
    | none =>
      simp only [hw, Option.isSome_none, Bool.false_eq_true, if_false] at h
      split_ifs at h with hp
      · exact absurd h (lt_irrefl _)
      · simpa using hp

/-! ## What starts -/

/-- Whether the lexemes may start an expression of level `q`. -/
def leads (q : Prec) : List Lexeme → Bool
  | .sign s :: _ => ["(", "[", "\x7b"].contains s || (s == "-" && q ≤ Prec.negation)
  | .word w :: ts =>
      atPoint ts || (folded w != "distinct" && (folded w != "not" || q ≤ Prec.not))
  | [] => false
  | _ => true

theorem leads_append {q : Prec} {ts : List Lexeme} (h : leads q ts = true) (us : List Lexeme) :
    leads q (ts ++ us) = true := by
  rcases ts with _ | ⟨t, ts⟩
  · cases h
  · cases t with
    | sign s => exact h
    | word w =>
      rcases ts with _ | ⟨t, ts⟩
      · rw [leads, atPoint, Bool.false_or] at h
        · rw [List.singleton_append, leads, h, Bool.or_true]
        · exact fun _ _ h => by cases h
      · cases t <;> exact h
    | _ => rfl

theorem leads_mono {p q : Prec} {ts : List Lexeme} (h : leads q ts = true) (hpq : p.rank ≤ q.rank) :
    leads p ts = true := by
  have hle : ∀ r : Prec, q ≤ r → p ≤ r := fun r hr => Nat.le_trans hpq hr
  rcases ts with _ | ⟨t, ts⟩
  · cases h
  · cases t with
    | sign s =>
      simp only [leads, Bool.or_eq_true, Bool.and_eq_true, decide_eq_true_eq] at h ⊢
      exact h.imp_right fun h => ⟨h.1, hle _ h.2⟩
    | word w =>
      simp only [leads, Bool.or_eq_true, Bool.and_eq_true, decide_eq_true_eq] at h ⊢
      exact h.imp_right fun h => ⟨h.1, h.2.imp_right (hle _)⟩
    | _ => rfl

theorem sign?_of_leads {q : Prec} {ts : List Lexeme} {s : String} (h : leads q ts = true)
    (hs : s ∈ [")", "]", "\x7d", "*"]) : sign? s ts = none := by
  have hne : ∀ s ∈ [")", "]", "\x7d", "*"],
      ["(", "[", "\x7b"].contains s = false ∧ (s == "-") = false := by decide
  rcases ts with _ | ⟨t, ts⟩
  · rfl
  · cases t with
    | sign s' =>
      have hne : s' ≠ s := by
        rintro rfl
        rw [leads, (hne s' hs).1, (hne s' hs).2] at h
        cases h
      simp [sign?, hne]
    | _ => rfl

theorem atPoint_of_leads {q : Prec} {ts : List Lexeme} (h : leads q ts = true) :
    atPoint ts = false := by
  have hfacts : ["(", "[", "\x7b"].contains "." = false ∧ ("." == "-") = false := by decide
  rcases ts with _ | ⟨t, ts⟩
  · rfl
  · cases t with
    | sign s =>
      have hne : s ≠ "." := by
        rintro rfl
        rw [leads, hfacts.1, hfacts.2] at h
        cases h
      simpa [atPoint] using hne
    | _ => rfl

theorem minus_of_leads {q : Prec} {t : Lexeme} {ts : List Lexeme} (h : leads q (t :: ts) = true)
    (hq : Prec.negation.rank < q.rank) : sign? "-" [t] = none := by
  have hle : ¬ q ≤ Prec.negation := Nat.not_le.2 hq
  cases t with
  | sign s =>
    have hne : s ≠ "-" := by
      rintro rfl
      rw [leads, decide_eq_false hle, Bool.and_false, Bool.or_false] at h
      exact absurd h (by decide)
    simp [sign?, hne]
  | _ => rfl

theorem distinct_of_leads {q : Prec} {ts : List Lexeme} (h : leads q ts = true) :
    keyword? "distinct" ts = none := by
  rcases ts with _ | ⟨t, ts⟩
  · rfl
  · cases t with
    | word w =>
      by_cases hw : folded w = "distinct"
      · have hp : atPoint ts = true := by simpa [leads, hw] using h
        simp [keyword?, word?, hw, hp]
      · simp [keyword?, word?, hw]
    | _ => rfl

theorem not_of_leads {q : Prec} {ts : List Lexeme} (h : leads q ts = true)
    (hq : Prec.not.rank < q.rank) : keyword? "not" ts = none := by
  have hle : ¬ q ≤ Prec.not := Nat.not_le.2 hq
  rcases ts with _ | ⟨t, ts⟩
  · rfl
  · cases t with
    | word w =>
      by_cases hw : folded w = "not"
      · have hp : atPoint ts = true := by simpa [leads, hw, hle] using h
        simp [keyword?, word?, hw, hp]
      · simp [keyword?, word?, hw]
    | _ => rfl

/-! ## Levels -/

/-- The lexemes of an operator. -/
def operatorLexemes (op : BinaryOp) : List Lexeme :=
  (Token.sym op.token).lexemes

theorem operator?_operatorLexemes (op : BinaryOp) (rest : List Lexeme) :
    operator? (operatorLexemes op ++ rest) = some (op, rest) := by
  cases op <;> rfl

theorem operatorLexemes_ne_nil (op : BinaryOp) : operatorLexemes op ≠ [] := by
  intro h
  have hop := operator?_operatorLexemes op []
  rw [h] at hop
  cases hop

theorem tightness_operatorLexemes (op : BinaryOp) (rest : List Lexeme) :
    tightness (operatorLexemes op ++ rest) = op.prec.rank := by
  rw [tightness, operator?_operatorLexemes]

section Levels

variable (a : Reader Term)

/-- How a level goes on behind its first operand. -/
def tail (p : Prec) (t : Term) (ts : List Lexeme) : Option (Term × List Lexeme) :=
  if p.chains then chainFrom p (level a p.tighter) t ts else some (t, ts)

/-- The lexemes are the term at a level, whatever follows. -/
def Reads (p : Prec) (ts : List Lexeme) (t : Term) : Prop :=
  ∀ rest, Stops p rest → level a p (ts ++ rest) = tail a p t rest

/-- The lexemes, as the right operand of an operator of the level, are put behind what was read
before as `Term.graft` puts the term. -/
def Grafts (p : Prec) (ts : List Lexeme) (t : Term) : Prop :=
  ∀ (op : BinaryOp) (s : Term) (rest : List Lexeme), op.prec = p → Stops p rest →
    chainFrom p (level a p.tighter) s (operatorLexemes op ++ (ts ++ rest)) =
      chainFrom p (level a p.tighter) (s.graft op t) rest

variable {a} {p q : Prec} {ts : List Lexeme} {t : Term}

theorem level_of_chains (h : p.chains = true) : level a p = chain p (level a p.tighter) := by
  cases p <;> first | rfl | cases h

theorem chainFrom_of_tightness {operand : Reader Term} {rest : List Lexeme}
    (h : tightness rest < p.rank) : chainFrom p operand t rest = some (t, rest) := by
  rw [chainFrom]
  cases hop : operator? rest with
  | none => rfl
  | some r =>
    have hlt := operator?_of_tightness h r.1 r.2 hop
    have hne : r.1.prec ≠ p := by
      rintro rfl
      exact lt_irrefl _ hlt
    exact if_neg hne

theorem tail_of_tightness {rest : List Lexeme} (h : tightness rest < p.rank) :
    tail a p t rest = some (t, rest) := by
  unfold tail
  split_ifs
  · exact chainFrom_of_tightness h
  · rfl

theorem Reads.done (h : Reads a p ts t) {rest : List Lexeme} (hrest : tightness rest < p.rank) :
    level a p (ts ++ rest) = some (t, rest) := by
  rw [h rest (.inl hrest), tail_of_tightness hrest]

theorem comparisonFrom_of_tightness {rest : List Lexeme}
    (h : tightness rest < Prec.comparison.rank) : comparisonFrom a t rest = some (t, rest) := by
  unfold comparisonFrom
  cases hop : operator? rest with
  | none => simp [nullTest?_of_tightness h hop]
  | some r =>
    have hlt := operator?_of_tightness h r.1 r.2 hop
    have hne : r.1.prec ≠ .comparison := by
      intro he
      rw [he] at hlt
      exact lt_irrefl _ hlt
    exact if_neg hne

theorem Reads.descend (hp : p ≠ .atom) (h : Reads a p.tighter ts t)
    (hl : leads p.tighter ts = true) : Reads a p ts t := by
  intro rest hrest
  have hlt : p.rank < p.tighter.rank := by
    rw [Prec.rank_tighter hp]
    exact Nat.lt_succ_self _
  have hdone := h.done (hrest.tighten hlt)
  by_cases hc : p.chains = true
  · rw [level_of_chains hc, tail, if_pos hc]
    simp [chain, hdone]
  · have hloose : tightness rest < p.rank := hrest.resolve_right fun h => hc h.1
    rw [tail_of_tightness hloose]
    obtain ⟨x, xs, rfl⟩ : ∃ x xs, ts = x :: xs :=
      List.exists_cons_of_ne_nil fun h => by rw [h] at hl; cases hl
    have hl' := leads_append hl rest
    cases p with
    | not =>
      have hnot := not_of_leads hl' (by decide)
      have hcomparison : comparison a (x :: xs ++ rest) = some (t, rest) := hdone
      rw [List.cons_append] at hnot hcomparison ⊢
      simpa [level, denial, hnot] using hcomparison
    | comparison =>
      have hsum : sum a (x :: xs ++ rest) = some (t, rest) := hdone
      simp only [level, comparison, hsum]
      exact comparisonFrom_of_tightness hloose
    | negation =>
      have hminus := minus_of_leads hl (by decide)
      have hatom : a (x :: xs ++ rest) = some (t, rest) := hdone
      rw [List.cons_append] at hatom ⊢
      simpa [level, negation, hminus] using hatom
    | atom => exact absurd rfl hp
    | _ => exact absurd rfl hc

theorem Reads.loosen (h : Reads a q ts t) (hl : leads q ts = true) (hpq : p.rank ≤ q.rank) :
    Reads a p ts t := by
  -- one level at a time, from `q` up to `p`
  induction hd : q.rank - p.rank generalizing p with
  | zero =>
    obtain rfl : p = q := Prec.rank_injective (by omega)
    exact h
  | succ d ih =>
    have hne : p ≠ .atom := by
      rintro rfl
      have := q.rank_le_rank_atom
      omega
    have hone := Prec.rank_tighter hne
    have hle : p.tighter.rank ≤ q.rank := by omega
    exact (ih hle (by omega)).descend hne (leads_mono hl hle)

/-! ## Chains -/

theorem chainFrom_operand (hp : p.chains = true) (h : Reads a p.tighter ts t) {op : BinaryOp}
    (hop : op.prec = p) (s : Term) {rest : List Lexeme} (hrest : Stops p rest) :
    chainFrom p (level a p.tighter) s (operatorLexemes op ++ (ts ++ rest)) =
      chainFrom p (level a p.tighter) (.binary op s t) rest := by
  have htighter := Prec.rank_tighter (Prec.ne_atom_of_chains hp)
  have hdone := h.done (hrest.tighten (by omega))
  have hlength : rest.length < (operatorLexemes op ++ (ts ++ rest)).length := by
    have := List.length_pos_iff.2 (operatorLexemes_ne_nil op)
    simp only [List.length_append]
    omega
  rw [chainFrom, operator?_operatorLexemes]
  simp only [hop, if_true, hdone, hlength]

end Levels

end Grammar

namespace Term

theorem graft_of_prec_ne {op : BinaryOp} {t u : Term}
    (h : ∀ o l r, u = binary o l r → o.prec ≠ op.prec) : t.graft op u = binary op t u := by
  cases u with
  | binary o l r => exact if_neg (h o l r rfl)
  | _ => rfl

theorem graft_graft {op o : BinaryOp} (h : op.prec = o.prec) (s t u : Term) :
    s.graft op (t.graft o u) = (s.graft op t).graft o u := by
  fun_induction graft o t u with
  | case1 o' l r hprec ih =>
    have hop : o'.prec = op.prec := hprec.trans h.symm
    rw [graft, if_pos hop, ih, graft, if_pos hprec]
  | case2 o' l r hprec => rw [graft, if_pos h.symm, graft, if_neg hprec]
  | case3 u hu =>
    rw [graft, if_pos h.symm, graft_of_prec_ne fun o' l r he => absurd he (hu o' l r)]

theorem prec_of_graft {op o : BinaryOp} {s t l r : Term} (h : s.graft op t = binary o l r) :
    o.prec = op.prec := by
  cases t with
  | binary o' l' r' =>
    rw [graft] at h
    split_ifs at h with hprec
    · cases h
      exact hprec
    · cases h
      rfl
  | _ => cases h; rfl

end Term

namespace Grammar

variable {a : Reader Term} {p : Prec} {ts us : List Lexeme} {t u : Term} {op : BinaryOp}

theorem Grafts.of_reads (hp : p.chains = true) (h : Reads a p.tighter ts t)
    (htop : ∀ o l r, t = .binary o l r → o.prec ≠ p) : Grafts a p ts t := by
  intro op s rest hop hrest
  rw [chainFrom_operand hp h hop s hrest,
    Term.graft_of_prec_ne fun o l r he => hop ▸ htop o l r he]

theorem stops_operatorLexemes (hop : op.prec = p) (hp : p.chains = true) (rest : List Lexeme) :
    Stops p (operatorLexemes op ++ rest) :=
  .inr ⟨hp, by rw [tightness_operatorLexemes, hop]⟩

/-- Two operands under an operator whose level groups to the left; `f` says what the right one makes
of what was read before it. -/
theorem Reads.chain {f : Term → Term} (hp : p.chains = true) (hop : op.prec = p)
    (ht : Reads a p ts t)
    (hu : ∀ s rest, Stops p rest → chainFrom p (level a p.tighter) s
      (operatorLexemes op ++ (us ++ rest)) = chainFrom p (level a p.tighter) (f s) rest) :
    Reads a p (ts ++ (operatorLexemes op ++ us)) (f t) := by
  intro rest hrest
  rw [List.append_assoc, ht _ (List.append_assoc _ _ _ ▸ stops_operatorLexemes hop hp _)]
  simp only [tail, hp, if_true]
  rw [List.append_assoc, hu t rest hrest]

theorem Grafts.chain {f : Term → Term} (hp : p.chains = true) (hop : op.prec = p)
    (ht : Grafts a p ts t)
    (hu : ∀ s rest, Stops p rest → chainFrom p (level a p.tighter) s
      (operatorLexemes op ++ (us ++ rest)) = chainFrom p (level a p.tighter) (f s) rest)
    (hf : ∀ (o : BinaryOp) (s : Term), o.prec = p → s.graft o (f t) = f (s.graft o t)) :
    Grafts a p (ts ++ (operatorLexemes op ++ us)) (f t) := by
  intro o s rest ho hrest
  have hstops : Stops p (operatorLexemes op ++ (us ++ rest)) := stops_operatorLexemes hop hp _
  rw [List.append_assoc, List.append_assoc, ht o s _ ho hstops, hu _ rest hrest, hf o s ho]

theorem Reads.comparison (hop : op.prec = .comparison) (ht : Reads a .sum ts t)
    (hu : Reads a .sum us u) :
    Reads a .comparison (ts ++ (operatorLexemes op ++ us)) (.binary op t u) := by
  intro rest hrest
  have hlt : tightness rest < Prec.comparison.rank := hrest.resolve_right fun h => by cases h.1
  have hsum : sum a (ts ++ (operatorLexemes op ++ (us ++ rest)))
      = some (t, operatorLexemes op ++ (us ++ rest)) :=
    ht.done (by rw [tightness_operatorLexemes, hop]; decide)
  have hright : sum a (us ++ rest) = some (u, rest) := hu.done (Nat.lt_succ_of_lt hlt)
  rw [tail_of_tightness hlt, List.append_assoc, List.append_assoc]
  simp [level, Grammar.comparison, hsum, comparisonFrom, operator?_operatorLexemes, hop, hright]

/-- The lexemes of a null test. -/
def testLexemes (op : UnaryOp) : List Lexeme :=
  (Token.sym op.token).lexemes

theorem Reads.nullTest {op : UnaryOp} (hop : op = .isNull ∨ op = .isNotNull)
    (ht : Reads a .sum ts t) : Reads a .comparison (ts ++ testLexemes op) (.unary op t) := by
  intro rest hrest
  have hlt : tightness rest < Prec.comparison.rank := hrest.resolve_right fun h => by cases h.1
  have htest : operator? (testLexemes op ++ rest) = none ∧
      nullTest? (testLexemes op ++ rest) = some (op, rest) ∧
      tightness (testLexemes op ++ rest) = Prec.comparison.rank := by
    rcases hop with rfl | rfl <;> exact ⟨rfl, rfl, rfl⟩
  have hsum : sum a (ts ++ (testLexemes op ++ rest)) = some (t, testLexemes op ++ rest) :=
    ht.done (by rw [htest.2.2]; decide)
  rw [tail_of_tightness hlt, List.append_assoc]
  simp [level, Grammar.comparison, hsum, comparisonFrom, htest.1, htest.2.1]

theorem Reads.not (ht : Reads a .not ts t) (hl : leads .not ts = true) :
    Reads a .not (.word "NOT" :: ts) (.unary .not t) := by
  intro rest hrest
  have hlt : tightness rest < Prec.not.rank := hrest.resolve_right fun h => by cases h.1
  have hpoint : atPoint (ts ++ rest) = false := atPoint_of_leads (leads_append hl rest)
  have hnot : (keyword? "not" (.word "NOT" :: (ts ++ rest))).isSome = true := by
    have hfolded : folded "NOT" = "not" := by decide
    simp [keyword?, word?, hfolded, hpoint]
  have hdenial : denial a (ts ++ rest) = some (t, rest) := ht.done hlt
  rw [tail_of_tightness hlt, List.cons_append]
  simp [level, denial, hnot, hdenial]

theorem Reads.minus (ht : Reads a .negation ts t) :
    Reads a .negation (.sign "-" :: ts) (.unary .neg t) := by
  intro rest hrest
  have hlt : tightness rest < Prec.negation.rank := hrest.resolve_right fun h => by cases h.1
  have hnegation : negation a (ts ++ rest) = some (t, rest) := ht.done hlt
  have hminus : (sign? "-" [.sign "-"]).isSome = true := by decide
  rw [tail_of_tightness hlt, List.cons_append]
  simp [level, negation, hminus, hnegation]

end Grammar

end CypherCompose
