import CypherCompose.Proofs.Brackets
import CypherCompose.Proofs.Enclosure

/-!
# Renderings and what they say

`Rendering.Says r t` is what a rendering needs to know about itself to be used inside another: its
lexemes are the term `t` at its own level, it may stand as an operand under an operator of that level,
and its disjuncts, put together without parentheses, are `t` at the level of OR.

It goes along with what rendering does: for operators (`Says.binary`, `Says.unary`) it is a matter of
levels, and atoms are read on their own, whatever they hold between their brackets.
-/

namespace CypherCompose

open Token Grammar

/-- The reader of atoms whose brackets nest at most so deep. -/
abbrev Grammar.atomUpTo (n : Nat) : Reader Term :=
  Grammar.atom (expression n)

namespace Rendering

/-- The lexemes of a rendering. -/
def lexemes (r : Rendering) : List Lexeme :=
  lexemesAll r.tokens

/-- The lexemes of the disjuncts with an OR between them. -/
def opened (r : Rendering) : List Lexeme :=
  lexemesAll (List.intercalate [blank, sym BinaryOp.or.token, blank] r.disjuncts)

/-- The rendering is the text of the term. -/
structure Says (r : Rendering) (t : Term) : Prop where
  filled : lexemesAll (fill r.tokens) = r.lexemes
  leads : leads r.prec r.lexemes = true
  reads : ∀ n, r.lexemes.length ≤ n + 1 → Reads (atomUpTo n) r.prec r.lexemes t
  grafts : r.prec.chains = true → ∀ n, r.lexemes.length ≤ n + 1 →
    Grafts (atomUpTo n) r.prec r.lexemes t
  top : ∀ o l u, t = .binary o l u → o.prec = r.prec ∨ o = .or
  split : r.disjuncts ≠ []
  opens : ∀ n, r.opened.length ≤ n + 1 →
    Reads (atomUpTo n) .or r.opened t ∧ Grafts (atomUpTo n) .or r.opened t

theorem opened_single (prec : Prec) (tokens : List Token) :
    (single prec tokens).opened = lexemesAll tokens := by
  simp [opened, single, List.intercalate]

namespace Says

variable {r : Rendering} {t : Term} {p : Prec} {n : Nat}

theorem reads_at (h : r.Says t) (hp : p.rank ≤ r.prec.rank) (hn : r.lexemes.length ≤ n + 1) :
    Reads (atomUpTo n) p r.lexemes t :=
  (h.reads n hn).loosen h.leads hp

/-- A rendering that is not an OR. -/
theorem of_single {prec : Prec} {tokens : List Token} (hprec : prec ≠ .or)
    (filled : lexemesAll (fill tokens) = lexemesAll tokens)
    (leads : Grammar.leads prec (lexemesAll tokens) = true)
    (reads : ∀ n, (lexemesAll tokens).length ≤ n + 1 →
      Reads (atomUpTo n) prec (lexemesAll tokens) t)
    (grafts : prec.chains = true → ∀ n, (lexemesAll tokens).length ≤ n + 1 →
      Grafts (atomUpTo n) prec (lexemesAll tokens) t)
    (top : ∀ o l u, t = .binary o l u → o.prec = prec) : (single prec tokens).Says t where
  filled := filled
  leads := leads
  reads := reads
  grafts := grafts
  top o l u h := .inl (top o l u h)
  split := by simp [Rendering.single]
  opens n hn := by
    rw [opened_single] at hn ⊢
    have hxor : Prec.xor.rank ≤ prec.rank := by
      cases prec with
      | or => exact absurd rfl hprec
      | _ => decide
    refine ⟨(reads n hn).loosen leads (Nat.le_of_succ_le hxor), ?_⟩
    exact .of_reads rfl ((reads n hn).loosen leads hxor) fun o l u h => top o l u h ▸ hprec

/-! ## Parentheses -/

theorem tightness_sign {s : String} (h : s ∈ [")", "]", "\x7d", ","]) (rest : List Lexeme) :
    tightness (.sign s :: rest) = 0 := by
  simp only [List.mem_cons, List.not_mem_nil, or_false] at h
  rcases h with rfl | rfl | rfl | rfl <;> rfl

/-- An expression between brackets is read whole. -/
theorem expression_of_reads {ts : List Lexeme} (h : Reads (atomUpTo n) .or ts t)
    {rest : List Lexeme} (hrest : tightness rest = 0) :
    expression (n + 1) (ts ++ rest) = some (t, rest) :=
  h.done (by rw [hrest]; decide)

theorem reads_parens {ts : List Lexeme} (h : Reads (atomUpTo n) .or ts t) :
    Reads (atomUpTo (n + 1)) .atom (.sign "(" :: (ts ++ [Lexeme.sign ")"])) t := by
  intro rest hrest
  have hinside := expression_of_reads h (tightness_sign (s := ")") (by decide) rest)
  have hlt : tightness rest < Prec.atom.rank := hrest.resolve_right fun h => by cases h.1
  rw [tail_of_tightness hlt]
  simp [level, Grammar.atom, bracketFrom, hinside, sign?]

theorem lexemesAll_parens (h : r.Says t) :
    lexemesAll (parens r.tokens) = .sign "(" :: (r.lexemes ++ [Lexeme.sign ")"]) := by
  have hopen : (sym "(").lexemes = [.sign "("] := by decide
  have hclose : (sym ")").lexemes = [.sign ")"] := by decide
  simp [parens, h.filled, hopen, hclose]

/-- An operand is read at any level that its parentheses, or the lack of them, allow for. -/
theorem guarded (h : r.Says t) {b : Bool} (hp : b = false → p.rank ≤ r.prec.rank)
    (hn : (lexemesAll (r.guarded b)).length ≤ n + 1) :
    Grammar.leads p (lexemesAll (r.guarded b)) = true ∧
      Reads (atomUpTo n) p (lexemesAll (r.guarded b)) t := by
  cases b with
  | true =>
    have hparens : lexemesAll (r.guarded true) = .sign "(" :: (r.lexemes ++ [Lexeme.sign ")"]) :=
      h.lexemesAll_parens
    rw [hparens] at hn ⊢
    have hleads : Grammar.leads .atom (.sign "(" :: (r.lexemes ++ [Lexeme.sign ")"])) = true := rfl
    obtain ⟨m, rfl⟩ : ∃ m, n = m + 1 := ⟨n - 1, by simp at hn; omega⟩
    have hinside : Reads (atomUpTo m) .or r.lexemes t := by
      refine h.reads_at ?_ (by simp at hn; omega)
      cases r.prec <;> decide
    exact ⟨leads_mono hleads p.rank_le_rank_atom,
      (reads_parens hinside).loosen hleads p.rank_le_rank_atom⟩
  | false =>
    have hfilled : lexemesAll (r.guarded false) = r.lexemes := h.filled
    rw [hfilled] at hn ⊢
    exact ⟨leads_mono h.leads (hp rfl), h.reads_at (hp rfl) hn⟩

/-- An operand with parentheses only where it is looser than the operator it stands under. -/
theorem guarded_grafts (h : r.Says t) (hp : p.chains = true) (hor : p ≠ .or)
    (hn : (lexemesAll (r.guarded (r.prec < p))).length ≤ n + 1) :
    Grafts (atomUpTo n) p (lexemesAll (r.guarded (r.prec < p))) t := by
  by_cases heq : r.prec = p
  · have hneeded : decide (r.prec < p) = false := decide_eq_false (heq ▸ Nat.lt_irrefl _)
    have hfilled : lexemesAll (r.guarded false) = r.lexemes := h.filled
    rw [hneeded, hfilled] at hn ⊢
    subst heq
    exact h.grafts hp n hn
  · have htighter := Prec.rank_tighter (Prec.ne_atom_of_chains hp)
    have hreads := h.guarded (p := p.tighter) (fun hneeded => ?_) hn
    · refine .of_reads hp hreads.2 fun o l u ht => ?_
      rcases h.top o l u ht with ho | rfl
      · rwa [ho]
      · exact hor.symm
    · have hle : ¬ r.prec.rank < p.rank := of_decide_eq_false hneeded
      have hne : r.prec.rank ≠ p.rank := fun h => heq (Prec.rank_injective h)
      omega

/-! ## Operators -/

/-- Two terms under an operator, regrouped to the left if the right one is not between
parentheses. -/
def joined (op : BinaryOp) (regroups : Bool) (t u : Term) : Term :=
  if op.isAssociative && regroups then t.graft op u else .binary op t u

theorem prec_of_joined {op o : BinaryOp} {regroups : Bool} {t u l v : Term}
    (h : joined op regroups t u = .binary o l v) : o.prec = op.prec := by
  unfold joined at h
  split_ifs at h
  · exact Term.prec_of_graft h
  · cases h
    rfl

theorem graft_joined {op o : BinaryOp} (ho : o.prec = op.prec) (regroups : Bool) (s t u : Term) :
    s.graft o (joined op regroups t u) = joined op regroups (s.graft o t) u := by
  unfold joined
  split_ifs
  · exact Term.graft_graft ho s t u
  · rw [Term.graft, if_pos ho.symm]

theorem fill_of_length {ts : List Token} (h : ts.length ≠ 1) : fill ts = ts := by
  unfold fill
  split
  · exact absurd rfl h
  · rfl

theorem prec_cases (op : BinaryOp) :
    op = .or ∨ (op.prec ≠ .or ∧ op.prec.chains = true) ∨ op.prec = .comparison := by
  cases op <;> decide

variable {l : Rendering} {u : Term}

theorem right_operand {op : BinaryOp} {regroups : Bool} (hr : r.Says u) (hop : op.prec.chains = true)
    (hor : op.prec ≠ .or)
    (hn : (lexemesAll (r.guarded (r.prec < op.prec || (r.prec = op.prec &&
      !(op.isAssociative && regroups))))).length ≤ n + 1) (s : Term) (rest : List Lexeme)
    (hrest : Stops op.prec rest) :
    chainFrom op.prec (level (atomUpTo n) op.prec.tighter) s (operatorLexemes op ++
      (lexemesAll (r.guarded (r.prec < op.prec || (r.prec = op.prec &&
        !(op.isAssociative && regroups)))) ++ rest)) =
      chainFrom op.prec (level (atomUpTo n) op.prec.tighter) (joined op regroups s u) rest := by
  by_cases hregroups : (op.isAssociative && regroups) = true
  · rw [joined, if_pos hregroups]
    simp only [hregroups, Bool.not_true, Bool.and_false, Bool.or_false] at hn ⊢
    exact hr.guarded_grafts hop hor hn op s rest rfl hrest
  · rw [joined, if_neg hregroups]
    rw [Bool.not_eq_true] at hregroups
    simp only [hregroups, Bool.not_false, Bool.and_true] at hn ⊢
    have htighter := Prec.rank_tighter (Prec.ne_atom_of_chains hop)
    refine chainFrom_operand hop (hr.guarded (fun hneeded => ?_) hn).2 rfl s hrest
    simp only [Bool.or_eq_false_iff, decide_eq_false_iff_not] at hneeded
    have hle : ¬ r.prec.rank < op.prec.rank := hneeded.1
    have hne : r.prec.rank ≠ op.prec.rank := fun h => hneeded.2 (Prec.rank_injective h)
    omega

theorem lexemesAll_between (left right : List Token) (op : BinaryOp) :
    lexemesAll (left ++ [blank, sym op.token, blank] ++ right) =
      lexemesAll left ++ (operatorLexemes op ++ lexemesAll right) := by
  simp [operatorLexemes]

theorem fill_between (left right : List Token) (op : BinaryOp) :
    fill (left ++ [blank, sym op.token, blank] ++ right) =
      left ++ [blank, sym op.token, blank] ++ right :=
  fill_of_length (by simp; omega)

theorem binary_chain {op : BinaryOp} (hl : l.Says t) (hr : r.Says u) (hop : op.prec.chains = true)
    (hor : op.prec ≠ .or) (regroups : Bool) :
    (single op.prec (l.guarded (l.prec < op.prec) ++ [blank, sym op.token, blank] ++
      r.guarded (r.prec < op.prec || (r.prec = op.prec && !(op.isAssociative && regroups))))).Says
      (joined op regroups t u) := by
  have hloose : decide (l.prec < op.prec) = false → op.prec.rank ≤ l.prec.rank := fun h =>
    Nat.le_of_not_lt (of_decide_eq_false h)
  refine of_single hor ?_ ?_ ?_ ?_ fun o a b h => prec_of_joined h
  · rw [fill_between]
  · rw [lexemesAll_between]
    exact leads_append (hl.guarded hloose (Nat.le_succ _)).1 _
  · intro n hn
    rw [lexemesAll_between] at hn ⊢
    simp only [List.length_append] at hn
    have hleft := (hl.guarded (n := n) hloose (by omega)).2
    exact Reads.chain (f := (joined op regroups · u)) hop rfl hleft
      (right_operand hr hop hor (by omega))
  · intro _ n hn
    rw [lexemesAll_between] at hn ⊢
    simp only [List.length_append] at hn
    have hleft := hl.guarded_grafts (n := n) hop hor (by omega)
    exact Grafts.chain (f := (joined op regroups · u)) hop rfl hleft
      (right_operand hr hop hor (by omega)) fun o s ho => graft_joined ho regroups s t u

theorem binary_comparison {op : BinaryOp} (hl : l.Says t) (hr : r.Says u)
    (hop : op.prec = .comparison) :
    (single op.prec (l.guarded (l.prec < op.prec || l.prec = op.prec) ++ [blank, sym op.token, blank] ++
      r.guarded (r.prec < op.prec || r.prec = op.prec))).Says (.binary op t u) := by
  have hloose : ∀ q : Prec, (decide (q < op.prec) || decide (q = op.prec)) = false →
      Prec.sum.rank ≤ q.rank := by
    rw [hop]
    intro q
    cases q <;> decide
  refine of_single (by rw [hop]; decide) ?_ ?_ ?_ ?_ ?_
  · rw [fill_between]
  · have hleads := (hl.guarded (hloose l.prec) (Nat.le_succ _)).1
    rw [lexemesAll_between]
    exact leads_append (leads_mono hleads (by rw [hop]; decide)) _
  · intro n hn
    rw [lexemesAll_between] at hn ⊢
    simp only [List.length_append] at hn
    have hleft := (hl.guarded (n := n) (hloose l.prec) (by omega)).2
    have hright := (hr.guarded (n := n) (hloose r.prec) (by omega)).2
    have hboth := Reads.comparison hop hleft hright
    rwa [← hop] at hboth
  · intro hchains
    rw [hop] at hchains
    cases hchains
  · intro o a b h
    cases h
    rfl

theorem intercalate_append (sep : List Token) {xs ys : List (List Token)} (hx : xs ≠ [])
    (hy : ys ≠ []) :
    List.intercalate sep (xs ++ ys) = List.intercalate sep xs ++ sep ++ List.intercalate sep ys := by
  induction xs with
  | nil => exact absurd rfl hx
  | cons x xs ih =>
    cases xs with
    | nil => simp [List.intercalate_cons_of_ne_nil hy]
    | cons x' xs =>
      rw [List.cons_append, List.intercalate_cons_of_ne_nil (by simp), ih (by simp),
        List.intercalate_cons_cons]
      simp

theorem opened_disjunction (hl : l.Says t) (hr : r.Says u) :
    (disjunction l r).opened = l.opened ++ (operatorLexemes .or ++ r.opened) := by
  have hjoin : List.intercalate [blank, sym BinaryOp.or.token, blank] (l.disjuncts ++ r.disjuncts) =
      List.intercalate [blank, sym BinaryOp.or.token, blank] l.disjuncts ++
        [blank, sym BinaryOp.or.token, blank] ++
        List.intercalate [blank, sym BinaryOp.or.token, blank] r.disjuncts :=
    intercalate_append _ hl.split hr.split
  rw [opened, disjunction, hjoin]
  exact lexemesAll_between _ _ .or

theorem disjunction (hl : l.Says t) (hr : r.Says u) :
    (disjunction l r).Says (t.graft .or u) := by
  have hopens : ∀ n, (Rendering.disjunction l r).opened.length ≤ n + 1 →
      Reads (atomUpTo n) .or (Rendering.disjunction l r).opened (t.graft .or u) ∧
        Grafts (atomUpTo n) .or (Rendering.disjunction l r).opened (t.graft .or u) := by
    intro n hn
    rw [opened_disjunction hl hr] at hn ⊢
    simp only [List.length_append] at hn
    obtain ⟨hlreads, hlgrafts⟩ := hl.opens n (by omega)
    obtain ⟨-, hrgrafts⟩ := hr.opens n (by omega)
    have hright : ∀ s rest, Stops .or rest → chainFrom .or (level (atomUpTo n) .xor) s
        (operatorLexemes .or ++ (r.opened ++ rest)) =
          chainFrom .or (level (atomUpTo n) .xor) (s.graft .or u) rest :=
      fun s rest hrest => hrgrafts .or s rest rfl hrest
    exact ⟨Reads.chain (f := (Term.graft .or · u)) rfl rfl hlreads hright,
      Grafts.chain (f := (Term.graft .or · u)) rfl rfl hlgrafts hright
        fun o s ho => Term.graft_graft ho s t u⟩
  have hparens : (Rendering.disjunction l r).lexemes =
      .sign "(" :: ((Rendering.disjunction l r).opened ++ [Lexeme.sign ")"]) := by
    have hopen : (sym "(").lexemes = [.sign "("] := by decide
    have hclose : (sym ")").lexemes = [.sign ")"] := by decide
    simp [lexemes, opened, Rendering.disjunction, hopen, hclose]
  exact {
    filled := by rw [fill_of_length (by simp [Rendering.disjunction])]; rfl
    leads := by rw [hparens]; rfl
    reads := by
      intro n hn
      rw [hparens] at hn ⊢
      obtain ⟨m, rfl⟩ : ∃ m, n = m + 1 := ⟨n - 1, by simp at hn; omega⟩
      exact reads_parens (hopens m (by simp at hn; omega)).1
    grafts := fun hchains => by cases hchains
    top := by
      intro o a b h
      have ho := Term.prec_of_graft h
      right
      revert ho
      cases o <;> decide
    split := by simp [Rendering.disjunction, hl.split]
    opens := hopens }

/-- Two terms as the operands of an operator, as their texts group them. -/
def combined (op : BinaryOp) (regroups : Bool) (t u : Term) : Term :=
  if op = .or then t.graft .or u else joined op regroups t u

theorem binary (hl : l.Says t) (hr : r.Says u) (op : BinaryOp) (regroups : Bool) :
    (binary op l r regroups).Says (combined op regroups t u) := by
  unfold Rendering.binary combined
  by_cases hop : op = .or
  · rw [if_pos hop, if_pos hop]
    exact hl.disjunction hr
  · rw [if_neg hop, if_neg hop]
    rcases (prec_cases op).resolve_left hop with ⟨hor, hchains⟩ | hcomparison
    · have hne : op.prec ≠ .comparison := by
        intro h
        rw [h] at hchains
        cases hchains
      simpa [hne] using hl.binary_chain hr hchains hor regroups
    · have hassoc : op.isAssociative = false := by
        revert hcomparison
        cases op <;> decide
      simpa [hcomparison, hassoc, joined] using hl.binary_comparison hr hcomparison

theorem unary (h : r.Says t) (op : UnaryOp) : (unary op r).Says (.unary op t) := by
  have htop : ∀ (prec : Prec) (o : BinaryOp) (l u : Term), Term.unary op t = .binary o l u →
      o.prec = prec := fun _ _ _ _ h => by cases h
  have htest : (op = .isNull ∨ op = .isNotNull) → (Rendering.single .comparison
      (r.guarded (r.prec ≤ .comparison) ++ [blank, sym op.token])).Says (.unary op t) := by
    intro hop
    have hloose : decide (r.prec ≤ .comparison) = false → Prec.sum.rank ≤ r.prec.rank := by
      cases r.prec <;> decide
    have hlexemes : lexemesAll (r.guarded (r.prec ≤ .comparison) ++ [blank, sym op.token]) =
        lexemesAll (r.guarded (r.prec ≤ .comparison)) ++ testLexemes op := by
      simp [testLexemes]
    refine of_single (by decide) ?_ ?_ ?_ (fun hchains => by cases hchains) (htop _)
    · rw [fill_of_length (by simp)]
    · rw [hlexemes]
      have hleads := (h.guarded hloose (Nat.le_succ _)).1
      exact leads_append (leads_mono hleads (by decide)) _
    · intro n hn
      rw [hlexemes] at hn ⊢
      simp only [List.length_append] at hn
      exact .nullTest hop (h.guarded hloose (by omega)).2
  cases op with
  | not =>
    have hnot : (sym "NOT").lexemes = [.word "NOT"] := by decide
    have hlexemes : lexemesAll (sym "NOT" :: blank :: r.guarded true) =
        .word "NOT" :: lexemesAll (r.guarded true) := by simp [hnot]
    refine of_single (by decide) ?_ ?_ ?_ (fun hchains => by cases hchains) (htop _)
    · rw [fill_of_length (by simp)]
    · rw [hlexemes]
      rfl
    · intro n hn
      rw [hlexemes] at hn ⊢
      simp only [List.length_cons] at hn
      obtain ⟨hleads, hreads⟩ := h.guarded (p := .not) (n := n) (b := true) (fun h => by cases h)
        (by omega)
      exact hreads.not hleads
  | neg =>
    have hminus : (sym "-").lexemes = [.sign "-"] := by decide
    have hlexemes : ∀ b,
        lexemesAll (sym "-" :: r.guarded b) = .sign "-" :: lexemesAll (r.guarded b) := by
      simp [hminus]
    refine of_single (by decide) ?_ ?_ ?_ (fun hchains => by cases hchains) (htop _)
    · rfl
    · rw [hlexemes]
      rfl
    · intro n hn
      rw [hlexemes] at hn ⊢
      simp only [List.length_cons] at hn
      refine .minus (h.guarded (fun hneeded => ?_) (by omega)).2
      simp only [Bool.or_eq_false_iff, decide_eq_false_iff_not] at hneeded
      exact Nat.le_of_not_lt hneeded.1
  | isNull => exact htest (.inl rfl)
  | isNotNull => exact htest (.inr rfl)

/-! ## Atoms -/

theorem of_atom {tokens : List Token} (filled : lexemesAll (fill tokens) = lexemesAll tokens)
    (leads : Grammar.leads .atom (lexemesAll tokens) = true)
    (reads : ∀ n rest, (lexemesAll tokens).length ≤ n + 1 → tightness rest < Prec.atom.rank →
      atomUpTo n (lexemesAll tokens ++ rest) = some (t, rest))
    (top : ∀ o l u, t ≠ .binary o l u) : (Rendering.single .atom tokens).Says t := by
  refine of_single (by decide) filled leads (fun n hn rest hrest => ?_) (fun h => by cases h)
    fun o l u h => absurd h (top o l u)
  have hlt : tightness rest < Prec.atom.rank := hrest.resolve_right fun h => by cases h.1
  rw [tail_of_tightness hlt]
  exact reads n rest hn hlt

/-- A keyword that is an atom. -/
theorem constant {s : String} {t : Term} (hs : (sym s).lexemes = [.word s]) (hr : isReserved s = true)
    (hl : (folded s != "distinct" && folded s != "not") = true)
    (ht : ∀ expr ts, reservedFrom expr s ts = some (t, ts)) (top : ∀ o l u, t ≠ .binary o l u) :
    (Rendering.single .atom [sym s]).Says t := by
  have hlexemes : lexemesAll [sym s] = [.word s] := by simp [hs]
  refine of_atom rfl ?_ (fun n rest _ hrest => ?_) top
  · rw [hlexemes]
    rw [Bool.and_eq_true] at hl
    simp [Grammar.leads, atPoint, hl.1, hl.2]
  · rw [hlexemes]
    simp [atomUpTo, Grammar.atom, hr, (atPoint_of_tightness hrest).1, ht]

theorem null : (Rendering.single .atom [sym "null"]).Says .null :=
  constant (by decide) (by decide) (by decide) (fun _ _ => rfl) fun _ _ _ h => by cases h

theorem bool (b : Bool) :
    (Rendering.single .atom [sym (if b then "true" else "false")]).Says (.bool b) := by
  have htop : ∀ o l u, Term.bool b ≠ .binary o l u := fun _ _ _ h => by cases h
  cases b with
  | true => exact constant (by decide) (by decide) (by decide) (fun _ _ => rfl) htop
  | false => exact constant (by decide) (by decide) (by decide) (fun _ _ => rfl) htop

theorem numeral (k : Nat) : (Rendering.single .atom [Token.numeral k]).Says (.numeral k) := by
  have hlexemes : lexemesAll [Token.numeral k] = [.numeral k] := by simp
  refine of_atom rfl (by rw [hlexemes]; rfl) (fun n rest _ _ => ?_) fun _ _ _ h => by cases h
  rw [hlexemes]
  rfl

theorem string (s : String) : (Rendering.single .atom [Token.string s]).Says (.string s) := by
  have hlexemes : lexemesAll [Token.string s] = [.string s] := by simp
  refine of_atom rfl (by rw [hlexemes]; rfl) (fun n rest _ _ => ?_) fun _ _ _ h => by cases h
  rw [hlexemes]
  rfl

theorem leads_ofName {s : String} (h : isReserved s = false) (ts : List Lexeme) :
    Grammar.leads .atom (.ofName s :: ts) = true := by
  have hfolded : folded s ≠ "distinct" ∧ folded s ≠ "not" := by
    constructor <;> intro hs <;> rw [isReserved, hs] at h <;> exact absurd h (by decide)
  unfold Lexeme.ofName
  split_ifs
  · simp [Grammar.leads, hfolded]
  · rfl

theorem var {k : Name} (hw : k.word.symbol? = none) (hk : Unbroken k.text)
    (hr : isReserved k.text = false) : (Rendering.single .atom [name k]).Says (.var k.text) := by
  have hlexemes : lexemesAll [name k] = [.ofName k.text] := by simp [lexemes_name hk]
  refine of_atom ?_ ?_ (fun n rest _ hrest => ?_) fun _ _ _ h => by cases h
  · simp [fill, lexemes_name hk, lexemes_filledName hw hk]
  · rw [hlexemes]
    exact leads_ofName hr _
  · rw [hlexemes]
    exact atom_var hr hrest

theorem property {o k : Name} (ho : o.word.symbol? = none) (hk : k.word.symbol? = none)
    (hob : Unbroken o.text) (hkb : Unbroken k.text) (hr : isReserved o.text = false) :
    (Rendering.single .atom [filledName o, sym ".", filledName k]).Says (.property o.text k.text) := by
  have hpoint : (sym ".").lexemes = [.sign "."] := by decide
  have hlexemes : lexemesAll [filledName o, sym ".", filledName k] =
      [.ofName o.text, .sign ".", .ofName k.text] := by
    simp [lexemes_filledName ho hob, lexemes_filledName hk hkb, hpoint]
  refine of_atom rfl ?_ (fun n rest _ hrest => ?_) fun _ _ _ h => by cases h
  · rw [hlexemes]
    exact leads_ofName hr _
  · rw [hlexemes]
    exact atom_property hr hrest

theorem param {p : ParamName} (hw : p.word.symbol? = none) (hp : Unbroken p.text) :
    (Rendering.single .atom [Token.param p]).Says (.param p.text) := by
  have hlexemes : lexemesAll [Token.param p] = [.param p.text] := by simp [lexemes_param hw hp]
  refine of_atom rfl (by rw [hlexemes]; rfl) (fun n rest _ _ => ?_) fun _ _ _ h => by cases h
  rw [hlexemes]
  rfl

/-- A literal that is no operator keeps its text inside a wrapper. -/
theorem enclosed (h : r.Says t) (hprec : r.prec ≠ .or) (top : ∀ o l u, t ≠ .binary o l u) :
    (Rendering.single r.prec r.tokens).Says t :=
  of_single hprec h.filled h.leads h.reads h.grafts fun o l u ht => absurd ht (top o l u)

theorem negative {tokens : List Token} (h : (Rendering.single .atom tokens).Says t) :
    (Rendering.single .negation (sym "-" :: tokens)).Says (.unary .neg t) := by
  have hminus : (sym "-").lexemes = [.sign "-"] := by decide
  have hlexemes : lexemesAll (sym "-" :: tokens) = .sign "-" :: lexemesAll tokens := by simp [hminus]
  refine of_single (by decide) rfl ?_ ?_ (fun h => by cases h) fun _ _ _ h => by cases h
  · rw [hlexemes]
    rfl
  · intro n hn
    rw [hlexemes] at hn ⊢
    rw [List.length_cons] at hn
    exact .minus (h.reads_at (Prec.rank_le_rank_atom _) (Nat.le_of_succ_le hn))

/-! ## Rows -/

theorem lexemesAll_commas (parts : List (List Token)) :
    lexemesAll (commas parts) = commaLexemes (parts.map lexemesAll) := by
  have hcomma : (sym ",").lexemes = [.sign ","] := by decide
  match parts with
  | [] => rfl
  | [ts] => simp [commas, commaLexemes]
  | ts :: us :: parts =>
    have ih := lexemesAll_commas (us :: parts)
    rw [commas, commaLexemes, List.map_cons] at ih
    rw [commas, commaLexemes, List.map_cons, List.map_cons, List.intercalate_cons_cons,
      List.intercalate_cons_cons, lexemesAll_append, ih]
    simp [hcomma]

theorem length_le_commaLexemes {parts : List (List Lexeme)} {ts : List Lexeme} (h : ts ∈ parts) :
    ts.length ≤ (commaLexemes parts).length := by
  match parts with
  | [us] =>
    obtain rfl := List.mem_singleton.1 h
    simp [commaLexemes]
  | us :: vs :: parts =>
    have ih : ts ∈ vs :: parts → ts.length ≤ (commaLexemes (vs :: parts)).length :=
      length_le_commaLexemes
    rw [commaLexemes, List.intercalate_cons_cons, List.length_append, List.length_append]
    rcases List.mem_cons.1 h with rfl | h
    · omega
    · have := ih h
      rw [commaLexemes] at this
      omega

/-- The lexemes between two brackets, with the bound that they leave for each part. -/
theorem exists_fuel {parts : List (List Lexeme)} {k : Nat}
    (hn : (commaLexemes parts).length + 2 ≤ k + 1) :
    ∃ m, k = m + 1 ∧ ∀ ts ∈ parts, ts.length ≤ m + 1 :=
  ⟨k - 1, by omega, fun ts hts => by
    have := length_le_commaLexemes hts
    omega⟩

theorem isItem (h : r.Says t) (hn : r.lexemes.length ≤ n + 1) {s : String}
    (hs : s ∈ [")", "]", "\x7d"]) : IsItem (expression (n + 1)) s r.lexemes t where
  starts rest := by
    refine sign?_of_leads (leads_append h.leads rest) ?_
    have : ∀ s ∈ [")", "]", "\x7d"], s ∈ [")", "]", "\x7d", "*"] := by decide
    exact this s hs
  reads c rest hc := by
    have hreads := h.reads_at (p := .or) (by cases r.prec <;> decide) hn
    refine expression_of_reads hreads (tightness_sign ?_ rest)
    have : ∀ s ∈ [")", "]", "\x7d"], s ∈ [")", "]", "\x7d", ","] := by decide
    rcases hc with rfl | rfl
    · decide
    · exact this c hs

theorem forall₂_map {α β γ : Type} {R : β → α → Prop} {S : γ → α → Prop} {f : β → γ} {xs : List β}
    {as : List α} (h : List.Forall₂ R xs as) (hf : ∀ x ∈ xs, ∀ a, R x a → S (f x) a) :
    List.Forall₂ S (xs.map f) as := by
  induction h with
  | nil => exact .nil
  | cons hx _ ih =>
    rw [List.forall_mem_cons] at hf
    exact .cons (hf.1 _ hx) (ih hf.2)

theorem map_lexemes (rs : List Rendering) : rs.map lexemes = (rs.map tokens).map lexemesAll := by
  rw [List.map_map]
  rfl

theorem list {rs : List Rendering} {ts : List Term} (h : List.Forall₂ Says rs ts) :
    (Rendering.single .atom (sym "[" :: (commas (rs.map tokens) ++ [sym "]"]))).Says (.list ts) := by
  have hopen : (sym "[").lexemes = [.sign "["] := by decide
  have hclose : (sym "]").lexemes = [.sign "]"] := by decide
  have hlexemes : lexemesAll (sym "[" :: (commas (rs.map tokens) ++ [sym "]"])) =
      .sign "[" :: (commaLexemes (rs.map lexemes) ++ [Lexeme.sign "]"]) := by
    rw [map_lexemes]
    simp [lexemesAll_commas, hopen, hclose]
  refine of_atom (by rw [fill_of_length (by simp)]) (by rw [hlexemes]; rfl) (fun n rest hn _ => ?_)
    fun _ _ _ h => by cases h
  rw [hlexemes] at hn ⊢
  have hrow : (commaLexemes (rs.map lexemes)).length + 2 ≤ n + 1 := by simpa using hn
  obtain ⟨m, rfl, hparts⟩ := exists_fuel hrow
  have hitems : List.Forall₂ (IsItem (expression (m + 1)) "]") (rs.map lexemes) ts :=
    forall₂_map h fun r hr t ht => ht.isItem (hparts _ (List.mem_map_of_mem hr)) (by decide)
  have hread := items_of_forall₂ (by decide) hitems rest
  simp [atomUpTo, Grammar.atom, bracketFrom, hread]

/-- The lexemes of an entry. -/
def entryLexemes (e : Name × Rendering) : List Lexeme :=
  .ofName e.1.text :: .sign ":" :: e.2.lexemes

/-- An entry of a map is the key and the term. -/
structure SaysEntry (e : Name × Rendering) (b : String × Term) : Prop where
  word : e.1.word.symbol? = none
  unbroken : Unbroken e.1.text
  key : b.1 = e.1.text
  value : e.2.Says b.2

theorem isItem_entry {e : Name × Rendering} {b : String × Term} (h : SaysEntry e b)
    (hn : (entryLexemes e).length ≤ n + 1) :
    IsItem (entry (expression (n + 1))) "\x7d" (entryLexemes e) b where
  starts rest := by
    rw [entryLexemes, List.cons_append]
    unfold Lexeme.ofName
    split_ifs <;> rfl
  reads c rest hc := by
    simp only [entryLexemes, List.length_cons] at hn
    have hvalue := (h.value.isItem (n := n) (s := "\x7d") (by omega) (by decide)).reads c rest hc
    obtain ⟨k, t⟩ := b
    obtain rfl : k = e.1.text := h.key
    simp [entry, entryLexemes, name?_ofName, sign?, hvalue]

theorem map {es : List (Name × Rendering)} {ts : List (String × Term)}
    (h : List.Forall₂ SaysEntry es ts) :
    (Rendering.single .atom (renderMap (es.map fun e => (e.1, e.2.tokens)))).Says (.map ts) := by
  have hopen : (sym "\x7b").lexemes = [.sign "\x7b"] := by decide
  have hclose : (sym "\x7d").lexemes = [.sign "\x7d"] := by decide
  have hcolon : (sym ":").lexemes = [.sign ":"] := by decide
  have hentries : (es.map fun e => lexemesAll (filledName e.1 :: sym ":" :: blank :: fill e.2.tokens)) =
      es.map entryLexemes := by
    induction h with
    | nil => rfl
    | cons he _ ih =>
      rw [List.map_cons, List.map_cons, ih]
      simp [lexemes_filledName he.word he.unbroken, hcolon, he.value.filled, entryLexemes]
  have hlexemes : lexemesAll (renderMap (es.map fun e => (e.1, e.2.tokens))) =
      .sign "\x7b" :: (commaLexemes (es.map entryLexemes) ++ [Lexeme.sign "\x7d"]) := by
    rw [← hentries]
    simp [renderMap, lexemesAll_commas, hopen, hclose, Function.comp_def]
  refine of_atom (by rw [fill_of_length (by simp [renderMap])]) (by rw [hlexemes]; rfl)
    (fun n rest hn _ => ?_) fun _ _ _ h => by cases h
  rw [hlexemes] at hn ⊢
  have hrow : (commaLexemes (es.map entryLexemes)).length + 2 ≤ n + 1 := by simpa using hn
  obtain ⟨m, rfl, hparts⟩ := exists_fuel hrow
  have hitems : List.Forall₂ (IsItem (entry (expression (m + 1))) "\x7d") (es.map entryLexemes) ts :=
    forall₂_map h fun e he b hb => isItem_entry hb (hparts _ (List.mem_map_of_mem he))
  have hread := items_of_forall₂ (by decide) hitems rest
  simp [atomUpTo, Grammar.atom, bracketFrom, hread]

/-! ## Calls -/

/-- An argument is the star, or a term. -/
def SaysArgument (r : Rendering) (t : Term) : Prop :=
  r.tokens = [sym "*"] ∧ t = .star ∨ r.Says t

theorem lexemes_star (h : r.tokens = [sym "*"]) : r.lexemes = [.sign "*"] := by
  rw [lexemes, h]
  decide

theorem isItem_argument (h : SaysArgument r t) (hn : r.lexemes.length ≤ n + 1) :
    IsItem (argument (expression (n + 1))) ")" r.lexemes t := by
  rcases h with ⟨hstar, rfl⟩ | h
  · rw [lexemes_star hstar]
    exact ⟨fun _ => rfl, fun c rest _ => rfl⟩
  · have hitem : IsItem (expression (n + 1)) ")" r.lexemes t := h.isItem hn (by decide)
    refine ⟨hitem.starts, fun c rest hc => ?_⟩
    rw [argument, sign?_of_leads (leads_append h.leads _) (by decide)]
    exact hitem.reads c rest hc

theorem starts_argument (h : SaysArgument r t) (rest : List Lexeme) :
    keyword? "distinct" (r.lexemes ++ rest) = none ∧ atPoint (r.lexemes ++ rest) = false := by
  rcases h with ⟨hstar, rfl⟩ | h
  · rw [lexemes_star hstar]
    exact ⟨rfl, rfl⟩
  · have hleads := leads_append h.leads rest
    exact ⟨distinct_of_leads hleads, atPoint_of_leads hleads⟩

theorem leads_dotted {w : String} {ws : List String}
    (h : isReserved (".".intercalate (w :: ws)) = false) (ts : List Lexeme) :
    Grammar.leads .atom (Lexeme.dotted w ws ++ .sign "(" :: ts) = true := by
  cases ws with
  | nil =>
    have hw : isReserved w = false := by simpa using h
    have hfolded : folded w ≠ "distinct" ∧ folded w ≠ "not" := by
      constructor <;> intro hs <;> rw [isReserved, hs] at hw <;> exact absurd hw (by decide)
    simp [Lexeme.dotted, Grammar.leads, hfolded]
  | cons v ws => simp [Lexeme.dotted, Grammar.leads, atPoint]

theorem call {f : FunctionName} (hw : f.word.symbol? = none) (hf : Unbroken f.word.text)
    (hr : isReserved f.word.text = false) (d : Bool) {rs : List Rendering} {ts : List Term}
    (h : List.Forall₂ SaysArgument rs ts) :
    (Rendering.single .atom (function f :: sym "(" :: ((if d then [sym "DISTINCT", blank] else [])
      ++ commas (rs.map tokens) ++ [sym ")"]))).Says (.call f.word.text d ts) := by
  obtain ⟨w, ws, htext, hfunction⟩ := lexemes_function hw hf
  have hopen : (sym "(").lexemes = [.sign "("] := by decide
  have hclose : (sym ")").lexemes = [.sign ")"] := by decide
  have hdistinct : lexemesAll (if d then [sym "DISTINCT", blank] else []) =
      if d then [Lexeme.word "DISTINCT"] else [] := by
    cases d <;> decide
  have hlexemes : lexemesAll (function f :: sym "(" :: ((if d then [sym "DISTINCT", blank] else [])
      ++ commas (rs.map tokens) ++ [sym ")"])) = Lexeme.dotted w ws ++ .sign "(" ::
        ((if d then [Lexeme.word "DISTINCT"] else []) ++
          (commaLexemes (rs.map lexemes) ++ [Lexeme.sign ")"])) := by
    rw [map_lexemes]
    simp only [lexemesAll_cons, lexemesAll_append, hfunction, hopen, hdistinct, lexemesAll_commas,
      hclose, lexemesAll_nil, List.append_assoc, List.singleton_append, List.append_nil]
  refine of_atom (by rw [fill_of_length (by simp)]) ?_ (fun n rest hn _ => ?_)
    fun _ _ _ h => by cases h
  · rw [hlexemes]
    exact leads_dotted (htext ▸ hr) _
  · rw [hlexemes] at hn ⊢
    have hdotted : 1 ≤ (Lexeme.dotted w ws).length := by simp [Lexeme.dotted]
    simp only [List.length_append, List.length_cons, List.length_nil] at hn
    have hrow : (commaLexemes (rs.map lexemes)).length + 2 ≤ n + 1 := by omega
    obtain ⟨m, rfl, hparts⟩ := exists_fuel hrow
    have hitems : List.Forall₂ (IsItem (argument (expression (m + 1))) ")") (rs.map lexemes) ts :=
      forall₂_map h fun r hr t ht => isItem_argument ht (hparts _ (List.mem_map_of_mem hr))
    have hfirst : ∀ us ∈ (rs.map lexemes).head?, ∀ rest,
        keyword? "distinct" (us ++ rest) = none ∧ atPoint (us ++ rest) = false := by
      cases h with
      | nil => exact fun us hus => by cases hus
      | cons hr _ =>
        intro us hus
        obtain rfl := Option.some.inj hus
        exact starts_argument hr
    rw [List.append_assoc, List.cons_append, List.append_assoc, List.append_assoc,
      List.singleton_append, atomUpTo, atom_dotted (htext ▸ hr), htext]
    exact callFrom_args f.word.text d hitems hfirst rest

/-! ## CASE -/

theorem lexemesAll_blanks (parts : List (List Token)) :
    lexemesAll (blanks parts) = parts.flatMap lexemesAll := by
  match parts with
  | [] => rfl
  | [ts] => simp [blanks]
  | ts :: us :: parts =>
    have ih := lexemesAll_blanks (us :: parts)
    rw [blanks] at ih
    rw [blanks, List.intercalate_cons_cons, lexemesAll_append, ih]
    simp

theorem isClause (h : r.Says t) (hn : r.lexemes.length ≤ n + 1) :
    IsClause (expression (n + 1)) r.lexemes t := by
  intro w rest hw
  have hreads := h.reads_at (p := .or) (by cases r.prec <;> decide) hn
  refine expression_of_reads hreads ?_
  simp only [List.mem_cons, List.not_mem_nil, or_false] at hw
  rcases hw with rfl | rfl | rfl | rfl <;> rfl

/-- The lexemes of a CASE. -/
def caseLexemes (bs : List (Rendering × Rendering)) (d : Option Rendering) : List Lexeme :=
  .word "CASE" :: ((bs.map fun b => (b.1.lexemes, b.2.lexemes)).flatMap branchLexemes ++
    (otherwiseLexemes (d.map lexemes) ++ [Lexeme.word "END"]))

theorem lexemesAll_renderCase {bs : List (Rendering × Rendering)} {d : Option Rendering}
    {ts : List (Term × Term)} {u : Option Term}
    (h : List.Forall₂ (fun b t => b.1.Says t.1 ∧ b.2.Says t.2) bs ts) (hd : Option.Rel Says d u) :
    lexemesAll (renderCase (bs.map fun b => (b.1.tokens, b.2.tokens)) (d.map tokens)) =
      caseLexemes bs d := by
  have hwords : (sym "CASE").lexemes = [.word "CASE"] ∧ (sym "WHEN").lexemes = [.word "WHEN"] ∧
      (sym "THEN").lexemes = [.word "THEN"] ∧ (sym "ELSE").lexemes = [.word "ELSE"] ∧
      (sym "END").lexemes = [.word "END"] := by decide
  have hbranches : (bs.map fun b => lexemesAll (sym "WHEN" :: blank :: (fill b.1.tokens ++
      [blank, sym "THEN", blank] ++ fill b.2.tokens))) =
        bs.map fun b => branchLexemes (b.1.lexemes, b.2.lexemes) := by
    induction h with
    | nil => rfl
    | cons hb _ ih =>
      rw [List.map_cons, List.map_cons, ih]
      simp [hwords, hb.1.filled, hb.2.filled, branchLexemes]
  have hflat : ((bs.map fun b => (b.1.tokens, b.2.tokens)).map fun b => sym "WHEN" :: blank ::
      (fill b.1 ++ [blank, sym "THEN", blank] ++ fill b.2)).flatMap lexemesAll =
        (bs.map fun b => (b.1.lexemes, b.2.lexemes)).flatMap branchLexemes := by
    rw [List.flatMap_def, List.flatMap_def, List.map_map, List.map_map, List.map_map]
    exact congrArg List.flatten hbranches
  unfold renderCase
  rw [lexemesAll_blanks, List.flatMap_append, List.flatMap_append, List.flatMap_append, hflat]
  cases hd with
  | none => simp [caseLexemes, otherwiseLexemes, hwords]
  | some hr => simp [caseLexemes, otherwiseLexemes, hwords, hr.filled]

theorem fill_renderCase (bs : List (List Token × List Token)) (d : Option (List Token)) :
    fill (renderCase bs d) = renderCase bs d := by
  unfold renderCase blanks
  dsimp only
  rw [List.append_assoc, List.append_assoc, List.singleton_append,
    List.intercalate_cons_of_ne_nil (by simp)]
  rfl

theorem case {bs : List (Rendering × Rendering)} {d : Option Rendering} {ts : List (Term × Term)}
    {u : Option Term} (hne : ts ≠ [])
    (h : List.Forall₂ (fun b t => b.1.Says t.1 ∧ b.2.Says t.2) bs ts) (hd : Option.Rel Says d u) :
    (Rendering.single .atom (renderCase (bs.map fun b => (b.1.tokens, b.2.tokens))
      (d.map tokens))).Says (.case ts u) := by
  have hlexemes := lexemesAll_renderCase h hd
  have hwords : folded "CASE" = "case" ∧ isReserved "CASE" = true := by decide
  refine of_atom (by rw [fill_renderCase]) ?_ (fun n rest hn _ => ?_) fun _ _ _ h => by cases h
  · rw [hlexemes]
    simp [caseLexemes, Grammar.leads, hwords]
  · rw [hlexemes] at hn ⊢
    simp only [caseLexemes, List.length_cons, List.length_append, List.length_nil] at hn
    obtain ⟨m, rfl⟩ : ∃ m, n = m + 1 := ⟨n - 1, by omega⟩
    have hbranches : List.Forall₂ (fun p b => IsClause (expression (m + 1)) p.1 b.1 ∧
        IsClause (expression (m + 1)) p.2 b.2) (bs.map fun b => (b.1.lexemes, b.2.lexemes)) ts := by
      refine forall₂_map h fun b hb t ht => ?_
      have hpart : (branchLexemes (b.1.lexemes, b.2.lexemes)).length ≤
          ((bs.map fun b => (b.1.lexemes, b.2.lexemes)).flatMap branchLexemes).length := by
        rw [List.flatMap_def]
        exact (List.sublist_flatten_of_mem (List.mem_map_of_mem
          (List.mem_map_of_mem (f := fun b => (b.1.lexemes, b.2.lexemes)) hb))).length_le
      simp only [branchLexemes, List.length_cons, List.length_append] at hpart
      exact ⟨ht.1.isClause (by omega), ht.2.isClause (by omega)⟩
    have hdefault : Option.Rel (IsClause (expression (m + 1))) (d.map lexemes) u := by
      cases hd with
      | none => exact .none
      | some hr =>
        simp only [Option.map_some, otherwiseLexemes, List.length_cons] at hn
        exact .some (hr.isClause (by omega))
    have hcase := caseFrom_branches hne hbranches hdefault rest
    have hpoint : atPoint ((bs.map fun b => (b.1.lexemes, b.2.lexemes)).flatMap branchLexemes ++
        (otherwiseLexemes (d.map lexemes) ++ .word "END" :: rest)) = false := by
      cases bs with
      | nil => cases d <;> rfl
      | cons b bs => rfl
    simp only [caseLexemes, List.cons_append, List.append_assoc, List.nil_append]
    simp [atomUpTo, Grammar.atom, hwords, hpoint, reservedFrom, hcase]

/-! ## Texts -/

theorem parse (h : r.Says t) (hf : Fragment r.tokens) : parse (spell r.tokens) = some t := by
  obtain ⟨k, hk⟩ : ∃ k, r.lexemes.length = k + 1 := by
    have hne : r.lexemes ≠ [] := by
      intro hnil
      have hleads := h.leads
      rw [hnil] at hleads
      cases hleads
    exact ⟨r.lexemes.length - 1, by have := List.length_pos_iff.2 hne; omega⟩
  have hreads := h.reads_at (p := .or) (n := k) (by cases r.prec <;> decide) (by omega)
  have hwhole : expression (k + 1) (r.lexemes ++ []) = some (t, []) := expression_of_reads hreads rfl
  rw [List.append_nil] at hwhole
  have hlex : lex (spell r.tokens) = some r.lexemes := lex_spell hf
  simp [CypherCompose.parse, hlex, hk, hwhole]

end Says

end Rendering

end CypherCompose
