import CypherCompose.Proofs.AccessModes
import CypherCompose.Proofs.Granting
import CypherCompose.Proofs.ParameterTable
import CypherCompose.Proofs.Structure

/-!
# Statements made of statements

Two queries with a UNION between them make one statement, and so does a query in a CALL.  Each part is
then read, written and checked as it is alone:

* a clause is read the same wherever it stands (`readClause_shift`), and a separator ends every run of
  assignments (`readClauses_union`, `readClauses_call`);
* the grammar of queries is closed under UNION, and every query may stand in a CALL;
* only the table of parameters is shared, so the one thing that can go wrong is a name with two
  values (`Registry.Joins.enterAll`).
-/

namespace CypherCompose

/-! ## Reading clauses in a row -/

section Reading

variable {rs rs' : List Request}

theorem readClause_shift {i : Nat} {v : Value} {r : ClauseReading}
    (h : readClause i v = ⟨rs, .ok r⟩) (j : Nat) : readClause j v = ⟨rs, .ok r⟩ := by
  -- Only the message about an unknown clause tells a position.
  cases v with
  | assign target value => exact h
  | clause f =>
    cases f with
    | unknown k => simp [readClause, readPlain, Draft.bind_eq_ok, Draft.fail] at h
    | _ => exact h
  | _ => simp [readClause, readPlain, Draft.bind_eq_ok, Draft.fail] at h

theorem readEachClause_shift {i : Nat} {vs : List Value} {as : List ClauseReading}
    (h : readEachClause i vs = ⟨rs, .ok as⟩) (j : Nat) : readEachClause j vs = ⟨rs, .ok as⟩ := by
  induction vs generalizing i j rs as with
  | nil => exact h
  | cons v vs ih =>
    simp only [readEachClause, Draft.bind_eq_ok] at h ⊢
    obtain ⟨ps, r, qs, hr, ⟨ps', as', qs', has, hpure, rfl⟩, rfl⟩ := h
    exact ⟨ps, r, _, readClause_shift hr j, ⟨ps', as', qs', ih has (j + 1), hpure, rfl⟩, rfl⟩

theorem readEachClause_append {i j : Nat} {xs ys : List Value} {as bs : List ClauseReading}
    (hx : readEachClause i xs = ⟨rs, .ok as⟩) (hy : readEachClause j ys = ⟨rs', .ok bs⟩) :
    readEachClause i (xs ++ ys) = ⟨rs ++ rs', .ok (as ++ bs)⟩ := by
  induction xs generalizing i rs as with
  | nil =>
    obtain ⟨rfl, rfl⟩ := Draft.done_eq_ok.1 hx
    exact readEachClause_shift hy i
  | cons x xs ih =>
    simp only [readEachClause, Draft.bind_eq_ok, Draft.pure_eq_ok] at hx
    obtain ⟨ps, a, _, ha, ⟨qs, as, _, has, ⟨rfl, rfl⟩, rfl⟩, rfl⟩ := hx
    simp only [List.cons_append, readEachClause, Draft.bind_eq_ok, Draft.pure_eq_ok]
    exact ⟨ps, a, _, ha, ⟨_, _, [], ih has, ⟨rfl, rfl⟩, rfl⟩, by simp⟩

/-- A clause that is no assignment ends the run before it. -/
theorem groupFrom_append (pending : List Assignment) (as : List ClauseReading) (c : Clause)
    (bs : List ClauseReading) :
    groupFrom pending (as ++ .clause c :: bs) = groupFrom pending as ++ c :: groupRuns bs := by
  induction as generalizing pending with
  | nil => rfl
  | cons a as ih =>
    cases a with
    | assignments as' => exact ih (pending ++ as')
    | clause d =>
      simp only [List.cons_append, groupFrom, List.append_assoc, ih]

theorem readClauses_eq_ok {vs : List Value} {cs : List Clause} :
    readClauses vs = ⟨rs, .ok cs⟩ ↔
      ∃ as, readEachClause 0 vs = ⟨rs, .ok as⟩ ∧ groupRuns as = cs := by
  simp only [readClauses, Draft.bind_eq_ok, Draft.pure_eq_ok]
  constructor
  · rintro ⟨us, as, _, has, ⟨rfl, rfl⟩, rfl⟩
    exact ⟨as, by rw [List.append_nil, has], rfl⟩
  · rintro ⟨as, has, rfl⟩
    exact ⟨rs, as, [], has, ⟨rfl, rfl⟩, (List.append_nil rs).symm⟩

theorem readClauses_union {xs ys : List Value} {cs ds : List Clause} (all : Bool)
    (hx : readClauses xs = ⟨rs, .ok cs⟩) (hy : readClauses ys = ⟨rs', .ok ds⟩) :
    readClauses (xs ++ .clause (.union all) :: ys) =
      ⟨rs ++ rs', .ok (cs ++ .union all :: ds)⟩ := by
  obtain ⟨as, has, rfl⟩ := readClauses_eq_ok.1 hx
  obtain ⟨bs, hbs, rfl⟩ := readClauses_eq_ok.1 hy
  have hunion : readEachClause 0 [.clause (.union all)] = ⟨[], .ok [.clause (.union all)]⟩ := rfl
  refine readClauses_eq_ok.2 ⟨as ++ .clause (.union all) :: bs, ?_, groupFrom_append [] as _ bs⟩
  exact readEachClause_append has (readEachClause_append hunion hbs)

theorem readClauses_call {xs : List Value} {cs : List Clause}
    (hx : readClauses xs = ⟨rs, .ok cs⟩) :
    readClauses [.clause (.subquery (.list xs))] = ⟨rs, .ok [.subquery cs]⟩ := by
  have hbody : readBody (.clause (.subquery (.list xs))) (.list xs) = ⟨rs, .ok cs⟩ := hx
  refine readClauses_eq_ok.2 ⟨[.clause (.subquery cs)], ?_, rfl⟩
  simp only [readEachClause, readClause, Draft.bind_eq, hbody, Draft.andThen_ok, Draft.pure_eq,
    Draft.done, List.append_nil]

theorem groupFrom_ne_nil {pending : List Assignment} (h : pending ≠ [])
    (as : List ClauseReading) : groupFrom pending as ≠ [] := by
  induction as generalizing pending with
  | nil => simpa [groupFrom, setOf] using h
  | cons a as ih =>
    cases a with
    | assignments bs => exact ih (by simp [h])
    | clause c => simp [groupFrom]

theorem readEachWith_ne_nil {α : Type} {read : Value → Draft α} {vs : List Value} {as : List α}
    (hvs : vs ≠ []) (h : readEachWith read vs = ⟨rs, .ok as⟩) : as ≠ [] := by
  cases vs with
  | nil => exact absurd rfl hvs
  | cons v vs =>
    simp only [readEachWith, Draft.bind_eq_ok, Draft.pure_eq_ok] at h
    obtain ⟨_, a, _, _, ⟨_, as, _, _, ⟨rfl, rfl⟩, rfl⟩, rfl⟩ := h
    exact List.cons_ne_nil a as

theorem readItems_ne_nil {e : ClauseError} {items : Value} {vs : List Value}
    (h : readItems e items = ⟨rs, .ok vs⟩) : vs ≠ [] := by
  unfold readItems at h
  split_ifs at h with hempty
  · cases h
  · obtain ⟨rfl, -⟩ := Draft.done_eq_ok.1 h
    simpa using hempty

/-- A SET clause has at least one assignment. -/
theorem assignments_ne_nil {i : Nat} {v : Value} {as : List Assignment}
    (h : readClause i v = ⟨rs, .ok (.assignments as)⟩) : as ≠ [] := by
  cases v with
  | assign target value =>
    simp only [readClause, Draft.bind_eq_ok, Draft.pure_eq_ok] at h
    obtain ⟨_, a, _, _, ⟨ha, rfl⟩, rfl⟩ := h
    cases ha
    exact List.cons_ne_nil a []
  | clause f =>
    cases f with
    | set assignments =>
      simp only [readClause, readAssignments, Draft.bind_eq_ok, Draft.pure_eq_ok] at h
      obtain ⟨_, bs, _, ⟨_, vs, _, hvs, hbs, rfl⟩, ⟨ha, rfl⟩, rfl⟩ := h
      cases ha
      exact readEachWith_ne_nil (readItems_ne_nil hvs) hbs
    | _ => simp [readClause, Draft.bind_eq_ok] at h
  | _ => simp [readClause, Draft.bind_eq_ok] at h

theorem readClauses_ne_nil {vs : List Value} {cs : List Clause} (hvs : vs ≠ [])
    (h : readClauses vs = ⟨rs, .ok cs⟩) : cs ≠ [] := by
  obtain ⟨as, has, rfl⟩ := readClauses_eq_ok.1 h
  cases vs with
  | nil => exact absurd rfl hvs
  | cons v vs =>
    simp only [readEachClause, Draft.bind_eq_ok, Draft.pure_eq_ok] at has
    obtain ⟨_, a, _, ha, ⟨_, as, _, _, ⟨rfl, rfl⟩, rfl⟩, rfl⟩ := has
    cases a with
    | assignments bs => exact groupFrom_ne_nil (assignments_ne_nil ha) as
    | clause c => simp [groupRuns, groupFrom, setOf]

end Reading

/-! ## Texts -/

theorem Clause.renderAll_append {cs ds : List Clause} (hcs : cs ≠ []) (hds : ds ≠ []) :
    renderAll (cs ++ ds) = renderAll cs ++ [Token.blank] ++ renderAll ds := by
  simp only [renderAll, Token.blanks, renderEach_eq_map, List.map_append]
  exact Rendering.Says.intercalate_append [.blank] (by simpa using hcs) (by simpa using hds)

theorem spell_union {cs ds : List Clause} (hcs : cs ≠ []) (hds : ds ≠ []) :
    Token.spell (Clause.renderAll (cs ++ .union false :: ds)) =
      Token.spell (Clause.renderAll cs) ++ " UNION " ++ Token.spell (Clause.renderAll ds) := by
  have hunion : Clause.renderAll (.union false :: ds) =
      [Token.sym "UNION", .blank] ++ Clause.renderAll ds := by
    have hsplit : [Clause.union false] ++ ds = Clause.union false :: ds := rfl
    have hlone : Clause.renderAll [.union false] = [.sym "UNION"] := by
      simp [Clause.renderAll, Clause.renderEach, Clause.render, Token.blanks]
    rw [← hsplit, Clause.renderAll_append (List.cons_ne_nil _ []) hds, hlone]
    rfl
  have hseparator : Token.spell ([Token.blank] ++ [.sym "UNION", .blank]) = " UNION " := by decide
  rw [Clause.renderAll_append hcs (List.cons_ne_nil _ ds), hunion, ← hseparator]
  simp only [Token.spell_append, String.append_assoc]

theorem spell_call (cs : List Clause) :
    Token.spell (Clause.renderAll [.subquery cs]) =
      "CALL \x7b " ++ Token.spell (Clause.renderAll cs) ++ " \x7d" := by
  have hcall : Clause.renderAll [.subquery cs] = [Token.sym "CALL", .blank, .sym "\x7b", .blank] ++
      Clause.renderAll cs ++ [Token.blank, .sym "\x7d"] := by
    simp [Clause.renderAll, Clause.renderEach, Clause.render, Token.blanks]
  have hleft : Token.spell [.sym "CALL", .blank, .sym "\x7b", .blank] = "CALL \x7b " := by decide
  have hright : Token.spell [.blank, .sym "\x7d"] = " \x7d" := by decide
  rw [hcall, Token.spell_append, Token.spell_append, hleft, hright]

/-! ## Grammar and modes -/

namespace Query

variable {xs ys : List Value}

theorem everyClause_append (xs ys : List Value) :
    Value.everyClause (xs ++ ys) = Value.everyClause xs ++ Value.everyClause ys := by
  induction xs with
  | nil => rfl
  | cons x xs ih => simp [Value.everyClause, ih]

/-- A query without definitions and without UNION ALL. -/
def IsPlain (xs : List Value) : Prop :=
  ∀ c ∈ xs, c.typeName ∉ definitionKinds ∧ c.typeName ≠ "UnionAll"

instance (xs : List Value) : Decidable (IsPlain xs) :=
  inferInstanceAs (Decidable (∀ c ∈ xs, c.typeName ∉ definitionKinds ∧ c.typeName ≠ "UnionAll"))

theorem isQuery_of_isPlain (h : HasShape .statement xs) (hplain : IsPlain xs) :
    IsQuery false xs := by
  obtain ⟨c, rfl, hc⟩ | ⟨all, hquery⟩ := h
  · exact absurd hc (hplain c List.mem_cons_self).1
  cases hquery with
  | branch hb => exact .branch hb
  | @union b q hb hq =>
    cases all with
    | false => exact .union hb hq
    | true => exact absurd rfl (hplain (.clause (.union true)) (by simp)).2

theorem ne_nil_of_isPlain (h : IsValid .statement xs) (hplain : IsPlain xs) : xs ≠ [] :=
  (isQuery_iff.1 (isQuery_of_isPlain h.shape hplain)).1

theorem isValid_union (hx : IsValid .statement xs) (hy : IsValid .statement ys)
    (hplain : IsPlain xs) (hplain' : IsPlain ys) :
    IsValid .statement (xs ++ .clause (.union false) :: ys) := by
  refine ⟨.inr ⟨false, ?_⟩, ?_⟩
  · exact (isQuery_of_isPlain hx.shape hplain).append (isQuery_of_isPlain hy.shape hplain')
  · intro c hc
    rw [everyClause_append, List.mem_append] at hc
    rcases hc with hc | hc
    · exact hx.bodies c hc
    rcases List.mem_cons.1 hc with rfl | hc
    · exact bodyFits_of_none rfl
    · exact hy.bodies c hc

theorem isValid_call (hx : IsValid .statement xs) (hplain : IsPlain xs) :
    IsValid .statement [.clause (.subquery (.list xs))] := by
  have hbody : checkClauses .subquery (.list xs) xs = .ok () :=
    checkClauses_eq_ok.2 ⟨⟨false, isQuery_of_isPlain hx.shape hplain⟩, hx.bodies⟩
  have hnested : checkNested (.clause (.subquery (.list xs))) = .ok () := hbody
  have hcall : checkClauses .statement (.list xs) [.clause (.subquery (.list xs))] = .ok () := by
    simp only [checkClauses, checkFrom, hnested]
    rfl
  exact checkClauses_eq_ok.1 hcall

theorem modeOf_eq_write : modeOf xs = .write ↔ (Value.everyClause xs).any writes = true := by
  unfold modeOf
  by_cases hany : (Value.everyClause xs).any writes = true
  · simp only [hany, if_true]
  · simp only [hany, if_false, reduceCtorEq]

theorem modeOf_union (xs ys : List Value) :
    modeOf (xs ++ .clause (.union false) :: ys) = .write ↔
      modeOf xs = .write ∨ modeOf ys = .write := by
  have hunion : writes (.clause (.union false)) = false := by decide
  have hright : (Value.everyClause (.clause (.union false) :: ys)).any writes =
      (Value.everyClause ys).any writes := by
    rw [Value.everyClause, List.any_cons, hunion, Bool.false_or]
    rfl
  simp only [modeOf_eq_write, everyClause_append, List.any_append, hright, Bool.or_eq_true]

theorem modeOf_call (xs : List Value) : modeOf [.clause (.subquery (.list xs))] = modeOf xs := by
  have hcall : writes (.clause (.subquery (.list xs))) = false := by
    show decide ("CallSubquery" ∈ mutationKinds) = false
    decide
  simp [modeOf, Value.everyClause, Value.inside, Value.insideBody, hcall]

end Query

/-! ## Statements -/

namespace Statement

variable {xs ys : List Value} {parameters override : Value} {s sx sy : Statement}

/-- The names of a statement's parameters. -/
def names (s : Statement) : List ParamName :=
  s.parameters.map (·.1)

theorem compile_list_eq_ok :
    compile (.list xs) parameters .null = .ok s ↔
      ∃ rs cs r, Query.IsValid .statement xs ∧ readClauses xs = ⟨rs, .ok cs⟩ ∧
        Registry.empty.enterAll rs = (r, none) ∧ (r.finalize parameters).1 = .ok s.parameters ∧
        s.mode = Query.modeOf xs ∧ s.text = Token.spell (Clause.renderAll cs) := by
  rw [compile_eq_ok]
  constructor
  · rintro ⟨clauses, rs, cs, r, hclauses, hcheck, hread, henter, htable, hmode, htext⟩
    obtain rfl : xs = clauses := Except.ok.inj hclauses
    have hvalid := Query.checkClauses_eq_ok.1 hcheck
    rw [Query.inferMode_eq hvalid.bodies] at hmode
    exact ⟨rs, cs, r, hvalid, hread, henter, htable, (Except.ok.inj hmode).symm, htext⟩
  · rintro ⟨rs, cs, r, hvalid, hread, henter, htable, hmode, htext⟩
    refine ⟨xs, rs, cs, r, rfl, Query.checkClauses_eq_ok.2 hvalid, hread, henter, htable, ?_, htext⟩
    rw [Query.inferMode_eq hvalid.bodies, hmode]

theorem compile_eq_error {rs : List Request} {cs : List Clause} {r : Registry} {e : Error}
    (hvalid : Query.IsValid .statement xs) (hread : readClauses xs = ⟨rs, .ok cs⟩)
    (henter : Registry.empty.enterAll rs = (r, some e)) :
    compile (.list xs) parameters override = .error e := by
  have hrun : Registry.empty.run (readClauses xs) = (.error e, r) := by
    rw [Registry.run, hread, henter]
  show ofClauses xs parameters override = .error e
  rw [ofClauses, Query.checkClauses_eq_ok.2 hvalid, hrun]
  rfl

theorem names_of_finalize {r : Registry} (h : (r.finalize parameters).1 = .ok s.parameters) :
    s.names = r.names :=
  (Registry.finalize_eq_ok h).1

/-- The two halves of a UNION share one table, so they have to agree on the values in it. -/
theorem compile_union (hx : compile (.list xs) parameters .null = .ok sx)
    (hy : compile (.list ys) parameters .null = .ok sy) (hplain : Query.IsPlain xs)
    (hplain' : Query.IsPlain ys) :
    ((∀ q ∈ Query.requests (.list ys), q.Agrees (Query.requests (.list xs))) →
      ∃ s, compile (.list (xs ++ .clause (.union false) :: ys)) parameters .null = .ok s ∧
        s.text = sx.text ++ " UNION " ++ sy.text ∧
        s.names = sx.names ++ Registry.newNames sx.names sy.names ∧
        (s.mode = .write ↔ sx.mode = .write ∨ sy.mode = .write)) ∧
    ((¬ ∀ q ∈ Query.requests (.list ys), q.Agrees (Query.requests (.list xs))) →
      ∃ q ∈ Query.requests (.list ys), ∃ v, q.Conflicts (Query.requests (.list xs)) v ∧
        compile (.list (xs ++ .clause (.union false) :: ys)) parameters .null =
          .error (q.conflict v)) := by
  obtain ⟨rs, cs, r, hvalid, hread, henter, htable, hmode, htext⟩ := compile_list_eq_ok.1 hx
  obtain ⟨rs', ds, r', hvalid', hread', henter', htable', hmode', htext'⟩ :=
    compile_list_eq_ok.1 hy
  obtain rfl : rs = Query.requests (.list xs) := (Traces.clauses hread).requests
  obtain rfl : rs' = Query.requests (.list ys) := (Traces.clauses hread').requests
  have hunion := Query.isValid_union hvalid hvalid' hplain hplain'
  have hreads := readClauses_union false hread hread'
  have hboth : Registry.empty.enterAll (Query.requests (.list xs) ++ Query.requests (.list ys)) =
      r.enterAll (Query.requests (.list ys)) := by
    rw [Registry.enterAll_append, henter]
  have hrecords : r.Records (Query.requests (.list xs)) := by
    simpa using Registry.Records.empty.enterAll henter
  have hstart := Registry.Joins.start hrecords (Registry.closed_enterAll rfl henter)
  obtain ⟨hgranted, hrefused⟩ := hstart.enterAll henter'
  constructor
  · intro hagree
    obtain ⟨r₁, hr₁, hjoins⟩ := hgranted hagree
    obtain ⟨table, htable₁⟩ := hjoins.finalize hrecords htable htable'
    let s : Statement := ⟨Token.spell (Clause.renderAll (cs ++ .union false :: ds)), table,
      Query.modeOf (xs ++ .clause (.union false) :: ys)⟩
    refine ⟨s, ?_, ?_, ?_, ?_⟩
    · apply compile_list_eq_ok.2
      exact ⟨_, _, r₁, hunion, hreads, hboth.trans hr₁, htable₁, rfl, rfl⟩
    · rw [htext, htext']
      exact spell_union (readClauses_ne_nil (Query.ne_nil_of_isPlain hvalid hplain) hread)
        (readClauses_ne_nil (Query.ne_nil_of_isPlain hvalid' hplain') hread')
    · rw [names_of_finalize htable, names_of_finalize htable', ← hjoins.names]
      exact (Registry.finalize_eq_ok htable₁).1
    · rw [hmode, hmode']
      exact Query.modeOf_union xs ys
  · intro hother
    obtain ⟨r₁, q, hq, v, hconflict, hr₁⟩ := hrefused hother
    exact ⟨q, hq, v, hconflict, compile_eq_error hunion hreads (hboth.trans hr₁)⟩

theorem compile_call (hx : compile (.list xs) parameters .null = .ok sx)
    (hplain : Query.IsPlain xs) :
    compile (.list [.clause (.subquery (.list xs))]) parameters .null =
      .ok ⟨"CALL \x7b " ++ sx.text ++ " \x7d", sx.parameters, sx.mode⟩ := by
  obtain ⟨rs, cs, r, hvalid, hread, henter, htable, hmode, htext⟩ := compile_list_eq_ok.1 hx
  apply compile_list_eq_ok.2
  refine ⟨rs, [.subquery cs], r, Query.isValid_call hvalid hplain, readClauses_call hread, henter,
    htable, ?_, ?_⟩
  · rw [Query.modeOf_call]
    exact hmode
  · rw [spell_call, ← htext]

/-- Two queries with a UNION between them make a statement if and only if every value that comes with a
name in the second is the same as the first that comes with it in the first; its text, names and mode
are made of theirs.  Where a value is another, the error is one of expressions and shows both, unless an
integer in one of them has too many digits to be shown.  A query in a CALL makes a statement with the
table and the mode of its own. -/
theorem compile_union_iff_agrees (hx : compile (.list xs) parameters .null = .ok sx)
    (hy : compile (.list ys) parameters .null = .ok sy) (hplain : Query.IsPlain xs)
    (hplain' : Query.IsPlain ys) :
    ((∃ s, compile (.list (xs ++ .clause (.union false) :: ys)) parameters .null = .ok s) ↔
      ∀ q ∈ Query.requests (.list ys), q.Agrees (Query.requests (.list xs))) ∧
    ((¬ ∀ q ∈ Query.requests (.list ys), q.Agrees (Query.requests (.list xs))) →
      ∃ q ∈ Query.requests (.list ys), ∃ v, q.Conflicts (Query.requests (.list xs)) v ∧
        compile (.list (xs ++ .clause (.union false) :: ys)) parameters .null =
          .error (if v.isWritable && q.value.isWritable then .expr (.twoValues q.name v q.value)
            else .misuse .unwritable)) ∧
    (∀ s, compile (.list (xs ++ .clause (.union false) :: ys)) parameters .null = .ok s →
      s.text = sx.text ++ " UNION " ++ sy.text ∧
      s.names = sx.names ++ Registry.newNames sx.names sy.names ∧
      (s.mode = .write ↔ sx.mode = .write ∨ sy.mode = .write)) ∧
    compile (.list [.clause (.subquery (.list xs))]) parameters .null =
      .ok ⟨"CALL \x7b " ++ sx.text ++ " \x7d", sx.parameters, sx.mode⟩ := by
  obtain ⟨hgranted, hrefused⟩ := compile_union hx hy hplain hplain'
  have hagrees : ∀ s, compile (.list (xs ++ .clause (.union false) :: ys)) parameters .null = .ok s →
      ∀ q ∈ Query.requests (.list ys), q.Agrees (Query.requests (.list xs)) := by
    intro s hs
    by_contra hother
    obtain ⟨q, -, v, -, herror⟩ := hrefused hother
    rw [herror] at hs
    cases hs
  refine ⟨⟨?_, ?_⟩, hrefused, ?_, compile_call hx hplain⟩
  · rintro ⟨s, hs⟩
    exact hagrees s hs
  · intro hagree
    obtain ⟨s, hs, -⟩ := hgranted hagree
    exact ⟨s, hs⟩
  · intro s hs
    obtain ⟨s', hs', hfacts⟩ := hgranted (hagrees s hs)
    obtain rfl : s = s' := Except.ok.inj (hs.symm.trans hs')
    exact hfacts

/-- A query that reads, with the value 1 under `x`. -/
def readingHalf : List Value := [
  .clause (.matching false (.nodeRef (.text "n") .null
    (.map [(.text "a", .param (.text "x") (.int 1))]))),
  .clause (.returning (.text "n") (.bool false))]

/-- A query that writes; it asks for `y` and has another value under `x`, which is equal to the first. -/
def writingHalf : List Value := [
  .clause (.create (.nodeRef (.text "m") .null
    (.map [(.text "a", .param (.text "y") .unset), (.text "b", .param (.text "x") (.bool true))]))),
  .assign (.property (.text "m") (.text "c")) (.param (.text "x") .unset)]

theorem compile_union_iff_agrees_halves :
    ∃ sx sy s, compile (.list readingHalf) (.map [(.text "y", .int 2)]) .null = .ok sx ∧
      compile (.list writingHalf) (.map [(.text "y", .int 2)]) .null = .ok sy ∧
      compile (.list (readingHalf ++ .clause (.union false) :: writingHalf))
        (.map [(.text "y", .int 2)]) .null = .ok s ∧
      s.text = sx.text ++ " UNION " ++ sy.text ∧
      s.names = sx.names ++ Registry.newNames sx.names sy.names ∧
      (s.mode = .write ↔ sx.mode = .write ∨ sy.mode = .write) := by
  have hhalf : (compile (.list readingHalf) (.map [(.text "y", .int 2)]) .null).toOption.isSome =
      true := by
    decide +kernel
  have hhalf' : (compile (.list writingHalf) (.map [(.text "y", .int 2)]) .null).toOption.isSome =
      true := by
    decide +kernel
  have hboth : (compile (.list (readingHalf ++ .clause (.union false) :: writingHalf))
      (.map [(.text "y", .int 2)]) .null).toOption.isSome = true := by
    decide +kernel
  obtain ⟨sx, hx⟩ := Option.isSome_iff_exists.1 hhalf
  obtain ⟨sy, hy⟩ := Option.isSome_iff_exists.1 hhalf'
  obtain ⟨s, hs⟩ := Option.isSome_iff_exists.1 hboth
  have hx := eq_ok_of_toOption hx
  have hy := eq_ok_of_toOption hy
  have hs := eq_ok_of_toOption hs
  have hplain : Query.IsPlain readingHalf := by decide
  have hplain' : Query.IsPlain writingHalf := by decide
  obtain ⟨-, -, hfacts, -⟩ := compile_union_iff_agrees hx hy hplain hplain'
  exact ⟨sx, sy, s, hx, hy, hs, hfacts s hs⟩

/-- A query that returns a value under `a`. -/
def returningHalf (n : Int) : List Value :=
  [.clause (.returning (.list [.param (.text "a") (.int n)]) (.bool false))]

/-- The error that shows both values cannot be written if one of them has too many digits. -/
theorem compile_union_tooLong :
    (∃ s, compile (.list (returningHalf Numeral.tooLong)) .null .null = .ok s) ∧
    (∃ s, compile (.list (returningHalf 1)) .null .null = .ok s) ∧
    compile (.list (returningHalf Numeral.tooLong ++ .clause (.union false) :: returningHalf 1))
      .null .null = .error (.misuse .unwritable) := by
  have hhalf (n : Int) : ∃ s, compile (.list (returningHalf n)) .null .null = .ok s := ⟨_, rfl⟩
  obtain ⟨sx, hx⟩ := hhalf Numeral.tooLong
  obtain ⟨sy, hy⟩ := hhalf 1
  refine ⟨⟨sx, hx⟩, ⟨sy, hy⟩, ?_⟩
  have hconflict : (Request.mk (.text "a") (.int 1)).Conflicts
      [⟨.text "a", .int Numeral.tooLong⟩] (.int Numeral.tooLong) :=
    ⟨"a", rfl, rfl, by decide +kernel⟩
  obtain ⟨q, hq, v, ⟨name, hv, hw, -⟩, herror⟩ :=
    (compile_union hx hy (by decide) (by decide)).2 fun h =>
      hconflict.not_agrees (h ⟨.text "a", .int 1⟩ List.mem_cons_self)
  obtain ⟨p, hp, hv⟩ := List.exists_of_findSome?_eq_some hv
  obtain rfl : p = ⟨.text "a", .int Numeral.tooLong⟩ := List.mem_singleton.1 hp
  obtain ⟨-, -, rfl⟩ := Request.valueFor?_eq_some.1 hv
  rw [herror, Request.conflict, Value.isWritable_int, Numeral.isWritable_tooLong]
  rfl

end Statement

end CypherCompose
