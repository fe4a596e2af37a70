import CypherCompose.Proofs.Composition
import CypherCompose.Proofs.Flattening
import CypherCompose.Proofs.SetRuns

/-!
# One SET for each run

Reading collects the assignments of a run and writes them as one SET when the run ends.  `readFrom` is a
reading that starts with assignments pending; `readFrom_settings` says what a run adds to them, and
`readFrom_plain` that any other clause writes them and starts anew.  From the two it follows

* that a query reads the same with its runs joined (`readFrom_joined`), and
* that its text is laid out run by run (`Lays`): one SET for each run, in its place between the texts of
  the other clauses.
-/

namespace CypherCompose

open Value

section Reading

variable {rs : List Request} {pending : List Assignment} {ds : List Clause} {c v body : Value}
  {cs ss : List Value}

/-! ## Assignments one after the other -/

theorem readSetItem_owner {c d v : Value} {a : Assignment} (h : readSetItem c v = ⟨rs, .ok a⟩) :
    readSetItem d v = ⟨rs, .ok a⟩ := by
  unfold readSetItem at h
  split at h
  · exact h
  · exact h
  · cases h

theorem readEachWith_mono {α : Type} {f g : Value → Draft α} {vs : List Value} {as : List α}
    (hfg : ∀ v rs a, f v = ⟨rs, .ok a⟩ → g v = ⟨rs, .ok a⟩) (h : readEachWith f vs = ⟨rs, .ok as⟩) :
    readEachWith g vs = ⟨rs, .ok as⟩ := by
  induction vs generalizing rs as with
  | nil => exact h
  | cons v vs ih =>
    simp only [readEachWith, Draft.bind_eq_ok] at h ⊢
    obtain ⟨ps, a, qs, ha, ⟨ps', as', qs', has, hpure, rfl⟩, rfl⟩ := h
    exact ⟨ps, a, _, hfg v ps a ha, ⟨ps', as', qs', ih has, hpure, rfl⟩, rfl⟩

theorem readEachWith_append {α : Type} (read : Value → Draft α) (vs ws : List Value) :
    readEachWith read (vs ++ ws) = (do
      let as ← readEachWith read vs
      let bs ← readEachWith read ws
      pure (as ++ bs)) := by
  induction vs with
  | nil =>
    change _ = (pure [] : Draft (List α)) >>= _
    simp only [List.nil_append, pure_bind, bind_pure]
  | cons v vs ih =>
    simp only [List.cons_append, readEachWith, ih, bind_assoc, pure_bind]

theorem readEachWith_append_eq_ok {α : Type} {f : Value → Draft α} {vs ws : List Value} {as : List α} :
    readEachWith f (vs ++ ws) = ⟨rs, .ok as⟩ ↔
      ∃ ps bs qs cs, readEachWith f vs = ⟨ps, .ok bs⟩ ∧ readEachWith f ws = ⟨qs, .ok cs⟩ ∧
        rs = ps ++ qs ∧ as = bs ++ cs := by
  simp only [readEachWith_append, Draft.bind_eq_ok, Draft.pure_eq_ok]
  constructor
  · rintro ⟨ps, bs, _, hbs, ⟨qs, cs, _, hcs, ⟨rfl, rfl⟩, rfl⟩, rfl⟩
    exact ⟨ps, bs, qs, cs, hbs, hcs, by rw [List.append_nil], rfl⟩
  · rintro ⟨ps, bs, qs, cs, hbs, hcs, rfl, rfl⟩
    exact ⟨ps, bs, qs, hbs, ⟨qs, cs, [], hcs, ⟨rfl, rfl⟩, by rw [List.append_nil]⟩, rfl⟩

/-- The assignments of some items, whichever clause holds them. -/
def readAssigned (items : List Value) : Draft (List Assignment) :=
  readEachWith (readSetItem .null) items

theorem readAssigned_eq_ok {items : List Value} {as : List Assignment} (owner : Value) :
    readAssigned items = ⟨rs, .ok as⟩ ↔ readEachWith (readSetItem owner) items = ⟨rs, .ok as⟩ :=
  ⟨readEachWith_mono fun _ _ _ => readSetItem_owner, readEachWith_mono fun _ _ _ => readSetItem_owner⟩

/-! ## Clause by clause -/

/-- A SET with at least one assignment, or any other clause. -/
def Value.IsFilled (v : Value) : Prop :=
  ∀ items, v = .clause (.set items) → items.asList ≠ []

theorem Value.IsFilled.assigned_ne_nil (h : v.IsFilled) : v.assigned ≠ [] := by
  unfold assigned
  split
  · exact h _ rfl
  · simp

theorem readClause_setting {i : Nat} {r : ClauseReading} (hv : v.isSetting = true)
    (hfilled : v.IsFilled) :
    readClause i v = ⟨rs, .ok r⟩ ↔
      ∃ as, readAssigned v.assigned = ⟨rs, .ok as⟩ ∧ r = .assignments as := by
  unfold isSetting at hv
  split at hv
  · rename_i target value
    simp only [readClause, readAssigned, assigned, readEachWith, readSetItem, Draft.bind_eq_ok,
      Draft.pure_eq_ok, Draft.done_eq_ok]
    constructor
    · rintro ⟨ps, a, _, ha, ⟨rfl, rfl⟩, rfl⟩
      exact ⟨[a], ⟨ps, a, [], ha, ⟨[], [], [], ⟨rfl, rfl⟩, ⟨rfl, rfl⟩, rfl⟩, rfl⟩, rfl⟩
    · rintro ⟨_, ⟨ps, a, _, ha, ⟨_, _, _, ⟨rfl, rfl⟩, ⟨rfl, rfl⟩, rfl⟩, rfl⟩, rfl⟩
      exact ⟨ps, a, [], ha, ⟨rfl, rfl⟩, rfl⟩
  · rename_i items
    have hitems : readItems (.noAssignments (.clause (.set items))) items = .done items.asList := by
      rw [readItems, if_neg (by simpa using hfilled items rfl)]
    simp only [readClause, readAssignments, hitems, assigned, Draft.bind_eq_ok, Draft.pure_eq_ok,
      Draft.done_eq_ok, readAssigned_eq_ok (.clause (.set items))]
    constructor
    · rintro ⟨_, as, _, ⟨_, _, ps, ⟨rfl, rfl⟩, has, rfl⟩, ⟨rfl, rfl⟩, rfl⟩
      exact ⟨as, by simpa using has, rfl⟩
    · rintro ⟨as, has, rfl⟩
      exact ⟨rs, as, [], ⟨[], _, rs, ⟨rfl, rfl⟩, has, rfl⟩, ⟨rfl, rfl⟩, by simp⟩
  · cases hv

theorem readClause_plain {i : Nat} {r : ClauseReading} (hv : v.isSetting = false)
    (h : readClause i v = ⟨rs, .ok r⟩) : ∃ d, r = .clause d := by
  unfold readClause at h
  split at h
  · cases hv
  · cases hv
  all_goals
    simp only [Draft.bind_eq_ok, Draft.pure_eq_ok] at h
    grind

/-- A reading of clauses with assignments pending. -/
def readFrom (pending : List Assignment) (cs : List Value) : Draft (List Clause) := do
  let rs ← readEachClause 0 cs
  pure (groupFrom pending rs)

theorem readFrom_eq_ok :
    readFrom pending cs = ⟨rs, .ok ds⟩ ↔
      ∃ as, readEachClause 0 cs = ⟨rs, .ok as⟩ ∧ groupFrom pending as = ds := by
  simp only [readFrom, Draft.bind_eq_ok, Draft.pure_eq_ok]
  constructor
  · rintro ⟨us, as, _, has, ⟨rfl, rfl⟩, rfl⟩
    exact ⟨as, by rw [List.append_nil, has], rfl⟩
  · rintro ⟨as, has, rfl⟩
    exact ⟨rs, as, [], has, ⟨rfl, rfl⟩, (List.append_nil rs).symm⟩

theorem readEachClause_cons {as : List ClauseReading} :
    readEachClause 0 (v :: cs) = ⟨rs, .ok as⟩ ↔
      ∃ ps a qs bs, readClause 0 v = ⟨ps, .ok a⟩ ∧ readEachClause 0 cs = ⟨qs, .ok bs⟩ ∧
        rs = ps ++ qs ∧ as = a :: bs := by
  simp only [readEachClause, Draft.bind_eq_ok, Draft.pure_eq_ok]
  constructor
  · rintro ⟨ps, a, _, ha, ⟨qs, bs, _, hbs, ⟨rfl, rfl⟩, rfl⟩, rfl⟩
    exact ⟨ps, a, qs, bs, ha, readEachClause_shift hbs 0, by simp, rfl⟩
  · rintro ⟨ps, a, qs, bs, ha, hbs, rfl, rfl⟩
    exact ⟨ps, a, qs, ha, ⟨qs, bs, [], readEachClause_shift hbs 1, ⟨rfl, rfl⟩, by simp⟩, rfl⟩

theorem readFrom_setting (hv : v.isSetting = true) (hfilled : v.IsFilled) :
    readFrom pending (v :: cs) = ⟨rs, .ok ds⟩ ↔
      ∃ ps as qs, readAssigned v.assigned = ⟨ps, .ok as⟩ ∧
        readFrom (pending ++ as) cs = ⟨qs, .ok ds⟩ ∧ rs = ps ++ qs := by
  simp only [readFrom_eq_ok, readEachClause_cons, readClause_setting hv hfilled]
  constructor
  · rintro ⟨_, ⟨ps, _, qs, bs, ⟨as, has, rfl⟩, hbs, rfl, rfl⟩, rfl⟩
    exact ⟨ps, as, qs, has, ⟨bs, hbs, rfl⟩, rfl⟩
  · rintro ⟨ps, as, qs, has, ⟨bs, hbs, rfl⟩, rfl⟩
    exact ⟨_, ⟨ps, _, qs, bs, ⟨as, has, rfl⟩, hbs, rfl, rfl⟩, rfl⟩

theorem readFrom_settings (hss : ∀ s ∈ ss, s.isSetting = true) (hfilled : ∀ s ∈ ss, s.IsFilled) :
    readFrom pending (ss ++ cs) = ⟨rs, .ok ds⟩ ↔
      ∃ ps as qs, readAssigned (ss.flatMap assigned) = ⟨ps, .ok as⟩ ∧
        readFrom (pending ++ as) cs = ⟨qs, .ok ds⟩ ∧ rs = ps ++ qs := by
  induction ss generalizing pending rs with
  | nil =>
    constructor
    · intro h
      exact ⟨[], [], rs, rfl, by simpa using h, rfl⟩
    · rintro ⟨ps, as, qs, has, h, rfl⟩
      obtain ⟨rfl, rfl⟩ := Draft.done_eq_ok.1 has
      simpa using h
  | cons s ss ih =>
    obtain ⟨hs, hss⟩ := List.forall_mem_cons.1 hss
    obtain ⟨hfilled, hfilled'⟩ := List.forall_mem_cons.1 hfilled
    rw [List.cons_append, readFrom_setting hs hfilled, List.flatMap_cons]
    simp only [ih hss hfilled', readAssigned, readEachWith_append_eq_ok]
    constructor
    · rintro ⟨ps, as, _, has, ⟨qs, bs, qs', hbs, h, rfl⟩, rfl⟩
      exact ⟨ps ++ qs, as ++ bs, qs', ⟨ps, as, qs, bs, has, hbs, rfl, rfl⟩, by simpa using h, by simp⟩
    · rintro ⟨_, _, qs', ⟨ps, as, qs, bs, has, hbs, rfl, rfl⟩, h, rfl⟩
      exact ⟨ps, as, qs ++ qs', has, ⟨qs, bs, qs', hbs, by simpa using h, rfl⟩, by simp⟩

theorem readFrom_plain (hc : c.isSetting = false) :
    readFrom pending (c :: cs) = ⟨rs, .ok ds⟩ ↔
      ∃ ps d qs es, readClause 0 c = ⟨ps, .ok (.clause d)⟩ ∧ readFrom [] cs = ⟨qs, .ok es⟩ ∧
        rs = ps ++ qs ∧ ds = setOf pending ++ d :: es := by
  simp only [readFrom_eq_ok, readEachClause_cons]
  constructor
  · rintro ⟨_, ⟨ps, a, qs, bs, ha, hbs, rfl, rfl⟩, rfl⟩
    obtain ⟨d, rfl⟩ := readClause_plain hc ha
    exact ⟨ps, d, qs, _, ha, ⟨bs, hbs, rfl⟩, rfl, rfl⟩
  · rintro ⟨ps, d, qs, _, hd, ⟨bs, hbs, rfl⟩, rfl, rfl⟩
    exact ⟨_, ⟨ps, _, qs, bs, hd, hbs, rfl, rfl⟩, rfl⟩

/-! ## Joined runs -/

theorem isFilled_setOfRun (hne : ss ≠ []) (hfilled : ∀ s ∈ ss, s.IsFilled) :
    (setOfRun ss).IsFilled := by
  intro items h
  obtain ⟨s, ss, rfl⟩ := List.exists_cons_of_ne_nil hne
  cases h
  rw [asList, List.flatMap_cons]
  have hs := (hfilled s List.mem_cons_self).assigned_ne_nil
  simp [hs]

theorem readFrom_joinRuns (hfilled : ∀ c ∈ cs, c.IsFilled) :
    readFrom pending (joinRuns cs) = ⟨rs, .ok ds⟩ ↔ readFrom pending cs = ⟨rs, .ok ds⟩ := by
  induction cs using induct_runs generalizing pending rs ds with
  | nil => exact Iff.rfl
  | plain c cs hc ih =>
    have ih' (qs : List Request) (es : List Clause) :
        readFrom [] (joinRuns cs) = ⟨qs, .ok es⟩ ↔ readFrom [] cs = ⟨qs, .ok es⟩ :=
      ih (List.forall_mem_cons.1 hfilled).2
    simp only [joinRuns_cons_plain hc, readFrom_plain hc, ih']
  | run ss cs hne hss hcs ih =>
    obtain ⟨hfilled, hfilled'⟩ := List.forall_mem_append.1 hfilled
    have hset := isFilled_setOfRun hne hfilled
    rw [joinRuns_append hne hss hcs, readFrom_setting rfl hset, readFrom_settings hss hfilled]
    simp only [ih hfilled']
    rfl

theorem readEachClause_map_joined {as : List ClauseReading}
    (h : ∀ c ∈ cs, ∀ rs r, readClause 0 (joined c) = ⟨rs, .ok r⟩ ↔ readClause 0 c = ⟨rs, .ok r⟩) :
    readEachClause 0 (cs.map joined) = ⟨rs, .ok as⟩ ↔ readEachClause 0 cs = ⟨rs, .ok as⟩ := by
  induction cs generalizing rs as with
  | nil => exact Iff.rfl
  | cons c cs ih =>
    obtain ⟨hc, hcs⟩ := List.forall_mem_cons.1 h
    simp only [List.map_cons, readEachClause_cons, hc, ih hcs]

theorem isFilled_joined (hc : c.IsFilled) : (joined c).IsFilled := by
  unfold joined
  split
  · nofun
  · nofun
  · exact hc

theorem readClauses_joined_of_forall (hfilled : ∀ c ∈ cs, c.IsFilled)
    (h : ∀ c ∈ cs, ∀ rs r, readClause 0 (joined c) = ⟨rs, .ok r⟩ ↔ readClause 0 c = ⟨rs, .ok r⟩) :
    readClauses (joinRuns (cs.map joined)) = ⟨rs, .ok ds⟩ ↔ readClauses cs = ⟨rs, .ok ds⟩ := by
  have hfilled' : ∀ c ∈ cs.map joined, c.IsFilled :=
    List.forall_mem_map.2 fun c hc => isFilled_joined (hfilled c hc)
  calc readClauses (joinRuns (cs.map joined)) = ⟨rs, .ok ds⟩
    _ ↔ readFrom [] (cs.map joined) = ⟨rs, .ok ds⟩ := readFrom_joinRuns hfilled'
    _ ↔ readClauses cs = ⟨rs, .ok ds⟩ := by
        simp only [readFrom_eq_ok, readClauses_eq_ok, readEachClause_map_joined h, groupRuns]

theorem readBody_of_listed? {owner : Value} (h : body.listed? = some cs) :
    readBody owner body = readClauses cs := by
  unfold listed? at h
  split at h <;> cases h <;> rw [readBody, readClauses]

theorem readBody_eq_ok {owner : Value} (h : readBody owner body = ⟨rs, .ok ds⟩) :
    ∃ cs, body.listed? = some cs ∧ readClauses cs = ⟨rs, .ok ds⟩ := by
  cases hbody : body.listed? with
  | none =>
    unfold readBody at h
    split at h
    · cases hbody
    · cases hbody
    · cases hbody
    · cases h
  | some cs => exact ⟨cs, rfl, by rw [← readBody_of_listed? hbody, h]⟩

/-- What a clause with a body is read as, by what its body is read as. -/
theorem readClause_joined_of_body {scope : Scope} {i : Nat} {r : ClauseReading}
    (hv : v.nested? = some (scope, body))
    (h : ∀ rs ds, readBody (joined v) (joinedBody body) = ⟨rs, .ok ds⟩ ↔
      readBody v body = ⟨rs, .ok ds⟩) :
    readClause i (joined v) = ⟨rs, .ok r⟩ ↔ readClause i v = ⟨rs, .ok r⟩ := by
  unfold nested? at hv
  split at hv <;> cases hv
  · rw [joined] at h ⊢
    simp only [readClause, Draft.bind_eq_ok, h]
  · rw [joined] at h ⊢
    simp only [readClause, Draft.bind_eq_ok, h, readAlias, Draft.ofOption_eq_ok]

theorem readClause_joined (v : Value) (hfilled : ∀ c ∈ v.inside, c.IsFilled) (i : Nat)
    (rs : List Request) (r : ClauseReading) :
    readClause i (joined v) = ⟨rs, .ok r⟩ ↔ readClause i v = ⟨rs, .ok r⟩ := by
  induction v using induct_nested generalizing i rs r with
  | step v ih =>
    cases hv : v.nested? with
    | none => rw [joined_of_none hv]
    | some nested =>
      obtain ⟨scope, body⟩ := nested
      cases hbody : body.listed? with
      | none => rw [joined_of_listed?_none hv hbody]
      | some cs =>
        rw [inside_of_nested? hv, insideBody_of_listed? hbody, Query.forall_mem_everyClause] at hfilled
        refine readClause_joined_of_body hv fun rs ds => ?_
        rw [readBody_of_listed? hbody, readBody_of_listed? (listed?_joinedBody hbody)]
        refine readClauses_joined_of_forall (fun c hc => (hfilled c hc).1) fun c hc rs r => ?_
        exact ih scope body cs hv hbody c hc (hfilled c hc).2 0 rs r

/-- Clauses are read the same with their runs joined. -/
theorem readClauses_joined (hfilled : ∀ c ∈ everyClause cs, c.IsFilled) :
    readClauses (joinRuns (cs.map joined)) = ⟨rs, .ok ds⟩ ↔ readClauses cs = ⟨rs, .ok ds⟩ := by
  rw [Query.forall_mem_everyClause] at hfilled
  exact readClauses_joined_of_forall (fun c hc => (hfilled c hc).1) fun c hc =>
    readClause_joined c (hfilled c hc).2 0

end Reading

/-! ## The text, run by run -/

/-- The text of an assignment. -/
def Value.assignmentText? : Value → Option String
  | assign target value => do some ((← target.rendered?) ++ " = " ++ (← value.rendered?))
  | tuple [target, value] => do some ((← target.rendered?) ++ " = " ++ (← value.rendered?))
  | _ => none

/-- The text of a clause that has no body and is not made of assignments. -/
def Value.ownText? (v : Value) : Option String :=
  (readPlain 0 v).outcome.toOption.map fun c => Token.spell c.render

mutual

/-- The text of a run: one SET with all its assignments, or the text of a single clause. -/
inductive Writes : List Value → String → Prop where
  | set {run : List Value} {texts : List String} (hrun : ∀ v ∈ run, v.isSetting = true)
      (htexts : (run.flatMap assigned).mapM assignmentText? = some texts) :
      Writes run ("SET " ++ ", ".intercalate texts)
  | plain {v : Value} {text : String} (hplain : v.isSetting = false) (hnested : v.nested? = none)
      (htext : v.ownText? = some text) : Writes [v] text
  | call {body : Value} {cs : List Value} {text : String} (hbody : body.listed? = some cs)
      (htext : Lays cs text) : Writes [.clause (.subquery body)] ("CALL \x7b " ++ text ++ " \x7d")
  | forEach {source binding body : Value} {n : Name} {list : String} {cs : List Value} {text : String}
      (hname : Name.ofValue? binding = some n) (hsource : source.rendered? = some list)
      (hbody : body.listed? = some cs) (htext : Lays cs text) :
      Writes [.clause (.forEach source binding body)]
        ("FOREACH (" ++ n.filled ++ " IN " ++ list ++ " | " ++ text ++ ")")

/-- The text of clauses: the texts of their runs, in order, with blanks between them. -/
inductive Lays : List Value → String → Prop where
  | runs {cs : List Value} {parts : List String} (h : List.Forall₂ Writes (runs cs) parts) :
      Lays cs (" ".intercalate parts)

end

section Layout

variable {rs : List Request} {ds : List Clause} {v : Value} {cs ss : List Value}

theorem Token.spell_intercalate (sep : List Token) (parts : List (List Token)) :
    spell (List.intercalate sep parts) = (spell sep).intercalate (parts.map spell) := by
  induction parts with
  | nil => simp
  | cons p ps ih =>
    cases ps with
    | nil => simp
    | cons q ps =>
      rw [List.intercalate_cons_cons, List.map_cons, List.map_cons, String.intercalate_cons_cons,
        spell_append, spell_append, ih, List.map_cons]

theorem Clause.spell_renderAll (ds : List Clause) :
    Token.spell (renderAll ds) = " ".intercalate (ds.map fun d => Token.spell d.render) := by
  rw [renderAll, Token.blanks, Token.spell_intercalate, renderEach_eq_map, List.map_map]
  rfl

theorem Token.spell_after (keyword : String) (ts : List Token) :
    spell (after keyword ts) = keyword ++ " " ++ spell ts := by
  rw [after, spell_cons, spell_cons, ← String.append_assoc]
  rfl

theorem spell_renderAssignments (as : List Assignment) :
    Token.spell (renderAssignments as) = ", ".intercalate (as.map fun a => Token.spell a.render) := by
  rw [renderAssignments, Token.commas, Token.spell_intercalate, List.map_map]
  rfl

theorem Clause.spell_set (as : List Assignment) :
    Token.spell (set as).render = "SET " ++ ", ".intercalate (as.map fun a => Token.spell a.render) := by
  rw [render, Token.spell_after, spell_renderAssignments]
  rfl

theorem Clause.spell_subquery (ds : List Clause) :
    Token.spell (subquery ds).render = "CALL \x7b " ++ Token.spell (renderAll ds) ++ " \x7d" := by
  rw [← spell_call, spell_renderAll, List.map_singleton, String.intercalate_singleton]

theorem Clause.spell_forEach (n : Name) (e : Expr) (ds : List Clause) :
    Token.spell (forEach n e ds).render =
      "FOREACH (" ++ n.filled ++ " IN " ++ e.filledText ++ " | " ++ Token.spell (renderAll ds) ++
        ")" := by
  have hrender : (forEach n e ds).render =
      [Token.sym "FOREACH", Token.blank, Token.sym "("] ++ [Token.filledName n] ++
        [Token.blank, Token.sym "IN", Token.blank] ++ Token.fill e.render ++
        [Token.blank, Token.sym "|", Token.blank] ++ renderAll ds ++ [Token.sym ")"] := by
    simp [render, renderAll]
  have hopen : Token.spell [.sym "FOREACH", .blank, .sym "("] = "FOREACH (" := by decide
  have hin : Token.spell [.blank, .sym "IN", .blank] = " IN " := by decide
  have hbar : Token.spell [.blank, .sym "|", .blank] = " | " := by decide
  rw [hrender]
  simp only [Token.spell_append, hopen, hin, hbar]
  simp [Token.spelling, Expr.filledText]

theorem spell_of_readAssign {target value : Value} {a : Assignment}
    (h : readAssign target value = ⟨rs, .ok a⟩) :
    ∃ t u, target.rendered? = some t ∧ value.rendered? = some u ∧
      Token.spell a.render = t ++ " = " ++ u := by
  have hparts : ∃ ps qs, Expr.ofValue target = ⟨ps, .ok a.target⟩ ∧
      Expr.ofValue value = ⟨qs, .ok a.value⟩ := by
    unfold readAssign at h
    split at h
    · simp only [Draft.bind_eq_ok, Draft.pure_eq_ok] at h
      obtain ⟨ps, t, _, ht, ⟨qs, u, _, hu, ⟨rfl, -⟩, -⟩, -⟩ := h
      exact ⟨ps, qs, ht, hu⟩
    · simp only [Draft.bind_eq_ok, Draft.pure_eq_ok] at h
      obtain ⟨ps, t, _, ht, ⟨qs, u, _, hu, ⟨rfl, -⟩, -⟩, -⟩ := h
      exact ⟨ps, qs, ht, hu⟩
    · cases h
  obtain ⟨ps, qs, htarget, hvalue⟩ := hparts
  refine ⟨_, _, rendered?_of_ofValue htarget, rendered?_of_ofValue hvalue, ?_⟩
  rw [Assignment.render, Token.spell_append, Token.spell_append]
  rfl

theorem assignmentText?_of_readSetItem {owner : Value} {a : Assignment}
    (h : readSetItem owner v = ⟨rs, .ok a⟩) : v.assignmentText? = some (Token.spell a.render) := by
  unfold readSetItem at h
  split at h
  · obtain ⟨t, u, ht, hu, htext⟩ := spell_of_readAssign h
    rw [htext, assignmentText?, ht, hu]
    rfl
  · obtain ⟨t, u, ht, hu, htext⟩ := spell_of_readAssign h
    rw [htext, assignmentText?, ht, hu]
    rfl
  · cases h

theorem mapM_assignmentText? {items : List Value} {as : List Assignment}
    (h : readAssigned items = ⟨rs, .ok as⟩) :
    items.mapM assignmentText? = some (as.map fun a => Token.spell a.render) := by
  induction items generalizing rs as with
  | nil =>
    obtain ⟨rfl, -⟩ := Draft.done_eq_ok.1 h
    rfl
  | cons v vs ih =>
    simp only [readAssigned, readEachWith, Draft.bind_eq_ok, Draft.pure_eq_ok] at h
    obtain ⟨_, a, _, ha, ⟨_, bs, _, hbs, ⟨rfl, -⟩, -⟩, -⟩ := h
    rw [List.mapM_cons, assignmentText?_of_readSetItem ha, ih hbs]
    rfl

/-- Behind a run, reading starts anew. -/
theorem readFrom_pending {pending : List Assignment} (hcs : ∀ c ∈ cs.head?, c.isSetting = false)
    (h : readFrom pending cs = ⟨rs, .ok ds⟩) :
    ∃ es, readFrom [] cs = ⟨rs, .ok es⟩ ∧ ds = setOf pending ++ es := by
  cases cs with
  | nil =>
    obtain ⟨as, has, rfl⟩ := readFrom_eq_ok.1 h
    obtain ⟨rfl, rfl⟩ := Draft.done_eq_ok.1 has
    exact ⟨[], rfl, (List.append_nil _).symm⟩
  | cons c cs =>
    have hc := hcs c rfl
    obtain ⟨ps, d, qs, es, hd, hes, rfl, rfl⟩ := (readFrom_plain hc).1 h
    exact ⟨d :: es, (readFrom_plain hc).2 ⟨ps, d, qs, es, hd, hes, rfl, rfl⟩, rfl⟩

/-- Each run is one clause of the statement, if other clauses are written as they are by
themselves. -/
theorem forall₂_writes (hfilled : ∀ c ∈ cs, c.IsFilled)
    (hplain : ∀ c ∈ cs, c.isSetting = false → ∀ rs d, readClause 0 c = ⟨rs, .ok (.clause d)⟩ →
      Writes [c] (Token.spell d.render))
    (h : readFrom [] cs = ⟨rs, .ok ds⟩) :
    List.Forall₂ Writes (runs cs) (ds.map fun d => Token.spell d.render) := by
  induction cs using induct_runs generalizing rs ds with
  | nil =>
    obtain ⟨as, has, rfl⟩ := readFrom_eq_ok.1 h
    obtain ⟨rfl, -⟩ := Draft.done_eq_ok.1 has
    exact .nil
  | plain c cs hc ih =>
    obtain ⟨hfilledc, hfilled⟩ := List.forall_mem_cons.1 hfilled
    obtain ⟨hplainc, hplain⟩ := List.forall_mem_cons.1 hplain
    obtain ⟨ps, d, qs, es, hd, hes, rfl, rfl⟩ := (readFrom_plain hc).1 h
    rw [runs_cons_plain hc]
    exact .cons (hplainc hc ps d hd) (ih hfilled hplain hes)
  | run ss cs hne hss hcs ih =>
    obtain ⟨hfilleds, hfilled⟩ := List.forall_mem_append.1 hfilled
    obtain ⟨-, hplain⟩ := List.forall_mem_append.1 hplain
    obtain ⟨ps, as, qs, has, hrest, rfl⟩ := (readFrom_settings hss hfilleds).1 h
    obtain ⟨es, hes, rfl⟩ := readFrom_pending hcs hrest
    have hitems : ss.flatMap assigned ≠ [] := isFilled_setOfRun hne hfilleds _ rfl
    have hset : setOf ([] ++ as) = [.set as] := if_neg (by simpa using readEachWith_ne_nil hitems has)
    rw [runs_append hne hss hcs, hset, List.singleton_append, List.map_cons, Clause.spell_set]
    exact .cons (.set hss (mapM_assignmentText? has)) (ih hfilled hplain hes)

theorem lays_of_forall (hfilled : ∀ c ∈ cs, c.IsFilled)
    (hplain : ∀ c ∈ cs, c.isSetting = false → ∀ rs d, readClause 0 c = ⟨rs, .ok (.clause d)⟩ →
      Writes [c] (Token.spell d.render))
    (h : readClauses cs = ⟨rs, .ok ds⟩) : Lays cs (Token.spell (Clause.renderAll ds)) := by
  rw [Clause.spell_renderAll]
  exact .runs (forall₂_writes hfilled hplain h)

theorem ownText?_of_readClause (hv : v.isSetting = false) (hnested : v.nested? = none) {d : Clause}
    (h : readClause 0 v = ⟨rs, .ok (.clause d)⟩) : v.ownText? = some (Token.spell d.render) := by
  have hread : ∃ qs, readPlain 0 v = ⟨qs, .ok d⟩ := by
    unfold readClause at h
    split at h
    · cases hv
    · cases hv
    · cases hnested
    · cases hnested
    · simp only [Draft.bind_eq_ok, Draft.pure_eq_ok] at h
      obtain ⟨qs, c, _, hc, ⟨hd, -⟩, -⟩ := h
      cases hd
      exact ⟨qs, hc⟩
  obtain ⟨qs, hread⟩ := hread
  rw [ownText?, hread]
  rfl

theorem writes_of_readClause (v : Value) (hfilled : ∀ c ∈ v.inside, c.IsFilled)
    (hv : v.isSetting = false) {d : Clause} (h : readClause 0 v = ⟨rs, .ok (.clause d)⟩) :
    Writes [v] (Token.spell d.render) := by
  induction v using induct_nested generalizing rs d with
  | step v ih =>
    cases hnested : v.nested? with
    | none => exact .plain hv hnested (ownText?_of_readClause hv hnested h)
    | some nested =>
      obtain ⟨scope, body⟩ := nested
      have hbody {owner : Value} {qs : List Request} {ds : List Clause}
          (hread : readBody owner body = ⟨qs, .ok ds⟩) :
          ∃ cs, body.listed? = some cs ∧ Lays cs (Token.spell (Clause.renderAll ds)) := by
        obtain ⟨cs, hcs, hread⟩ := readBody_eq_ok hread
        rw [inside_of_nested? hnested, insideBody_of_listed? hcs, Query.forall_mem_everyClause]
          at hfilled
        refine ⟨cs, hcs, lays_of_forall (fun c hc => (hfilled c hc).1) (fun c hc hplain rs d hd => ?_)
          hread⟩
        exact ih scope body cs hnested hcs c hc (hfilled c hc).2 hplain hd
      unfold nested? at hnested
      split at hnested <;> cases hnested
      · simp only [readClause, Draft.bind_eq_ok, Draft.pure_eq_ok] at h
        obtain ⟨_, ds, _, hds, ⟨hd, -⟩, -⟩ := h
        cases hd
        obtain ⟨cs, hcs, hlays⟩ := hbody hds
        rw [Clause.spell_subquery]
        exact .call hcs hlays
      · simp only [readClause, readAlias, Draft.bind_eq_ok, Draft.pure_eq_ok, Draft.ofOption_eq_ok] at h
        obtain ⟨_, e, _, he, ⟨_, ds, _, hds, ⟨_, n, _, ⟨hn, -⟩, ⟨hd, -⟩, -⟩, -⟩, -⟩ := h
        cases hd
        obtain ⟨cs, hcs, hlays⟩ := hbody hds
        rw [Clause.spell_forEach]
        exact .forEach hn (rendered?_of_ofValue he) hcs hlays

/-- A query is written run by run. -/
theorem lays_of_readClauses (hfilled : ∀ c ∈ everyClause cs, c.IsFilled)
    (h : readClauses cs = ⟨rs, .ok ds⟩) : Lays cs (Token.spell (Clause.renderAll ds)) := by
  rw [Query.forall_mem_everyClause] at hfilled
  exact lays_of_forall (fun c hc => (hfilled c hc).1)
    (fun c hc hplain _ _ hd => writes_of_readClause c (hfilled c hc).2 hplain hd) h

end Layout

namespace Query

/-- A query with one SET in the place of each run of assignments, at every depth. -/
def joined (query : Value) : Value :=
  match clausesOf query with
  | .ok clauses => .list (joinRuns (clauses.map Value.joined))
  | .error _ => query

theorem joined_eq {query : Value} {clauses : List Value} (h : clausesOf query = .ok clauses) :
    joined query = .list (joinRuns (clauses.map Value.joined)) := by
  rw [joined, h]

theorem inferMode_joined (clauses : List Value) (override : Value) :
    inferMode (.list (joinRuns (clauses.map Value.joined))) override =
      inferMode (.list clauses) override := by
  have hmutations (cs : List Value) : hasMutations (.list cs) = anyMutates cs := rfl
  rw [inferMode, inferMode, hmutations, hmutations, anyMutates_joined]

end Query

namespace Statement

/-- Joining every run of assignments into one SET does not change the statement, and the statement's
text has one SET for each run, in its place. -/
theorem compile_joined_iff (query parameters override : Value)
    (hfilled : ∀ clauses, Query.clausesOf query = .ok clauses →
      ∀ items, .clause (.set items) ∈ everyClause clauses → items.asList ≠ []) :
    (∀ s, compile (Query.joined query) parameters override = .ok s ↔
      compile query parameters override = .ok s) ∧
    ∀ s, compile query parameters override = .ok s →
      ∃ clauses, Query.clausesOf query = .ok clauses ∧ Lays clauses s.text := by
  have hfilled' {clauses : List Value} (hclauses : Query.clausesOf query = .ok clauses) :
      ∀ c ∈ everyClause clauses, c.IsFilled := by
    rintro c hc items rfl
    exact hfilled clauses hclauses items hc
  refine ⟨fun s => ?_, fun s h => ?_⟩
  · cases hclauses : Query.clausesOf query with
    | error e => rw [Query.joined, hclauses]
    | ok clauses =>
      have hread (rs : List Request) (ds : List Clause) :
          readClauses (joinRuns (clauses.map Value.joined)) = ⟨rs, .ok ds⟩ ↔
            readClauses clauses = ⟨rs, .ok ds⟩ :=
        readClauses_joined (hfilled' hclauses)
      rw [Query.joined_eq hclauses, compile_eq_ok, compile_eq_ok]
      constructor
      · rintro ⟨cs, rs, ds, r, hcs, hcheck, hds, hrest⟩
        obtain rfl : joinRuns (clauses.map Value.joined) = cs := Except.ok.inj hcs
        rw [Query.inferMode_joined] at hrest
        exact ⟨clauses, rs, ds, r, hclauses, (Query.checkClauses_joined clauses).1 hcheck,
          (hread rs ds).1 hds, hrest⟩
      · rintro ⟨cs, rs, ds, r, hcs, hcheck, hds, hrest⟩
        obtain rfl : clauses = cs := Except.ok.inj (hclauses.symm.trans hcs)
        rw [← Query.inferMode_joined] at hrest
        exact ⟨_, rs, ds, r, rfl, (Query.checkClauses_joined clauses).2 hcheck, (hread rs ds).2 hds,
          hrest⟩
  · obtain ⟨clauses, rs, ds, -, hclauses, -, hds, -, -, -, htext⟩ := compile_eq_ok.1 h
    rw [htext]
    exact ⟨clauses, hclauses, lays_of_readClauses (hfilled' hclauses) hds⟩

/-- A query with a run of four assignments, one in the body of a FOREACH, and one at its end. -/
def scatteredSets : Value :=
  let set (key : String) (n : Int) : Value := .assign (.property (.text "n") (.text key)) (.int n)
  .list [
    .clause (.matching false (.text "n")),
    set "a" 1, .clause (.set (.list [set "b" 2, .tuple [.property (.text "n") (.text "c"), .int 3]])),
    set "d" 4,
    .clause (.forEach (.list [.int 1]) (.text "x") (.tuple [
      .clause (.set (set "e" 5)), .clause (.create (.text "m")), set "f" 6, set "g" 7])),
    set "h" 8]

theorem compile_joined_iff_scatteredSets :
    (∀ clauses, Query.clausesOf scatteredSets = .ok clauses →
      ∀ items, .clause (.set items) ∈ everyClause clauses → items.asList ≠ []) ∧
    ∃ s, compile scatteredSets .null .null = .ok s ∧
      compile (Query.joined scatteredSets) .null .null = .ok s ∧
      s.text = "MATCH (n) SET n.a = 1, n.b = 2, n.c = 3, n.d = 4 " ++
        "FOREACH (x IN [1] | SET n.e = 5 CREATE (m) SET n.f = 6, n.g = 7) SET n.h = 8" := by
  have hfilled : ∀ clauses, Query.clausesOf scatteredSets = .ok clauses →
      ∀ items, .clause (.set items) ∈ everyClause clauses → items.asList ≠ [] := by
    rintro _ ⟨⟩ items hitems
    simp only [everyClause, inside, insideBody, List.append_nil, List.nil_append, List.cons_append,
      List.mem_cons, clause.injEq, reduceCtorEq, ClauseForm.set.injEq, List.not_mem_nil, or_self,
      or_false, false_or] at hitems
    rcases hitems with rfl | rfl <;> simp [asList]
  have htext : (compile scatteredSets .null .null).toOption.map (·.text) = some (
      "MATCH (n) SET n.a = 1, n.b = 2, n.c = 3, n.d = 4 " ++
        "FOREACH (x IN [1] | SET n.e = 5 CREATE (m) SET n.f = 6, n.g = 7) SET n.h = 8") := by
    decide +kernel
  obtain ⟨s, hs, htext⟩ := Option.map_eq_some_iff.1 htext
  have hs := eq_ok_of_toOption hs
  exact ⟨hfilled, s, hs, ((compile_joined_iff scatteredSets .null .null hfilled).1 s).2 hs, htext⟩

end Statement

end CypherCompose
