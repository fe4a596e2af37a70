import CypherCompose.Clause.Reading
import CypherCompose.Proofs.Trace
import CypherCompose.Query.Clauses

/-!
# The leaves of clauses

`Value.clauseLeaves` lists the leaves of a clause in the order in which they are written, its body
included; `Query.leaves` does so for a whole query, be it clauses or a comprehension.  Reading the
clauses of a query is a trace of its leaves (`Traces.clauses`).

Reading and writing do not go through a clause in the same order everywhere: a FOREACH is read source
first and written binding first, and definitions are written with their own name in front.  What is
out of order are names only, so the requests still come as the parameters are written.
-/

namespace CypherCompose

/-! ## Leaves of clauses -/

namespace Value

/-- The leaves of an expression where a bare text names a variable. -/
def operandLeaves (v : Value) : List (Leaf Request) :=
  if v.isText then v.varLeaves else v.leaves .expr

/-- The leaves of an item of a projection. -/
def projectionLeaves : Value → List (Leaf Request)
  | aliased expr name => expr.operandLeaves ++ name.nameLeaves
  | v => v.operandLeaves

/-- The leaves of an item of a SET. -/
def assignmentLeaves : Value → List (Leaf Request)
  | assign target value => target.leaves .expr ++ value.leaves .expr
  | tuple [target, value] => target.leaves .expr ++ value.leaves .expr
  | _ => []

/-- The leaves of an expression to sort by. -/
def keyLeaves : Value → List (Leaf Request)
  | orderItem expr _ => expr.operandLeaves
  | v => v.operandLeaves

/-- The leaves of an item of an ORDER BY; a marker has none. -/
def sortLeaves (v : Value) : List (Leaf Request) :=
  if (SortOrder.ofValue? v).isSome then [] else v.keyLeaves

/-- The leaves of an item of a REMOVE. -/
def removalLeaves : Value → List (Leaf Request)
  | property owner key => owner.nameLeaves ++ key.nameLeaves
  | nodeRef name label _ => name.nameLeaves ++ label.nameLeaves
  | _ => []

end Value

/-- The leaves of a clause without a body. -/
def ClauseForm.leaves : ClauseForm Value → List (Leaf Request)
  | matching _ patterns => patterns.asList.flatMap (Value.leaves .pattern)
  | filter conditions => conditions.asList.flatMap (Value.leaves .expr)
  | returning items _ => items.asList.flatMap Value.projectionLeaves
  | passing items _ => items.asList.flatMap Value.projectionLeaves
  | unwind source name => source.leaves .expr ++ name.nameLeaves
  | create patterns => patterns.asList.flatMap (Value.leaves .pattern)
  | merge pattern => pattern.asList.flatMap (Value.leaves .pattern)
  | set assignments => assignments.asList.flatMap Value.assignmentLeaves
  | onMerge _ assignments => assignments.asList.flatMap Value.assignmentLeaves
  | remove items => items.asList.flatMap Value.removalLeaves
  | delete _ items => items.asList.flatMap Value.operandLeaves
  | orderBy items => items.asList.flatMap Value.sortLeaves
  | skip value => value.leaves .expr
  | limit value => value.leaves .expr
  | loadCsv _ source name terminator =>
      source.leaves .expr ++ name.nameLeaves ++ terminator.leaves .expr
  | createIndex label properties name _ =>
      name.nameLeaves ++ label.nameLeaves ++ properties.asList.flatMap Value.nameLeaves
  | dropIndex name => name.nameLeaves
  | createConstraint label properties _ name _ =>
      name.nameLeaves ++ label.nameLeaves ++ properties.asList.flatMap Value.nameLeaves
  | dropConstraint name => name.nameLeaves
  | _ => []

namespace Value

mutual

/-- The leaves of a clause. -/
def clauseLeaves : Value → List (Leaf Request)
  | assign target value => target.leaves .expr ++ value.leaves .expr
  | clause (.subquery body) => bodyLeaves body
  | clause (.forEach source binding body) =>
      binding.nameLeaves ++ source.leaves .expr ++ bodyLeaves body
  | clause c => c.leaves
  | _ => []

/-- The leaves of a body. -/
def bodyLeaves : Value → List (Leaf Request)
  | list xs => clauseLeavesAll xs
  | tuple xs => clauseLeavesAll xs
  | builder _ xs => clauseLeavesAll xs
  | _ => []

/-- The leaves of clauses. -/
def clauseLeavesAll : List Value → List (Leaf Request)
  | [] => []
  | v :: vs => clauseLeaves v ++ clauseLeavesAll vs

end

end Value

/-- The leaves of a query. -/
def Query.leaves : Value → List (Leaf Request)
  | .comprehension projection binding label filter =>
      binding.nameLeaves ++ label.nameLeaves ++ filter.asList.flatMap (Value.leaves .expr)
        ++ projection.projectionLeaves
  | .builder _ cs => Value.clauseLeavesAll cs
  | .list cs => Value.clauseLeavesAll cs
  | .tuple cs => Value.clauseLeavesAll cs
  | v => v.clauseLeaves

/-! ## Parts of clauses -/

namespace Traces

variable {rs : List Request}

theorem readAlias {c v : Value} {n : Name} (h : readAlias c v = ⟨rs, .ok n⟩) :
    Traces v.nameLeaves rs [.name n.text] := by
  obtain ⟨hn, rfl⟩ := Draft.ofOption_eq_ok.1 h
  exact name hn

theorem readOptionalAlias {c v : Value} {n : Option Name}
    (h : readOptionalAlias c v = ⟨rs, .ok n⟩) : Traces v.nameLeaves rs (optionLeaves n) := by
  unfold CypherCompose.readOptionalAlias at h
  split_ifs at h with hnull
  · obtain ⟨rfl, rfl⟩ := Draft.done_eq_ok.1 h
    rw [Value.eq_null_of_isNull hnull]
    exact nil
  · obtain ⟨m, hm, rfl⟩ := Draft.map_eq_ok.1 h
    exact readAlias hm

theorem readOperand {v : Value} {e : Expr} (h : readOperand v = ⟨rs, .ok e⟩) :
    Traces v.operandLeaves rs (Token.leaves e.render) := by
  unfold CypherCompose.readOperand at h
  rw [Value.operandLeaves]
  split_ifs at h ⊢ with htext
  · exact readVar h
  · exact v.traced.expr h

theorem readItems_eq_ok {e : ClauseError} {items : Value} {vs : List Value}
    (h : readItems e items = ⟨rs, .ok vs⟩) : items.asList = vs ∧ rs = [] := by
  unfold readItems at h
  split_ifs at h
  · cases h
  · exact Draft.done_eq_ok.1 h

theorem readEachWith {α : Type} {read : Value → Draft α} {f : Value → List (Leaf Request)}
    {g : α → List (Leaf Value)}
    (hread : ∀ v rs a, read v = ⟨rs, .ok a⟩ → Traces (f v) rs (g a)) {vs : List Value}
    {as : List α} (h : readEachWith read vs = ⟨rs, .ok as⟩) :
    Traces (vs.flatMap f) rs (as.flatMap g) := by
  induction vs generalizing rs as with
  | nil =>
    obtain ⟨rfl, rfl⟩ := Draft.done_eq_ok.1 h
    exact nil
  | cons v vs ih =>
    simp only [CypherCompose.readEachWith, Draft.bind_eq_ok, Draft.pure_eq_ok] at h
    obtain ⟨ps, a, _, ha, ⟨qs, as, _, has, ⟨rfl, rfl⟩, rfl⟩, rfl⟩ := h
    rw [List.append_nil]
    exact (hread _ _ _ ha).append (ih has)

theorem readEachPattern {vs : List Value} {ps : List (Path Expr)}
    (h : readEachPattern vs = ⟨rs, .ok ps⟩) :
    Traces (vs.flatMap (Value.leaves .pattern)) rs (ps.flatMap Path.leaves) := by
  induction vs generalizing rs ps with
  | nil =>
    obtain ⟨rfl, rfl⟩ := Draft.done_eq_ok.1 h
    exact nil
  | cons v vs ih =>
    simp only [CypherCompose.readEachPattern, Draft.bind_eq_ok, Draft.pure_eq_ok] at h
    obtain ⟨us, ps, _, hps, ⟨ts, qs, _, hqs, ⟨rfl, rfl⟩, rfl⟩, rfl⟩ := h
    rw [List.append_nil, List.flatMap_append]
    exact (v.traced.paths hps).append (ih hqs)

theorem readClausePatterns {c patterns : Value} {ps : List (Path Expr)}
    (h : readClausePatterns c patterns = ⟨rs, .ok ps⟩) :
    Traces (patterns.asList.flatMap (Value.leaves .pattern)) rs (ps.flatMap Path.leaves) := by
  simp only [CypherCompose.readClausePatterns, Draft.bind_eq_ok] at h
  obtain ⟨_, vs, _, hvs, hps, rfl⟩ := h
  obtain ⟨rfl, rfl⟩ := readItems_eq_ok hvs
  exact readEachPattern hps

theorem readMergePattern {c pattern : Value} {ps : List (Path Expr)}
    (h : readMergePattern c pattern = ⟨rs, .ok ps⟩) :
    Traces (pattern.asList.flatMap (Value.leaves .pattern)) rs (ps.flatMap Path.leaves) := by
  unfold CypherCompose.readMergePattern at h
  split at h
  · rename_i v hv
    rw [hv, List.flatMap_singleton]
    exact v.traced.paths h
  · cases h

theorem readProjection {c v : Value} {p : Projection} (h : readProjection c v = ⟨rs, .ok p⟩) :
    Traces v.projectionLeaves rs (Token.leaves p.expr.render ++ optionLeaves p.name) := by
  unfold CypherCompose.readProjection at h
  split at h
  · simp only [Draft.bind_eq_ok, Draft.pure_eq_ok] at h
    obtain ⟨ps, e, _, he, ⟨qs, n, _, hn, ⟨rfl, rfl⟩, rfl⟩, rfl⟩ := h
    rw [List.append_nil]
    exact (readOperand he).append (readAlias hn)
  · rename_i hv
    simp only [Draft.bind_eq_ok, Draft.pure_eq_ok] at h
    obtain ⟨ps, e, _, he, ⟨rfl, rfl⟩, rfl⟩ := h
    rw [Value.projectionLeaves]
    · simpa [optionLeaves] using readOperand he
    · exact hv

theorem readAssign {target value : Value} {a : Assignment}
    (h : readAssign target value = ⟨rs, .ok a⟩) :
    Traces (target.leaves .expr ++ value.leaves .expr) rs
      (Token.leaves a.target.render ++ Token.leaves a.value.render) := by
  have hsides : ∀ {rs a}, (do
      let t ← Expr.ofValue target
      let v ← Expr.ofValue value
      pure (Assignment.mk t v)) = (⟨rs, .ok a⟩ : Draft Assignment) →
      Traces (target.leaves .expr ++ value.leaves .expr) rs
        (Token.leaves a.target.render ++ Token.leaves a.value.render) := by
    intro rs a h
    simp only [Draft.bind_eq_ok, Draft.pure_eq_ok] at h
    obtain ⟨ps, t, _, ht, ⟨qs, v, _, hv, ⟨rfl, rfl⟩, rfl⟩, rfl⟩ := h
    rw [List.append_nil]
    exact (target.traced.expr ht).append (value.traced.expr hv)
  unfold CypherCompose.readAssign at h
  split at h
  · exact hsides h
  · exact hsides h
  · cases h

theorem readSetItem {c v : Value} {a : Assignment} (h : readSetItem c v = ⟨rs, .ok a⟩) :
    Traces v.assignmentLeaves rs (Token.leaves a.target.render ++ Token.leaves a.value.render) := by
  unfold CypherCompose.readSetItem at h
  split at h
  · exact readAssign h
  · exact readAssign h
  · cases h

theorem readAssignments {c assignments : Value} {as : List Assignment}
    (h : readAssignments c assignments = ⟨rs, .ok as⟩) :
    Traces (assignments.asList.flatMap Value.assignmentLeaves) rs
      (Token.leaves (renderAssignments as)) := by
  simp only [CypherCompose.readAssignments, Draft.bind_eq_ok] at h
  obtain ⟨_, vs, _, hvs, has, rfl⟩ := h
  obtain ⟨rfl, rfl⟩ := readItems_eq_ok hvs
  rw [Clause.leaves_assignments]
  exact readEachWith (fun _ _ _ => readSetItem) has

theorem readRemoval {c v : Value} {r : Removal} (h : readRemoval c v = ⟨rs, .ok r⟩) :
    Traces v.removalLeaves rs (Token.leaves r.render) := by
  unfold CypherCompose.readRemoval at h
  split at h
  · simp only [Draft.bind_eq_ok, Draft.pure_eq_ok] at h
    obtain ⟨ps, e, _, he, ⟨rfl, rfl⟩, rfl⟩ := h
    rw [List.append_nil]
    exact readProperty he
  · simp only [Draft.bind_eq_ok, Draft.ofMisuse_eq_ok] at h
    obtain ⟨_, b, _, ⟨-, rfl⟩, h, rfl⟩ := h
    split_ifs at h
    · simp only [Draft.bind_eq_ok, Draft.ofMisuse_eq_ok] at h
      obtain ⟨_, b, _, ⟨-, rfl⟩, h, rfl⟩ := h
      split_ifs at h
      · simp only [readTrueName, Draft.bind_eq_ok, Draft.ofOption_eq_ok, Draft.pure_eq_ok] at h
        obtain ⟨_, n, _, ⟨hn, rfl⟩, ⟨_, l, _, ⟨hl, rfl⟩, ⟨rfl, rfl⟩, rfl⟩, rfl⟩ := h
        exact (name hn).append (name hl)
      · cases h
    · cases h
  · cases h

theorem readCount {c v : Value} {n : RowCount} (h : readCount c v = ⟨rs, .ok n⟩) :
    Traces (v.leaves .expr) rs (Token.leaves n.render) := by
  unfold CypherCompose.readCount at h
  split at h
  · split_ifs at h
    · cases h
    · obtain ⟨-, rfl, rfl⟩ := Draft.integer_bind_eq_ok.1 h
      exact nil
  · simp only [Draft.bind_eq_ok, Draft.pure_eq_ok] at h
    obtain ⟨ps, p, _, hp, ⟨rfl, rfl⟩, rfl⟩ := h
    rw [List.append_nil]
    exact parameter hp
  · cases h

theorem text {v : Value} {s : String} (h : v.text? = some s) :
    Traces (v.leaves .expr) [] [.string s] := by
  cases v with
  | atom a =>
    rw [Value.text?] at h
    rw [Value.leaves, atomLeaves, h]
    exact ⟨rfl, rfl⟩
  | _ => cases h

theorem readSource {c v : Value} {s : CsvSource} (h : readSource c v = ⟨rs, .ok s⟩) :
    Traces (v.leaves .expr) rs (Token.leaves s.render) := by
  unfold CypherCompose.readSource at h
  split at h
  · simp only [Draft.bind_eq_ok, Draft.pure_eq_ok] at h
    obtain ⟨ps, p, _, hp, ⟨rfl, rfl⟩, rfl⟩ := h
    rw [List.append_nil]
    exact parameter hp
  · split at h
    · rename_i t ht
      obtain ⟨rfl, rfl⟩ := Draft.done_eq_ok.1 h
      exact text ht
    · cases h

theorem readTerminator {c v : Value} {t : Option String}
    (h : readTerminator c v = ⟨rs, .ok t⟩) :
    Traces (v.leaves .expr) rs (t.toList.map Leaf.string) := by
  unfold CypherCompose.readTerminator at h
  split_ifs at h with hnull
  · obtain ⟨rfl, rfl⟩ := Draft.done_eq_ok.1 h
    rw [Value.eq_null_of_isNull hnull]
    exact nil
  · split at h
    · rename_i s hs
      split_ifs at h
      · obtain ⟨rfl, rfl⟩ := Draft.done_eq_ok.1 h
        exact text hs
      · cases h
    · cases h

theorem readPropertyNames {c properties : Value} {ks : List Name}
    (h : readPropertyNames c properties = ⟨rs, .ok ks⟩) :
    Traces (properties.asList.flatMap Value.nameLeaves) rs (ks.map fun k => .name k.text) := by
  simp only [CypherCompose.readPropertyNames, Draft.bind_eq_ok] at h
  obtain ⟨_, vs, _, hvs, hks, rfl⟩ := h
  obtain ⟨rfl, rfl⟩ := readItems_eq_ok hvs
  rw [List.map_eq_flatMap]
  refine readEachWith (fun v rs k hk => ?_) hks
  obtain ⟨hn, rfl⟩ := Draft.ofOption_eq_ok.1 hk
  exact name hn

theorem readSortKeys {c : Value} : ∀ {vs : List Value} {i : Nat} {rs : List Request}
    {keys : List SortKey}, readSortKeys c i vs = ⟨rs, .ok keys⟩ →
      Traces (vs.flatMap Value.sortLeaves) rs (keys.flatMap fun k => Token.leaves k.expr.render)
  | [], _, _, _, h => by
    obtain ⟨rfl, rfl⟩ := Draft.done_eq_ok.1 h
    exact nil
  | v :: vs, i, rs, keys, h => by
    unfold CypherCompose.readSortKeys at h
    split_ifs at h with hmarker
    · cases h
    have hleaves : v.sortLeaves = v.keyLeaves := if_neg hmarker
    rw [List.flatMap_cons, hleaves]
    split at h
    · simp only [Draft.bind_eq_ok, Draft.ofOption_eq_ok, Draft.pure_eq_ok] at h
      obtain ⟨_, o, _, ⟨-, rfl⟩, ⟨ps, e, _, he, ⟨qs, keys, _, hkeys, ⟨rfl, rfl⟩, rfl⟩, rfl⟩, rfl⟩ := h
      rw [List.append_nil]
      exact (readOperand he).append (readSortKeys hkeys)
    · rename_i hitem
      have hkey : v.keyLeaves = v.operandLeaves := by
        rw [Value.keyLeaves]
        exact hitem
      rw [Draft.bind_eq_ok] at h
      obtain ⟨ps, e, qs, he, h, rfl⟩ := h
      rw [hkey]
      have hrest : ∃ o rest, keys = ⟨e, o⟩ :: rest ∧ Traces (vs.flatMap Value.sortLeaves) qs
          (rest.flatMap fun k => Token.leaves k.expr.render) := by
        split at h
        · obtain ⟨rfl, rfl⟩ := Draft.pure_eq_ok.1 h
          exact ⟨none, [], rfl, nil⟩
        · rename_i next rest
          split at h
          · rename_i o ho
            have hnext : next.sortLeaves = [] := if_pos (by rw [ho]; rfl)
            simp only [Draft.bind_eq_ok, Draft.pure_eq_ok] at h
            obtain ⟨us, keys, _, hkeys, ⟨rfl, rfl⟩, rfl⟩ := h
            rw [List.append_nil, List.flatMap_cons, hnext, List.nil_append]
            exact ⟨some o, keys, rfl, readSortKeys hkeys⟩
          · simp only [Draft.bind_eq_ok, Draft.pure_eq_ok] at h
            obtain ⟨us, keys, _, hkeys, ⟨rfl, rfl⟩, rfl⟩ := h
            rw [List.append_nil]
            exact ⟨none, keys, rfl, readSortKeys hkeys⟩
      obtain ⟨o, rest, rfl, hrest⟩ := hrest
      exact (readOperand he).append hrest

/-- The names of a definition: read label first, and written with its own name in front. -/
theorem definition {ls ls' ls'' : List (Leaf Request)} {ps qs us : List Request} {label : Name}
    {keys : List Name} {n : Option Name} (hlabel : Traces ls ps [.name label.text])
    (hkeys : Traces ls' qs (keys.map fun k => .name k.text)) (hname : Traces ls'' us (optionLeaves n)) :
    Traces (ls'' ++ ls ++ ls') (ps ++ (qs ++ us))
      (optionLeaves n ++ [Leaf.name label.text] ++ keys.map fun k => Leaf.name k.text) := by
  have hps : ps = [] := hlabel.requests_eq_nil rfl
  have hqs : qs = [] :=
    hkeys.requests_eq_nil (by simp [List.filterMap_map, Function.comp_def, Leaf.param?])
  have hus : us = [] := hname.requests_eq_nil (by cases n <;> rfl)
  subst hps hqs hus
  exact (hname.append hlabel).append hkeys

/-! ## Clauses -/

theorem readPlain {i : Nat} {f : ClauseForm Value} {c : Clause}
    (h : readPlain i (.clause f) = ⟨rs, .ok c⟩) : Traces f.leaves rs (Token.leaves c.render) := by
  cases f with
  | matching optional patterns =>
    simp only [CypherCompose.readPlain, Draft.bind_eq_ok, Draft.pure_eq_ok] at h
    obtain ⟨us, ps, _, hps, ⟨rfl, rfl⟩, rfl⟩ := h
    simpa [ClauseForm.leaves, Clause.render] using readClausePatterns hps
  | filter conditions =>
    simp only [CypherCompose.readPlain, Draft.bind_eq_ok] at h
    obtain ⟨_, vs, _, hvs, ⟨qs, es, _, hes, h, rfl⟩, rfl⟩ := h
    obtain ⟨rfl, rfl⟩ := readItems_eq_ok hvs
    split at h
    · cases h
    · obtain ⟨rfl, rfl⟩ := Draft.pure_eq_ok.1 h
      rw [List.append_nil, Clause.render, Token.leaves_after, Expr.leaves_join]
      exact readEachWith (fun v _ _ he => v.traced.expr he) hes
  | returning items distinct =>
    simp only [CypherCompose.readPlain, Draft.bind_eq_ok, Draft.ofMisuse_eq_ok, Draft.pure_eq_ok] at h
    obtain ⟨us, ps, _, hps, ⟨_, d, _, ⟨-, rfl⟩, ⟨rfl, rfl⟩, rfl⟩, rfl⟩ := h
    have hprojections := readEachWith (fun _ _ _ => readProjection) hps
    simpa [ClauseForm.leaves, Clause.render, Clause.leaves_projections] using hprojections
  | passing items distinct =>
    simp only [CypherCompose.readPlain, Draft.bind_eq_ok, Draft.ofMisuse_eq_ok, Draft.pure_eq_ok] at h
    obtain ⟨_, vs, _, hvs, ⟨_, d, _, ⟨-, rfl⟩, ⟨us, ps, _, hps, ⟨rfl, rfl⟩, rfl⟩, rfl⟩, rfl⟩ := h
    obtain ⟨rfl, rfl⟩ := readItems_eq_ok hvs
    have hprojections := readEachWith (fun _ _ _ => readProjection) hps
    simpa [ClauseForm.leaves, Clause.render, Clause.leaves_projections] using hprojections
  | unwind source name =>
    simp only [CypherCompose.readPlain, Draft.bind_eq_ok, Draft.pure_eq_ok] at h
    obtain ⟨ps, e, _, he, ⟨qs, n, _, hn, ⟨rfl, rfl⟩, rfl⟩, rfl⟩ := h
    simpa [ClauseForm.leaves, Clause.render] using (source.traced.expr he).append (readAlias hn)
  | create patterns =>
    simp only [CypherCompose.readPlain, Draft.bind_eq_ok, Draft.pure_eq_ok] at h
    obtain ⟨us, ps, _, hps, ⟨rfl, rfl⟩, rfl⟩ := h
    simpa [ClauseForm.leaves, Clause.render] using readClausePatterns hps
  | merge pattern =>
    simp only [CypherCompose.readPlain, Draft.bind_eq_ok, Draft.pure_eq_ok] at h
    obtain ⟨us, ps, _, hps, ⟨rfl, rfl⟩, rfl⟩ := h
    simpa [ClauseForm.leaves, Clause.render] using readMergePattern hps
  | onMerge event assignments =>
    simp only [CypherCompose.readPlain, Draft.bind_eq_ok, Draft.pure_eq_ok] at h
    obtain ⟨us, as, _, has, ⟨rfl, rfl⟩, rfl⟩ := h
    rw [List.append_nil]
    cases event <;> exact readAssignments has
  | remove items =>
    simp only [CypherCompose.readPlain, Draft.bind_eq_ok, Draft.pure_eq_ok] at h
    obtain ⟨_, vs, _, hvs, ⟨us, as, _, has, ⟨rfl, rfl⟩, rfl⟩, rfl⟩ := h
    obtain ⟨rfl, rfl⟩ := readItems_eq_ok hvs
    have hremovals := readEachWith (fun _ _ _ => readRemoval) has
    simpa [ClauseForm.leaves, Clause.render, List.flatMap_map] using hremovals
  | delete detach items =>
    simp only [CypherCompose.readPlain, Draft.bind_eq_ok, Draft.pure_eq_ok] at h
    obtain ⟨_, vs, _, hvs, ⟨us, es, _, hes, ⟨rfl, rfl⟩, rfl⟩, rfl⟩ := h
    obtain ⟨rfl, rfl⟩ := readItems_eq_ok hvs
    have hoperands := readEachWith (fun _ _ _ => readOperand) hes
    simpa [ClauseForm.leaves, Clause.render, List.flatMap_map] using hoperands
  | orderBy items =>
    simp only [CypherCompose.readPlain, Draft.bind_eq_ok, Draft.pure_eq_ok] at h
    obtain ⟨_, vs, _, hvs, ⟨us, keys, _, hkeys, ⟨rfl, rfl⟩, rfl⟩, rfl⟩ := h
    obtain ⟨rfl, rfl⟩ := readItems_eq_ok hvs
    have hsorted := readSortKeys hkeys
    simpa [ClauseForm.leaves, Clause.render, List.flatMap_map, Clause.leaves_sortKey] using hsorted
  | skip count =>
    simp only [CypherCompose.readPlain, Draft.bind_eq_ok, Draft.pure_eq_ok] at h
    obtain ⟨us, n, _, hn, ⟨rfl, rfl⟩, rfl⟩ := h
    simpa [ClauseForm.leaves, Clause.render] using readCount hn
  | limit count =>
    simp only [CypherCompose.readPlain, Draft.bind_eq_ok, Draft.pure_eq_ok] at h
    obtain ⟨us, n, _, hn, ⟨rfl, rfl⟩, rfl⟩ := h
    simpa [ClauseForm.leaves, Clause.render] using readCount hn
  | union all =>
    obtain ⟨rfl, rfl⟩ := Draft.pure_eq_ok.1 h
    exact nil
  | loadCsv headers source name terminator =>
    simp only [CypherCompose.readPlain, Draft.bind_eq_ok, Draft.pure_eq_ok] at h
    obtain ⟨ps, s, _, hs, ⟨qs, n, _, hn, ⟨us, t, _, ht, ⟨rfl, rfl⟩, rfl⟩, rfl⟩, rfl⟩ := h
    have htrace := ((readSource hs).append (readAlias hn)).append (readTerminator ht)
    cases t <;> simpa [ClauseForm.leaves, Clause.render] using htrace
  | createIndex label properties name ifNotExists =>
    simp only [CypherCompose.readPlain, Draft.bind_eq_ok, Draft.ofMisuse_eq_ok, Draft.pure_eq_ok] at h
    obtain ⟨ps, l, _, hl, ⟨qs, ks, _, hks, ⟨us, n, _, hn,
      ⟨_, guard, _, ⟨-, rfl⟩, ⟨rfl, rfl⟩, rfl⟩, rfl⟩, rfl⟩, rfl⟩ := h
    have htrace := definition (readAlias hl) (readPropertyNames hks) (readOptionalAlias hn)
    simpa [ClauseForm.leaves, Clause.render, Clause.leaves_head, Clause.leaves_keys, renderFor]
      using htrace
  | dropIndex name =>
    simp only [CypherCompose.readPlain, Draft.bind_eq_ok, Draft.pure_eq_ok] at h
    obtain ⟨us, n, _, hn, ⟨rfl, rfl⟩, rfl⟩ := h
    simpa [ClauseForm.leaves, Clause.render, renderDrop] using readAlias hn
  | createConstraint label properties constraint name ifNotExists =>
    simp only [CypherCompose.readPlain, Draft.bind_eq_ok, Draft.ofOption_eq_ok,
      Draft.ofMisuse_eq_ok] at h
    obtain ⟨_, kind, _, ⟨-, rfl⟩, ⟨ps, l, _, hl, ⟨qs, ks, _, hks, ⟨us, n, _, hn, ⟨_, guard, _, ⟨-, rfl⟩,
      h, rfl⟩, rfl⟩, rfl⟩, rfl⟩, rfl⟩ := h
    have htrace := definition (readAlias hl) (readPropertyNames hks) (readOptionalAlias hn)
    split_ifs at h
    · cases h
    · obtain ⟨rfl, rfl⟩ := Draft.pure_eq_ok.1 h
      simpa [ClauseForm.leaves, Clause.render, Clause.leaves_head, Clause.leaves_demand, renderFor]
        using htrace
  | dropConstraint name =>
    simp only [CypherCompose.readPlain, Draft.bind_eq_ok, Draft.pure_eq_ok] at h
    obtain ⟨us, n, _, hn, ⟨rfl, rfl⟩, rfl⟩ := h
    simpa [ClauseForm.leaves, Clause.render, renderDrop] using readAlias hn
  | _ => cases h

end Traces

/-- The leaves of a clause read. -/
def ClauseReading.leaves : ClauseReading → List (Leaf Value)
  | assignments as => Token.leaves (renderAssignments as)
  | clause c => Token.leaves c.render

theorem Clause.renderEach_eq_map (cs : List Clause) : renderEach cs = cs.map render := by
  induction cs with
  | nil => rfl
  | cons c cs ih => rw [renderEach, ih, List.map_cons]

theorem Clause.leaves_renderAll (cs : List Clause) :
    Token.leaves (renderAll cs) = cs.flatMap fun c => Token.leaves c.render := by
  rw [renderAll, renderEach_eq_map, Token.leaves_blanks, List.flatMap_map]

theorem leaves_setOf (as : List Assignment) :
    ((setOf as).flatMap fun c => Token.leaves c.render) = Token.leaves (renderAssignments as) := by
  unfold setOf
  split_ifs with h
  · rw [List.isEmpty_iff.1 h]
    rfl
  · rw [List.flatMap_singleton]
    rfl

theorem leaves_renderAssignments_append (as bs : List Assignment) :
    Token.leaves (renderAssignments (as ++ bs)) =
      Token.leaves (renderAssignments as) ++ Token.leaves (renderAssignments bs) := by
  simp [Clause.leaves_assignments]

/-- Joining runs of assignments keeps the leaves and their order. -/
theorem leaves_groupFrom (pending : List Assignment) (rs : List ClauseReading) :
    ((groupFrom pending rs).flatMap fun c => Token.leaves c.render) =
      Token.leaves (renderAssignments pending) ++ rs.flatMap ClauseReading.leaves := by
  induction rs generalizing pending with
  | nil => rw [groupFrom, leaves_setOf, List.flatMap_nil, List.append_nil]
  | cons r rs ih =>
    cases r with
    | assignments as =>
      rw [groupFrom, ih, leaves_renderAssignments_append, List.append_assoc, List.flatMap_cons]
      rfl
    | clause c =>
      rw [groupFrom, List.flatMap_append, List.flatMap_cons, ih, leaves_setOf, List.flatMap_cons]
      rfl

theorem leaves_groupRuns (rs : List ClauseReading) :
    Token.leaves (Clause.renderAll (groupRuns rs)) = rs.flatMap ClauseReading.leaves := by
  rw [Clause.leaves_renderAll, groupRuns, leaves_groupFrom]
  rfl

namespace Traces

/-- Clauses are traced if they are one by one. -/
theorem of_readEachClause {vs : List Value} {rs : List Request} {cs : List Clause}
    (heach : ∀ {rs readings}, readEachClause 0 vs = ⟨rs, .ok readings⟩ →
      Traces (Value.clauseLeavesAll vs) rs (readings.flatMap ClauseReading.leaves))
    (h : readClauses vs = ⟨rs, .ok cs⟩) :
    Traces (Value.clauseLeavesAll vs) rs (Token.leaves (Clause.renderAll cs)) := by
  simp only [readClauses, Draft.bind_eq_ok, Draft.pure_eq_ok] at h
  obtain ⟨us, readings, _, hreadings, ⟨rfl, rfl⟩, rfl⟩ := h
  rw [List.append_nil, leaves_groupRuns]
  exact heach hreadings

mutual

theorem clause (v : Value) {i : Nat} {rs : List Request} {r : ClauseReading}
    (h : readClause i v = ⟨rs, .ok r⟩) : Traces v.clauseLeaves rs r.leaves := by
  cases v with
  | assign target value =>
    simp only [readClause, Draft.bind_eq_ok, Draft.pure_eq_ok] at h
    obtain ⟨us, a, _, ha, ⟨rfl, rfl⟩, rfl⟩ := h
    simpa [Value.clauseLeaves, ClauseReading.leaves, Clause.leaves_assignments] using readAssign ha
  | clause f =>
    cases f with
    | set assignments =>
      simp only [readClause, Draft.bind_eq_ok, Draft.pure_eq_ok] at h
      obtain ⟨us, as, _, has, ⟨rfl, rfl⟩, rfl⟩ := h
      rw [List.append_nil]
      exact readAssignments has
    | subquery b =>
      simp only [readClause, Draft.bind_eq_ok, Draft.pure_eq_ok] at h
      obtain ⟨us, cs, _, hcs, ⟨rfl, rfl⟩, rfl⟩ := h
      have hbody := body b hcs
      rw [Clause.renderAll] at hbody
      simpa [Value.clauseLeaves, ClauseReading.leaves, Clause.render] using hbody
    | forEach source binding b =>
      simp only [readClause, Draft.bind_eq_ok, Draft.pure_eq_ok] at h
      obtain ⟨ps, e, _, he, ⟨qs, cs, _, hcs, ⟨us, n, _, hn, ⟨rfl, rfl⟩, rfl⟩, rfl⟩, rfl⟩ := h
      have hbody := body b hcs
      have hus : us = [] := (readAlias hn).requests_eq_nil rfl
      rw [Clause.renderAll] at hbody
      have htrace := ((readAlias hn).append (source.traced.expr he)).append hbody
      simpa [Value.clauseLeaves, ClauseReading.leaves, Clause.render, hus] using htrace
    | _ =>
      simp only [readClause, Draft.bind_eq_ok, Draft.pure_eq_ok] at h
      obtain ⟨us, c, _, hc, ⟨rfl, rfl⟩, rfl⟩ := h
      rw [List.append_nil]
      exact readPlain hc
  | _ => simp [readClause, CypherCompose.readPlain, Draft.bind_eq_ok, Draft.fail] at h

theorem body (v : Value) {owner : Value} {rs : List Request} {cs : List Clause}
    (h : readBody owner v = ⟨rs, .ok cs⟩) :
    Traces v.bodyLeaves rs (Token.leaves (Clause.renderAll cs)) := by
  cases v with
  | list xs =>
    rw [readBody] at h
    exact of_readEachClause (each xs) h
  | tuple xs =>
    rw [readBody] at h
    exact of_readEachClause (each xs) h
  | builder _ xs =>
    rw [readBody] at h
    exact of_readEachClause (each xs) h
  | _ => simp [readBody, Draft.fail] at h

theorem each : ∀ (vs : List Value) {i : Nat} {rs : List Request} {readings : List ClauseReading},
    readEachClause i vs = ⟨rs, .ok readings⟩ →
      Traces (Value.clauseLeavesAll vs) rs (readings.flatMap ClauseReading.leaves)
  | [], i, rs, readings, h => by
    obtain ⟨rfl, rfl⟩ := Draft.done_eq_ok.1 h
    exact nil
  | v :: vs, i, rs, readings, h => by
    simp only [readEachClause, Draft.bind_eq_ok, Draft.pure_eq_ok] at h
    obtain ⟨ps, r, _, hr, ⟨qs, readings, _, hrs, ⟨rfl, rfl⟩, rfl⟩, rfl⟩ := h
    rw [Value.clauseLeavesAll, List.append_nil, List.flatMap_cons]
    exact (clause v hr).append (each vs hrs)

end

/-- Reading the clauses of a query is a trace of its leaves. -/
theorem clauses {vs : List Value} {rs : List Request} {cs : List Clause}
    (h : readClauses vs = ⟨rs, .ok cs⟩) :
    Traces (Value.clauseLeavesAll vs) rs (Token.leaves (Clause.renderAll cs)) :=
  of_readEachClause (each vs) h

end Traces

/-- The clauses of a query have its leaves, those that a comprehension stands for as well. -/
theorem Query.clauseLeavesAll_clausesOf {query : Value} {clauses : List Value}
    (h : clausesOf query = .ok clauses) : Value.clauseLeavesAll clauses = leaves query := by
  unfold clausesOf at h
  split at h
  · rename_i projection binding label filter
    simp only [desugar] at h
    split_ifs at h with hbinding hlabel hprojection hfilter
    · obtain rfl := Except.ok.inj h
      rw [leaves, Value.eq_null_of_isNull hfilter]
      simp [Value.clauseLeavesAll, Value.clauseLeaves, ClauseForm.leaves, Value.asList, Value.leaves,
        atomLeaves]
    · obtain rfl := Except.ok.inj h
      simp [leaves, Value.clauseLeavesAll, Value.clauseLeaves, ClauseForm.leaves, Value.asList,
        Value.leaves, atomLeaves]
  · obtain rfl := Except.ok.inj h
    rfl
  · obtain rfl := Except.ok.inj h
    rfl
  · obtain rfl := Except.ok.inj h
    rfl
  · obtain rfl := Except.ok.inj h
    exact List.append_nil _
  · obtain rfl := Except.ok.inj h
    exact List.append_nil _
  · cases h

end CypherCompose
