import CypherCompose.Proofs.SetLayout

/-!
# The patterns of a MERGE

A MERGE takes one pattern, and a list of one pattern counts as one.  The pattern in it may be a list
again, and lists inside lists are read from left to right whatever they hold: `Value.singlePatterns` are
the nodes and chains that are found so.  Each of them is one path (`forall₂_isPath`), and each path is
written without a comma outside its brackets, so that the text has one comma fewer than there are single
patterns (`outerCommas?_pathTokens`).

`Statement.merge_singlePatterns` says so for every MERGE of a statement, at every depth: its text is one
path exactly when its argument holds one single pattern.  `Statement.compile_mergeOfTwo` is a statement
with a MERGE of two.
-/

namespace CypherCompose

open Token Value

/-! ## Commas outside brackets -/

/-- The number of commas in a text outside its strings, quoted names and brackets, if these are
balanced. -/
def outerCommas? (s : String) : Option Nat := do
  let ms ← scan s
  let cs ← chunks ms
  some (cs.countP Chunk.isComma)

theorem countP_isComma_intercalate {css : List (List Chunk)}
    (h : ∀ cs ∈ css, ∀ c ∈ cs, c.isComma = false) :
    (List.intercalate [.mark (.char ','), .mark (.char ' ')] css).countP Chunk.isComma =
      css.length - 1 := by
  have hnone {cs : List Chunk} (hcs : ∀ c ∈ cs, c.isComma = false) : cs.countP Chunk.isComma = 0 :=
    List.countP_eq_zero.2 fun c hc => by simp [hcs c hc]
  induction css with
  | nil => rfl
  | cons cs css ih =>
    obtain ⟨hcs, hcss⟩ := List.forall_mem_cons.1 h
    cases css with
    | nil => simp [List.intercalate, hnone hcs]
    | cons ds css =>
      have hsep : [Chunk.mark (.char ','), Chunk.mark (.char ' ')].countP Chunk.isComma = 1 := rfl
      rw [List.intercalate_cons_cons, List.countP_append, List.countP_append, hnone hcs, hsep, ih hcss]
      simp only [List.length_cons]
      omega

theorem outerCommas?_commas {parts : List (List Token)} (hfragment : Fragment (commas parts))
    (h : ∀ ts ∈ parts, Whole ts) : outerCommas? (spell (commas parts)) = some (parts.length - 1) := by
  have hcut := PatternGrammar.cut_commas h
  have hnone : ∀ cs ∈ parts.map pieces, ∀ c ∈ cs, c.isComma = false :=
    List.forall_mem_map.2 fun ts hts => (h ts hts).cut.2
  rw [outerCommas?, scan_spell hfragment, Option.bind_eq_bind, Option.bind_some, hcut.chunks_eq,
    Option.bind_eq_bind, Option.bind_some, countP_isComma_intercalate hnone, List.length_map]

/-- Paths one after the other have a comma between each and the next, and no other. -/
theorem outerCommas?_pathTokens (ps : List (Path Expr)) :
    outerCommas? (spell (pathTokens ps)) = some (ps.length - 1) := by
  have hfragment := fragment_pathTokens ps
  rw [pathTokens_eq_commas] at hfragment ⊢
  rw [outerCommas?_commas hfragment (List.forall_mem_map.2 fun p _ => PatternGrammar.whole_path p),
    List.length_map]

theorem spell_pathTokens (ps : List (Path Expr)) :
    spell (pathTokens ps) = ", ".intercalate (ps.map fun p => spell (pathTokens [p])) := by
  simp only [pathTokens_eq_commas, commas, spell_intercalate, List.map_map]
  rfl

/-! ## Single patterns -/

namespace Value

mutual

/-- The patterns in a value, from left to right, however deeply lists are nested. -/
def singlePatterns : Value → List Value
  | list items => singlePatternsAll items
  | tuple items => singlePatternsAll items
  | v => [v]

/-- The patterns in values in a row. -/
def singlePatternsAll : List Value → List Value
  | [] => []
  | v :: vs => v.singlePatterns ++ singlePatternsAll vs

end

/-- The forms of a single pattern: a node, a chain, or a text that is the name of a node. -/
def isSinglePattern : Value → Bool
  | nodeRef .. => true
  | chain .. => true
  | v => v.isText

/-- The text of a pattern. -/
def patternText? (v : Value) : Option String :=
  (pathsOf v).outcome.toOption.map fun ps => spell (pathTokens ps)

/-- A single pattern with the one path it is read as. -/
def IsPath (v : Value) (p : Path Expr) : Prop :=
  v.isSinglePattern = true ∧ ∃ rs, pathsOf v = ⟨rs, .ok [p]⟩

theorem IsPath.patternText?_eq {v : Value} {p : Path Expr} (h : v.IsPath p) :
    v.patternText? = some (spell (pathTokens [p])) := by
  obtain ⟨-, rs, hread⟩ := h
  rw [patternText?, hread]
  rfl

variable {rs : List Request} {ps : List (Path Expr)} {v pattern : Value}

theorem forall₂_isPath_of_readPatterns {whole : Value} {vs : List Value}
    (ih : ∀ v ∈ vs, ∀ {rs : List Request} {ps : List (Path Expr)}, pathsOf v = ⟨rs, .ok ps⟩ →
      List.Forall₂ IsPath v.singlePatterns ps)
    (h : readPatterns whole vs = ⟨rs, .ok ps⟩) : List.Forall₂ IsPath (singlePatternsAll vs) ps := by
  induction vs generalizing rs ps with
  | nil =>
    rw [readPatterns] at h
    cases h
  | cons v vs ihvs =>
    obtain ⟨ihv, ihrest⟩ := List.forall_mem_cons.1 ih
    cases vs with
    | nil =>
      rw [readPatterns] at h
      simpa [singlePatternsAll] using ihv h
    | cons w vs =>
      simp only [readPatterns, Draft.bind_eq_ok, Draft.pure_eq_ok] at h
      obtain ⟨_, ps, _, hps, ⟨_, qs, _, hqs, ⟨rfl, -⟩, -⟩, -⟩ := h
      rw [singlePatternsAll]
      exact List.rel_append (ihv hps) (ihvs ihrest hqs)

/-- What is read as paths holds as many single patterns, each read as its path. -/
theorem forall₂_isPath (v : Value) {rs : List Request} {ps : List (Path Expr)}
    (h : pathsOf v = ⟨rs, .ok ps⟩) : List.Forall₂ IsPath v.singlePatterns ps := by
  have hsingle (hv : v.singlePatterns = [v]) (hform : v.isSinglePattern = true) {p : Path Expr}
      (hp : ps = [p]) : List.Forall₂ IsPath v.singlePatterns ps := by
    subst hp
    rw [hv]
    exact .cons ⟨hform, rs, h⟩ .nil
  have hread := h
  unfold pathsOf at hread
  split at hread
  · rw [singlePatterns]
    exact forall₂_isPath_of_readPatterns (fun w _ => forall₂_isPath w) hread
  · rw [singlePatterns]
    exact forall₂_isPath_of_readPatterns (fun w _ => forall₂_isPath w) hread
  · simp only [Draft.bind_eq_ok, Draft.pure_eq_ok] at hread
    obtain ⟨_, _, _, -, ⟨_, _, _, -, ⟨_, p, _, -, ⟨hp, -⟩, -⟩, -⟩, -⟩ := hread
    exact hsingle rfl rfl hp.symm
  · simp only [Draft.bind_eq_ok, Draft.pure_eq_ok] at hread
    obtain ⟨_, n, _, -, ⟨hp, -⟩, -⟩ := hread
    exact hsingle rfl rfl hp.symm
  · cases hread
  · split_ifs at hread with htext
    · simp only [Draft.bind_eq_ok, Draft.pure_eq_ok] at hread
      obtain ⟨_, n, _, -, ⟨hp, -⟩, -⟩ := hread
      refine hsingle ?_ ?_ hp.symm
      · rw [singlePatterns] <;> assumption
      · rw [isSinglePattern] <;> assumption
    · cases hread
termination_by sizeOf v

theorem isSinglePattern_of_mem {vs : List Value} (h : List.Forall₂ IsPath vs ps) :
    ∀ v ∈ vs, v.isSinglePattern = true := by
  induction h with
  | nil => nofun
  | cons hv _ ih => exact List.forall_mem_cons.2 ⟨hv.1, ih⟩

theorem singlePatterns_of_asList (h : pattern.asList = [v]) :
    pattern.singlePatterns = v.singlePatterns := by
  unfold asList at h
  split at h <;> cases h <;> simp [singlePatterns, singlePatternsAll]

theorem mapM_patternText? {vs : List Value} (h : List.Forall₂ IsPath vs ps) :
    vs.mapM patternText? = some (ps.map fun p => spell (pathTokens [p])) := by
  induction h with
  | nil => rfl
  | cons hv _ ih =>
    rw [List.mapM_cons, hv.patternText?_eq, ih]
    rfl

/-! ## One MERGE -/

/-- Only the outermost list is counted. -/
theorem asList_of_readMergePattern {c : Value} (h : readMergePattern c pattern = ⟨rs, .ok ps⟩) :
    ∃ v, pattern.asList = [v] ∧ pathsOf v = ⟨rs, .ok ps⟩ := by
  unfold readMergePattern at h
  split at h
  · exact ⟨_, by assumption, h⟩
  · cases h

theorem readMergePattern_of_readPlain {d : Clause}
    (h : readPlain 0 (.clause (.merge pattern)) = ⟨rs, .ok d⟩) :
    ∃ v ps, pattern.asList = [v] ∧ pathsOf v = ⟨rs, .ok ps⟩ ∧ d = .merge ps := by
  simp only [readPlain, Draft.bind_eq_ok, Draft.pure_eq_ok] at h
  obtain ⟨_, ps, _, hps, ⟨rfl, rfl⟩, rfl⟩ := h
  obtain ⟨v, hv, hread⟩ := asList_of_readMergePattern hps
  exact ⟨v, ps, hv, by rw [hread, List.append_nil], rfl⟩

/-- The text of a MERGE: the texts of the single patterns in its argument, with commas between them.
The argument is a pattern or a list of one element, which may be a list again. -/
structure IsMergeOf (pattern : Value) (text : String) (paths : List String) : Prop where
  text_eq : text = "MERGE " ++ ", ".intercalate paths
  paths_eq : pattern.singlePatterns.mapM patternText? = some paths
  length_asList : pattern.asList.length = 1
  singles : ∀ v ∈ pattern.singlePatterns, v.isSinglePattern = true
  /-- Each text is that of one path, with no comma outside strings, quoted names and brackets. -/
  onePath : ∀ t ∈ paths, outerCommas? t = some 0
  commas : outerCommas? (", ".intercalate paths) = some (paths.length - 1)
  one_iff : outerCommas? (", ".intercalate paths) = some 0 ↔ ∃ v, pattern.singlePatterns = [v]

theorem exists_isMergeOf {text : String} (h : (clause (.merge pattern)).ownText? = some text) :
    ∃ paths, pattern.IsMergeOf text paths := by
  obtain ⟨d, hd, rfl⟩ := Option.map_eq_some_iff.1 h
  have hplain : readPlain 0 (clause (.merge pattern)) = ⟨_, .ok d⟩ :=
    congrArg (Draft.mk (readPlain 0 (clause (.merge pattern))).requests) (eq_ok_of_toOption hd)
  obtain ⟨v, ps, hv, hread, rfl⟩ := readMergePattern_of_readPlain hplain
  have hpaths := forall₂_isPath v hread
  have hlength := hpaths.length_eq
  have hne := (flattened?_of_pathsOf v hread).2
  have hcommas := outerCommas?_pathTokens ps
  rw [← singlePatterns_of_asList hv] at hpaths hlength
  rw [spell_pathTokens] at hcommas
  refine ⟨ps.map fun p => spell (pathTokens [p]), ?_, mapM_patternText? hpaths, by rw [hv]; rfl, ?_, ?_,
    by rw [hcommas, List.length_map], ?_⟩
  · rw [Clause.render, spell_after, spell_pathTokens]
    rfl
  · exact isSinglePattern_of_mem hpaths
  · exact List.forall_mem_map.2 fun p _ => outerCommas?_pathTokens [p]
  · rw [hcommas, Option.some.injEq, ← List.length_eq_one_iff, hlength]
    have := List.length_pos_iff.2 hne
    omega

end Value

/-! ## Every MERGE of a statement -/

section Reading

variable {rs : List Request} {ds : List Clause} {cs : List Value}

theorem readClause_of_mem {as : List ClauseReading} (h : readEachClause 0 cs = ⟨rs, .ok as⟩) :
    ∀ c ∈ cs, ∃ qs a, readClause 0 c = ⟨qs, .ok a⟩ := by
  induction cs generalizing rs as with
  | nil => nofun
  | cons c cs ih =>
    obtain ⟨ps, a, qs, bs, ha, hbs, -, -⟩ := readEachClause_cons.1 h
    exact List.forall_mem_cons.2 ⟨⟨ps, a, ha⟩, ih hbs⟩

theorem readBody_of_readClause {v body : Value} {scope : Scope} {a : ClauseReading}
    (hnested : v.nested? = some (scope, body)) (h : readClause 0 v = ⟨rs, .ok a⟩) :
    ∃ qs ds, readBody v body = ⟨qs, .ok ds⟩ := by
  unfold nested? at hnested
  split at hnested <;> cases hnested
  · simp only [readClause, Draft.bind_eq_ok] at h
    obtain ⟨qs, ds, _, hds, -⟩ := h
    exact ⟨qs, ds, hds⟩
  · simp only [readClause, Draft.bind_eq_ok] at h
    obtain ⟨_, _, _, -, ⟨qs, ds, _, hds, -⟩, -⟩ := h
    exact ⟨qs, ds, hds⟩

/-- Reading a clause reads the clauses inside it. -/
theorem readClause_of_mem_inside (v : Value) {a : ClauseReading} (h : readClause 0 v = ⟨rs, .ok a⟩) :
    ∀ c ∈ v.inside, ∃ qs b, readClause 0 c = ⟨qs, .ok b⟩ := by
  induction v using induct_nested generalizing rs a with
  | step v ih =>
    cases hnested : v.nested? with
    | none =>
      rw [inside_eq_nil hnested]
      nofun
    | some nested =>
      obtain ⟨scope, body⟩ := nested
      obtain ⟨qs, ds, hbody⟩ := readBody_of_readClause hnested h
      obtain ⟨cs, hcs, hread⟩ := readBody_eq_ok hbody
      obtain ⟨as, has, -⟩ := readClauses_eq_ok.1 hread
      rw [inside_of_nested? hnested, insideBody_of_listed? hcs, Query.forall_mem_everyClause]
      intro c hc
      obtain ⟨ps, b, hb⟩ := readClause_of_mem has c hc
      exact ⟨⟨ps, b, hb⟩, ih scope body cs hnested hcs c hc hb⟩

theorem readClause_of_mem_everyClause (h : readClauses cs = ⟨rs, .ok ds⟩) :
    ∀ c ∈ everyClause cs, ∃ qs a, readClause 0 c = ⟨qs, .ok a⟩ := by
  obtain ⟨as, has, -⟩ := readClauses_eq_ok.1 h
  rw [Query.forall_mem_everyClause]
  intro c hc
  obtain ⟨qs, a, ha⟩ := readClause_of_mem has c hc
  exact ⟨⟨qs, a, ha⟩, readClause_of_mem_inside c ha⟩

theorem isFilled_of_readClause {v : Value} {a : ClauseReading} (h : readClause 0 v = ⟨rs, .ok a⟩) :
    v.IsFilled := by
  rintro items rfl hitems
  simp [readClause, readAssignments, readItems, hitems, Draft.bind_eq_ok, Draft.fail] at h

end Reading

namespace Statement

/-- A MERGE is written with a path for each single pattern in its argument, so that its text is one path
exactly when the argument holds one.  In a statement, every MERGE has such a text in its place. -/
theorem merge_singlePatterns (pattern query parameters override : Value) :
    (∀ text, (Value.clause (.merge pattern)).ownText? = some text →
      ∃ paths, pattern.IsMergeOf text paths) ∧
    ∀ s, compile query parameters override = .ok s →
      ∃ clauses, Query.clausesOf query = .ok clauses ∧ Lays clauses s.text ∧
        (.clause (.merge pattern) ∈ everyClause clauses →
          ∃ text, (Value.clause (.merge pattern)).ownText? = some text) := by
  refine ⟨fun text => exists_isMergeOf, fun s h => ?_⟩
  obtain ⟨clauses, rs, ds, -, hclauses, -, hds, -, -, -, htext⟩ := compile_eq_ok.1 h
  have hread := readClause_of_mem_everyClause hds
  refine ⟨clauses, hclauses, ?_, fun hpattern => ?_⟩
  · rw [htext]
    refine lays_of_readClauses (fun c hc => ?_) hds
    obtain ⟨qs, a, ha⟩ := hread c hc
    exact isFilled_of_readClause ha
  · obtain ⟨qs, a, ha⟩ := hread _ hpattern
    obtain ⟨d, rfl⟩ := readClause_plain rfl ha
    exact ⟨_, ownText?_of_readClause rfl rfl ha⟩

/-- The only pattern of a list in a tuple: a node whose name and property hold commas. -/
def wrappedNode : Value :=
  .tuple [.list [.nodeRef (.text "a, b") (.text "L") (.map [(.text "k", .text "x, (y")])]]

/-- A subquery with a FOREACH that merges this node, and a MERGE of a chain. -/
def nestedMerges : Value :=
  .list [
    .clause (.subquery (.tuple [
      .clause (.forEach (.list [.int 1]) (.text "x") (.list [.clause (.merge wrappedNode)]))])),
    .clause (.merge (.chain (.list [.text "a", .text "R", .text "b"])
      (.list [.text "forward", .text "forward"])))]

theorem merge_singlePatterns_nestedMerges :
    ∃ s, compile nestedMerges .null .null = .ok s ∧
      s.text = "CALL \x7b FOREACH (x IN [1] | MERGE (\x60a, b\x60:L \x7bk: 'x, (y'\x7d)) \x7d " ++
        "MERGE (a)-[:R]->(b)" ∧
      ∃ clauses, Query.clausesOf nestedMerges = .ok clauses ∧ Lays clauses s.text ∧
        .clause (.merge wrappedNode) ∈ everyClause clauses ∧
        ∃ text paths, (Value.clause (.merge wrappedNode)).ownText? = some text ∧
          wrappedNode.IsMergeOf text paths ∧ outerCommas? (", ".intercalate paths) = some 0 := by
  have htext : (compile nestedMerges .null .null).toOption.map (·.text) = some (
      "CALL \x7b FOREACH (x IN [1] | MERGE (\x60a, b\x60:L \x7bk: 'x, (y'\x7d)) \x7d " ++
        "MERGE (a)-[:R]->(b)") := by
    decide +kernel
  obtain ⟨s, hs, htext⟩ := Option.map_eq_some_iff.1 htext
  have hs := eq_ok_of_toOption hs
  obtain ⟨hclause, hstatement⟩ := merge_singlePatterns wrappedNode nestedMerges .null .null
  obtain ⟨clauses, hclauses, hlays, hmerge⟩ := hstatement s hs
  have hmem : .clause (.merge wrappedNode) ∈ everyClause clauses := by
    cases hclauses
    simp [everyClause, inside, insideBody]
  obtain ⟨text, hown⟩ := hmerge hmem
  obtain ⟨paths, hpaths⟩ := hclause text hown
  exact ⟨s, hs, htext, clauses, hclauses, hlays, hmem, text, paths, hown, hpaths,
    hpaths.one_iff.2 ⟨_, rfl⟩⟩

/-- A MERGE whose only pattern is a list of two nodes. -/
def mergeOfTwo : Value :=
  .list [.clause (.merge (.list [.list [
    .nodeRef (.text "a") .null .null, .nodeRef (.text "b") .null .null]]))]

theorem compile_mergeOfTwo :
    (compile mergeOfTwo .null .null).toOption.map (·.text) = some "MERGE (a), (b)" ∧
      outerCommas? "(a), (b)" = some 1 := by
  decide +kernel

end Statement

end CypherCompose
