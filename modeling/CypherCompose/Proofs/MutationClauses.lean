import CypherCompose.Proofs.Folding
import CypherCompose.Proofs.FreshNames
import CypherCompose.Proofs.SetLayout

/-!
# Clauses with a parameter for every property

The statements that create, merge and relate put one parameter in the place of every value
(`Binding.entry`).  This module says what their clauses are read as and written as.

* The table: requests for different names are entered one after the other (`Registry.enterAll_new`), and
  a value that is there is never replaced (`Registry.finalize_null`).
* Clauses that are read one by one make a statement with that table (`Statement.compile_of_forall₂`).
* `Binding.propsText` is the map of a node or a relationship and `Binding.setText` the assignments of a
  merge, with the mention of a parameter behind each key.
-/

namespace CypherCompose

/-! ## The table -/

theorem ParamName.ofValue?_toValue (n : ParamName) : ParamName.ofValue? n.toValue = some n := by
  obtain ⟨w, hplain⟩ := n
  cases w <;> exact dif_pos hplain

namespace Registry

/-- The request for a parameter with its value. -/
def requestOf (e : ParamName × Value) : Request :=
  ⟨e.1.toValue, e.2⟩

/-- Requests for different new names are entered one after the other. -/
theorem enterAll_new (es : List (ParamName × Value)) (r : Registry) (hopen : r.closed = false)
    (hnodup : ((r.entries ++ es).map (·.1.text)).Nodup) :
    r.enterAll (es.map requestOf) = (⟨r.entries ++ es, false⟩, none) := by
  induction es generalizing r with
  | nil =>
    obtain ⟨entries, closed⟩ := r
    cases hopen
    simp [enterAll]
  | cons e es ih =>
    have hnew : r.find? e.1.text = none := by
      rw [find?_eq_none, names, List.map_map]
      rw [List.map_append, List.map_cons, List.nodup_append] at hnodup
      intro hmem
      exact hnodup.2.2 _ hmem _ List.mem_cons_self rfl
    have hregister : r.register (requestOf e) = .ok { r with entries := r.entries ++ [e] } := by
      simp [register, hopen, requestOf, ParamName.ofValue?_toValue, hnew]
    rw [List.map_cons, enterAll, hregister]
    have hrest := ih { r with entries := r.entries ++ [e] } hopen (by simpa using hnodup)
    simpa using hrest

/-- Values that are all there are left as they are. -/
theorem finalize_null {es : List (ParamName × Value)} (hset : ∀ e ∈ es, isUnset e.2 = false) :
    (finalize ⟨es, false⟩ .null).1 = .ok es := by
  have hresolve : resolve (.map []) es = .ok (es.map fun e => (e.1, some e.2)) := by
    induction es with
    | nil => rfl
    | cons e es ih =>
      obtain ⟨he, hes⟩ := List.forall_mem_cons.1 hset
      obtain ⟨n, v⟩ := e
      rw [resolve, if_neg (by simp [he]), ih hes]
      rfl
  have hfull : (es.map fun e => (e.1, some e.2)).filter (·.2.isNone) = [] := by
    rw [List.filter_eq_nil_iff, List.forall_mem_map]
    simp
  have htruth : Value.null.truth = .ok false := rfl
  simp [finalize, htruth, hresolve, hfull]

end Registry

/-! ## Statements clause by clause -/

/-- A clause that is no assignment, with its requests and what it is read as. -/
def ReadsAs (v : Value) (r : List Request × Clause) : Prop :=
  readClause 0 v = ⟨r.1, .ok (.clause r.2)⟩

theorem ReadsAs.of_readPlain {v : Value} {rs : List Request} {c : Clause}
    (hsetting : v.isSetting = false) (hnested : v.nested? = none)
    (h : readPlain 0 v = ⟨rs, .ok c⟩) : ReadsAs v (rs, c) := by
  unfold ReadsAs readClause
  split
  · cases hsetting
  · cases hsetting
  · cases hnested
  · cases hnested
  · rw [h]
    simp [Draft.bind_eq]

theorem groupRuns_clauses (ds : List Clause) : groupRuns (ds.map .clause) = ds := by
  induction ds with
  | nil => rfl
  | cons d ds ih =>
    rw [List.map_cons, groupRuns, groupFrom, ← groupRuns, ih]
    rfl

theorem readClauses_of_forall₂ {vs : List Value} {rds : List (List Request × Clause)}
    (h : List.Forall₂ ReadsAs vs rds) :
    readClauses vs = ⟨rds.flatMap (·.1), .ok (rds.map (·.2))⟩ := by
  have heach : readEachClause 0 vs = ⟨rds.flatMap (·.1), .ok ((rds.map (·.2)).map .clause)⟩ := by
    induction h with
    | nil => rfl
    | cons hv _ ih => exact readEachClause_cons.2 ⟨_, _, _, _, hv, ih, rfl, rfl⟩
  exact readClauses_eq_ok.2 ⟨_, heach, groupRuns_clauses _⟩

/-- A statement that changes the database and asks for each of its parameters once. -/
theorem Statement.compile_of_forall₂ {vs : List Value} {rds : List (List Request × Clause)}
    {text : String} {table : List (ParamName × Value)}
    (hcheck : Query.checkClauses .statement (.list vs) vs = .ok ())
    (hmode : Query.anyMutates vs = .ok true) (hread : List.Forall₂ ReadsAs vs rds)
    (htable : rds.flatMap (·.1) = table.map Registry.requestOf)
    (hnodup : (table.map (·.1.text)).Nodup) (hset : ∀ e ∈ table, Registry.isUnset e.2 = false)
    (htext : " ".intercalate (rds.map fun r => Token.spell r.2.render) = text) :
    compile (.list vs) .null .null = .ok ⟨text, table, .write⟩ := by
  have henter := Registry.enterAll_new table .empty rfl hnodup
  rw [← htable] at henter
  have hmode' : Query.inferMode (.list vs) .null = .ok .write := by
    change (Query.anyMutates vs).map _ = _
    rw [hmode]
    rfl
  refine compile_eq_ok.2 ⟨vs, _, _, _, rfl, hcheck, readClauses_of_forall₂ hread, henter,
    Registry.finalize_null hset, hmode', ?_⟩
  rw [Clause.spell_renderAll, List.map_map, ← htext]
  rfl

/-- The keyword of the assignments for an outcome of a MERGE. -/
def MergeEvent.keyword : MergeEvent → String
  | onCreate => "ON CREATE SET"
  | onMatch => "ON MATCH SET"

/-! ## Keys and mentions -/

namespace Binding

/-- The key as a name. -/
def keyName (b : Binding) : Name :=
  ⟨.plain b.property.key, b.property.nonempty⟩

/-- The name of the parameter. -/
def param (b : Binding) : ParamName :=
  ⟨.plain b.name, Identifier.isPlain_of_isWord b.isWord⟩

/-- The entry of the parameter in the table. -/
def row (b : Binding) : ParamName × Value :=
  (b.param, b.property.value)

/-- The entry of a pattern: the parameter behind the key. -/
def mention (b : Binding) : Name × Expr :=
  (b.keyName, .param b.param)

theorem node_ne_empty : "n" ≠ "" := by
  decide

/-- The assignment of the parameter to the property of a node `n`. -/
def assignment (b : Binding) : Assignment :=
  ⟨.property ⟨.plain "n", node_ne_empty⟩ b.keyName, .param b.param⟩

/-- The properties of a node or a relationship, with the mention of a parameter behind each key. -/
def propsText (bs : List Binding) : String :=
  if bs.isEmpty then ""
  else " \x7b" ++
    ", ".intercalate (bs.map fun b => Identifier.quote b.property.key ++ ": $" ++ b.name) ++ "\x7d"

/-- Assignments of parameters to the properties of a node `n`. -/
def setText (bs : List Binding) : String :=
  ", ".intercalate (bs.map fun b => "n." ++ Identifier.quote b.property.key ++ " = $" ++ b.name)

theorem ofValue?_key (b : Binding) : Name.ofValue? (.text b.property.key) = some b.keyName :=
  dif_pos b.property.nonempty

theorem ofValue_param (b : Binding) :
    Expr.ofValue (.param (.text b.name) b.property.value) =
      ⟨[Registry.requestOf b.row], .ok (.param b.param)⟩ := by
  have hparam : ParamName.ofValue? (.text b.name) = some b.param := b.param.ofValue?_toValue
  rw [Expr.ofValue, Draft.parameter, hparam]
  rfl

theorem readEntries_bindings (whole : Value) (bs : List Binding) :
    readEntries whole (bs.map entry) =
      ⟨(bs.map row).map Registry.requestOf, .ok (bs.map mention)⟩ := by
  induction bs with
  | nil => rfl
  | cons b bs ih =>
    rw [List.map_cons, entry, readEntries, ofValue?_key, ofValue_param, ih]
    simp [Draft.ofOption, Draft.done, Draft.bind_eq, mention]

theorem readProps_bindings (bs : List Binding) :
    readProps (Mutation.mapOrNull (bs.map entry)) =
      ⟨(bs.map row).map Registry.requestOf, .ok (bs.map mention)⟩ := by
  cases bs with
  | nil => rfl
  | cons b bs => exact readEntries_bindings _ (b :: bs)

theorem readAssign_binding (b : Binding) :
    readAssign (.property (.text "n") (.text b.property.key)) (.param (.text b.name) b.property.value) =
      ⟨[Registry.requestOf b.row], .ok b.assignment⟩ := by
  rw [readAssign, Expr.ofValue, readProperty, ofValue?_key, ofValue_param]
  rfl

theorem readAssignments_bindings (c : Value) {bs : List Binding} (hne : bs ≠ []) :
    readAssignments c (Mutation.assignments (bs.map entry)) =
      ⟨(bs.map row).map Registry.requestOf, .ok (bs.map assignment)⟩ := by
  have hitems (e : ClauseError) : readItems e (Mutation.assignments (bs.map entry)) =
      .done ((bs.map entry).map fun e => .assign (.property (.text "n") e.1) e.2) :=
    if_neg (by simpa [Mutation.assignments, Value.asList] using hne)
  have heach (bs : List Binding) :
      readEachWith (readSetItem c)
          ((bs.map entry).map fun e => .assign (.property (.text "n") e.1) e.2) =
        ⟨(bs.map row).map Registry.requestOf, .ok (bs.map assignment)⟩ := by
    induction bs with
    | nil => rfl
    | cons b bs ih =>
      rw [List.map_cons, List.map_cons, readEachWith, ih, entry, readSetItem, readAssign_binding]
      simp [Draft.bind_eq]
  rw [readAssignments, hitems, ← heach bs]
  rfl

theorem renderEntries_bindings (bs : List Binding) :
    Expr.renderEntries (bs.map mention) =
      bs.map fun b => (b.keyName, [.param b.param]) := by
  induction bs with
  | nil => rfl
  | cons b bs ih =>
    rw [List.map_cons, List.map_cons, Expr.renderEntries, ih]
    rfl

theorem spelling_keyName (b : Binding) :
    (Token.filledName b.keyName).spelling = Identifier.quote b.property.key := rfl

theorem spelling_param (b : Binding) : (Token.param b.param).spelling = "$" ++ b.name := rfl

theorem spell_renderProps (bs : List Binding) :
    Token.spell (renderProps (Expr.renderEntries (bs.map mention))) =
      propsText bs := by
  rw [renderEntries_bindings, renderProps, propsText, List.isEmpty_map]
  split_ifs with hempty
  · rfl
  · have hentry (b : Binding) :
        Token.spell (.filledName b.keyName :: .sym ":" :: .blank :: Token.fill [.param b.param]) =
          Identifier.quote b.property.key ++ ": $" ++ b.name := by
      have hfill : Token.fill [.param b.param] = [.param b.param] := rfl
      simp only [hfill, Token.spell_cons, spelling_keyName, spelling_param]
      apply String.toList_injective
      simp [Token.spelling]
    have hcommas : Token.spell (Token.commas ((bs.map fun b => (b.keyName, [.param b.param])).map
        fun e => .filledName e.1 :: .sym ":" :: .blank :: Token.fill e.2)) =
          ", ".intercalate
            (bs.map fun b => Identifier.quote b.property.key ++ ": $" ++ b.name) := by
      rw [Token.commas, Token.spell_intercalate, List.map_map, List.map_map]
      exact congrArg _ (List.map_congr_left fun b _ => hentry b)
    rw [renderMap, Token.spell_cons, Token.spell_cons, Token.spell_append, hcommas]
    apply String.toList_injective
    simp [Token.spelling]

theorem spell_assignment (b : Binding) :
    Token.spell b.assignment.render =
      "n." ++ Identifier.quote b.property.key ++ " = $" ++ b.name := by
  have hrender : b.assignment.render =
      [.filledName ⟨.plain "n", by decide⟩, .sym ".", .filledName b.keyName, .blank, .sym "=", .blank,
        .param b.param] := rfl
  have hn : (Token.filledName ⟨.plain "n", by decide⟩).spelling = "n" := by decide
  simp only [hrender, Token.spell_cons, hn, spelling_keyName, spelling_param]
  apply String.toList_injective
  simp [Token.spelling]

end Binding

/-! ## The clauses -/

namespace Mutation

variable {label type : String}

/-- The node `n` of a label, with parameters for its properties. -/
def boundNode (label : Name) (bs : List Binding) : Node Expr :=
  ⟨some ⟨.plain "n", Binding.node_ne_empty⟩, some label, bs.map Binding.mention⟩

theorem spell_boundNode (hlabel : label ≠ "") (bs : List Binding) :
    Token.spell (boundNode ⟨.plain label, hlabel⟩ bs).tokens =
      "(n:" ++ Identifier.quote label ++ Binding.propsText bs ++ ")" := by
  have hname : (Token.name ⟨.plain "n", by decide⟩).spelling = "n" := by decide
  have hlabel' : (Token.name ⟨.plain label, hlabel⟩).spelling = Identifier.quote label := rfl
  have htokens : (boundNode ⟨.plain label, hlabel⟩ bs).tokens =
      Token.sym "(" :: Token.name ⟨.plain "n", by decide⟩ :: Token.sym ":" ::
        Token.name ⟨.plain label, hlabel⟩ ::
        (renderProps (Expr.renderEntries (bs.map Binding.mention)) ++ [Token.sym ")"]) := rfl
  simp only [htokens, Token.spell_cons, Token.spell_append, hname, hlabel',
    Binding.spell_renderProps]
  apply String.toList_injective
  simp [Token.spelling]

theorem pathsOf_node (hlabel : label ≠ "") (bs : List Binding) :
    pathsOf (.nodeRef (.text "n") (.text label) (mapOrNull (bs.map Binding.entry))) =
      ⟨(bs.map Binding.row).map Registry.requestOf,
        .ok [⟨boundNode ⟨.plain label, hlabel⟩ bs, []⟩]⟩ := by
  rw [pathsOf, readNode, readName_text _ _ (by decide), readName_text _ _ hlabel,
    Binding.readProps_bindings]
  simp [Draft.bind_eq, Draft.done, boundNode]

theorem readsAs_returning {name : String} (hname : name ≠ "") (hstar : name ≠ "*") :
    ReadsAs (returning name) ([], .returning false [⟨.var ⟨.plain name, hname⟩, none⟩]) := by
  have hoperand : readOperand (.text name) = .done (.var ⟨.plain name, hname⟩) :=
    readVar_text hstar hname
  have hprojection (c : Value) :
      readProjection c (.text name) = .done ⟨.var ⟨.plain name, hname⟩, none⟩ := by
    change (do let e ← readOperand (.text name); pure (⟨e, none⟩ : Projection)) = _
    rw [hoperand]
    rfl
  refine .of_readPlain rfl rfl ?_
  change (do
    let ps ← readEachWith (readProjection (returning name)) [.text name]
    let d ← Draft.ofMisuse (Value.bool false).truth
    pure (Clause.returning d ps)) = _
  rw [readEachWith, hprojection]
  rfl

theorem readsAs_create {v : Value} {rs : List Request} {ps : List (Path Expr)} (hv : v.asList = [v])
    (h : pathsOf v = ⟨rs, .ok ps⟩) : ReadsAs (.clause (.create v)) (rs, .create ps) := by
  have hpatterns : readClausePatterns (.clause (.create v)) v = ⟨rs, .ok ps⟩ := by
    rw [readClausePatterns, readItems, hv, if_neg (by simp)]
    change readEachPattern [v] = _
    rw [readEachPattern, h, readEachPattern]
    simp [Draft.bind_eq, Draft.done]
  refine .of_readPlain rfl rfl ?_
  change Clause.create <$> readClausePatterns (.clause (.create v)) v = _
  exact Draft.map_eq_ok.2 ⟨ps, hpatterns, rfl⟩

theorem readsAs_merge (hlabel : label ≠ "") (bs : List Binding) :
    ReadsAs (.clause (.merge
        (.nodeRef (.text "n") (.text label) (mapOrNull (bs.map Binding.entry)))))
      ((bs.map Binding.row).map Registry.requestOf,
        .merge [⟨boundNode ⟨.plain label, hlabel⟩ bs, []⟩]) := by
  refine .of_readPlain rfl rfl ?_
  change Clause.merge <$> pathsOf _ = _
  exact Draft.map_eq_ok.2 ⟨_, pathsOf_node hlabel bs, rfl⟩

theorem readsAs_onMerge (event : MergeEvent) {bs : List Binding} (hne : bs ≠ []) :
    ReadsAs (.clause (.onMerge event (assignments (bs.map Binding.entry))))
      ((bs.map Binding.row).map Registry.requestOf, .onMerge event (bs.map Binding.assignment)) := by
  refine .of_readPlain rfl rfl ?_
  change Clause.onMerge event <$> readAssignments _ _ = _
  exact Draft.map_eq_ok.2 ⟨_, Binding.readAssignments_bindings _ hne, rfl⟩

theorem spell_returning {name : String} (hname : name ≠ "") :
    Token.spell (Clause.returning false [⟨.var ⟨.plain name, hname⟩, none⟩]).render =
      "RETURN " ++ Identifier.quote name := by
  have hrender : (Clause.returning false [⟨.var ⟨.plain name, hname⟩, none⟩]).render =
      Token.after "RETURN" [.name ⟨.plain name, hname⟩] := rfl
  rw [hrender, Token.spell_after, Token.spell_cons, Token.spell_nil, String.append_empty]
  rfl

theorem readsAs_returning_n :
    ReadsAs (returning "n") ([], .returning false [⟨.var ⟨.plain "n", by decide⟩, none⟩]) :=
  readsAs_returning (by decide) (by decide)

theorem spell_returning_n :
    Token.spell (Clause.returning false [⟨.var ⟨.plain "n", by decide⟩, none⟩]).render =
      "RETURN n" :=
  (spell_returning (by decide)).trans (by decide)

theorem spell_returning_r :
    Token.spell (Clause.returning false [⟨.var ⟨.plain "r", by decide⟩, none⟩]).render =
      "RETURN r" :=
  (spell_returning (by decide)).trans (by decide)

theorem pathTokens_node (n : Node Expr) : pathTokens [⟨n, []⟩] = n.tokens := by
  simp [pathTokens, Expr.renderPathList, Expr.renderPath, Expr.renderLinks, renderPaths, Token.commas,
    Path.render, Node.tokens]

theorem spell_create (hlabel : label ≠ "") (bs : List Binding) :
    Token.spell (Clause.create [⟨boundNode ⟨.plain label, hlabel⟩ bs, []⟩]).render =
      "CREATE " ++ ("(n:" ++ Identifier.quote label ++ Binding.propsText bs ++ ")") := by
  rw [Clause.render, Token.spell_after, pathTokens_node, spell_boundNode]
  rfl

theorem spell_merge (hlabel : label ≠ "") (bs : List Binding) :
    Token.spell (Clause.merge [⟨boundNode ⟨.plain label, hlabel⟩ bs, []⟩]).render =
      "MERGE " ++ ("(n:" ++ Identifier.quote label ++ Binding.propsText bs ++ ")") := by
  rw [Clause.render, Token.spell_after, pathTokens_node, spell_boundNode]
  rfl

theorem spell_onMerge (event : MergeEvent) (bs : List Binding) :
    Token.spell (Clause.onMerge event (bs.map Binding.assignment)).render =
      event.keyword ++ " " ++ Binding.setText bs := by
  have hset : Token.spell (renderAssignments (bs.map Binding.assignment)) = Binding.setText bs := by
    rw [spell_renderAssignments, List.map_map, Binding.setText]
    exact congrArg _ (List.map_congr_left fun b _ => b.spell_assignment)
  cases event with
  | onCreate => rw [Clause.render, Token.spell_after, hset, MergeEvent.keyword]
  | onMatch => rw [Clause.render, Token.spell_after, hset, MergeEvent.keyword]

/-! ## Relations -/

theorem rel_ne_empty : "r" ≠ "" := by
  decide

/-- The relationship `r` of a type, with parameters for its properties. -/
def boundRel (type : Name) (bs : List Binding) : Rel Expr :=
  ⟨some ⟨.plain "r", rel_ne_empty⟩, some type, none, bs.map Binding.mention⟩

/-- A node given by its name alone. -/
def endpoint (name : String) (hname : name ≠ "") : Node Expr :=
  ⟨some ⟨.plain name, hname⟩, none, []⟩

/-- The condition that a node has the id that a parameter stands for. -/
def idCondition (node : Name) (id : ParamName) : Expr :=
  .binary .eq (.call ⟨.plain "elementId", by decide⟩ false [.var node]) (.param id)

theorem relOf_boundRel (htype : type ≠ "") (bs : List Binding) :
    relOf (.relRef (.text "r") (.text type) .null (mapOrNull (bs.map Binding.entry))) =
      ⟨(bs.map Binding.row).map Registry.requestOf, .ok (boundRel ⟨.plain type, htype⟩ bs)⟩ := by
  rw [relOf, readRel, readName_text _ _ (by decide), readName_text _ _ htype,
    Binding.readProps_bindings]
  simp [Draft.bind_eq, Draft.done, readHops, boundRel]

theorem pathsOf_relation (htype : type ≠ "") (bs : List Binding) :
    pathsOf (Value.chainOf [.nodeRef (.text "a") .null .null,
        .relRef (.text "r") (.text type) .null (mapOrNull (bs.map Binding.entry)),
        .nodeRef (.text "b") .null .null] (.atom (.direction .forward))) =
      ⟨(bs.map Binding.row).map Registry.requestOf, .ok [⟨endpoint "a" (by decide),
        [⟨.forward, boundRel ⟨.plain type, htype⟩ bs, endpoint "b" (by decide)⟩]⟩]⟩ := by
  have hstart (chain : Value) : (readStation (.nodeRef (.text "a") .null .null)).node chain 0 =
      .done (endpoint "a" (by decide)) := rfl
  have hnode : nodeOf (.nodeRef (.text "b") .null .null) = ⟨[], .ok (endpoint "b" (by decide))⟩ := rfl
  have hlinks (chain : Value) :=
    readLinks_pair (relOf_boundRel htype bs) hnode chain 1 .forth .forth [] []
  refine (pathsOf_list_chain _ [Way.forth.toValue, Way.forth.toValue]).trans
    (Draft.map_eq_ok.2 ⟨_, ?_, rfl⟩)
  simp only [List.map_cons, List.map_nil]
  rw [readChain, if_neg (by simp), if_neg (by simp), hstart, hlinks, if_pos rfl,
    relOf_boundRel htype, hnode]
  simp [Draft.bind_eq, Draft.done, readLinks, Way.direction]

theorem ofValue_hasId {node parameter : String} (hnode : node ≠ "") (hstar : node ≠ "*")
    (hplain : Identifier.isPlain parameter = true) (id : Value) :
    Expr.ofValue (hasId node parameter id) =
      ⟨[⟨.text parameter, id⟩], .ok (idCondition ⟨.plain node, hnode⟩ ⟨.plain parameter, hplain⟩)⟩ := by
  have hargs : Draft.all (readAll [.var (.text node)]) = .done [.var ⟨.plain node, hnode⟩] := by
    rw [readAll, readAll, Expr.ofValue, readVar_text hstar hnode]
    rfl
  have hcall : Expr.ofValue (.call (.text "elementId") (.list [.var (.text node)]) (.bool false)) =
      .done (.call ⟨.plain "elementId", by decide⟩ false [.var ⟨.plain node, hnode⟩]) := by
    change (Expr.call ⟨.plain "elementId", by decide⟩ false) <$>
      Draft.all (readAll [.var (.text node)]) = _
    rw [hargs]
    rfl
  have hparam : ParamName.ofValue? (.text parameter) = some ⟨.plain parameter, hplain⟩ :=
    dif_pos hplain
  rw [hasId, Expr.ofValue, hcall, Expr.ofValue, Draft.parameter, hparam]
  rfl

theorem readsAs_matching :
    ReadsAs (.clause (.matching false (.list [.nodeRef (.text "a") .null .null,
        .nodeRef (.text "b") .null .null])))
      ([], .matching false [⟨endpoint "a" (by decide), []⟩, ⟨endpoint "b" (by decide), []⟩]) :=
  rfl

theorem readsAs_condition {v : Value} {rs : List Request} {e : Expr} (hv : v.asList = [v])
    (h : Expr.ofValue v = ⟨rs, .ok e⟩) : ReadsAs (.clause (.filter v)) (rs, .filter e) := by
  have hitems : readItems (.noConditions (.clause (.filter v))) v = ⟨[], .ok [v]⟩ := by
    rw [readItems, hv]
    rfl
  have hread : readEachWith Expr.ofValue [v] = ⟨rs, .ok [e]⟩ := by
    rw [readEachWith, h]
    exact Draft.bind_eq_ok.2 ⟨rs, e, [], rfl, rfl, (List.append_nil rs).symm⟩
  refine .of_readPlain rfl rfl ?_
  refine Draft.bind_eq_ok.2 ⟨[], [v], rs, hitems, ?_, rfl⟩
  exact Draft.bind_eq_ok.2 ⟨rs, [e], [], hread, rfl, (List.append_nil rs).symm⟩

theorem readsAs_filter (start finish : Value) :
    ReadsAs (.clause (.filter (.binary (.text "and") (hasId "a" "__start_id" start)
        (hasId "b" "__end_id" finish))))
      ([⟨.text "__start_id", start⟩, ⟨.text "__end_id", finish⟩],
        .filter (.binary .and
          (idCondition ⟨.plain "a", by decide⟩ ⟨.plain "__start_id", by decide⟩)
          (idCondition ⟨.plain "b", by decide⟩ ⟨.plain "__end_id", by decide⟩))) := by
  have hcondition : Expr.ofValue (.binary (.text "and") (hasId "a" "__start_id" start)
      (hasId "b" "__end_id" finish)) =
        ⟨[⟨.text "__start_id", start⟩, ⟨.text "__end_id", finish⟩], .ok (.binary .and
          (idCondition ⟨.plain "a", by decide⟩ ⟨.plain "__start_id", by decide⟩)
          (idCondition ⟨.plain "b", by decide⟩ ⟨.plain "__end_id", by decide⟩))⟩ := by
    rw [Expr.ofValue, ofValue_hasId (by decide) (by decide) (by decide),
      ofValue_hasId (by decide) (by decide) (by decide)]
    rfl
  exact readsAs_condition rfl hcondition

theorem spell_relation (htype : type ≠ "") (bs : List Binding) :
    Token.spell (Clause.create [⟨endpoint "a" (by decide),
        [⟨.forward, boundRel ⟨.plain type, htype⟩ bs, endpoint "b" (by decide)⟩]⟩]).render =
      "CREATE (a)-[r:" ++ Identifier.quote type ++ Binding.propsText bs ++ "]->(b)" := by
  have hrender : (Clause.create [⟨endpoint "a" (by decide),
      [⟨.forward, boundRel ⟨.plain type, htype⟩ bs, endpoint "b" (by decide)⟩]⟩]).render =
        ([Token.sym "CREATE", Token.blank] ++ (endpoint "a" (by decide)).tokens ++
          [Token.sym "-", Token.sym "[", Token.name ⟨.plain "r", by decide⟩, Token.sym ":"]) ++
        [Token.name ⟨.plain type, htype⟩] ++
        renderProps (Expr.renderEntries (bs.map Binding.mention)) ++
        ([Token.sym "]", Token.sym "->"] ++ (endpoint "b" (by decide)).tokens) := by
    simp [Clause.render, Token.after, pathTokens, Expr.renderPathList, Expr.renderPath,
      Expr.renderLinks, Expr.renderLink, renderPaths, Token.commas, Path.render, Link.render,
      Node.tokens, Rel.render, Expr.renderRel, boundRel, Direction.opening, Direction.closing,
      renderName, renderLabel, renderHops]
  have hopen : Token.spell ([Token.sym "CREATE", Token.blank] ++ (endpoint "a" (by decide)).tokens ++
      [Token.sym "-", Token.sym "[", Token.name ⟨.plain "r", by decide⟩, Token.sym ":"]) =
        "CREATE (a)-[r:" := by
    decide
  have hclose : Token.spell ([Token.sym "]", Token.sym "->"] ++ (endpoint "b" (by decide)).tokens) =
      "]->(b)" := by
    decide
  have hname : Token.spell [.name ⟨.plain type, htype⟩] = Identifier.quote type := by
    rw [Token.spell_cons, Token.spell_nil, String.append_empty]
    rfl
  rw [hrender, Token.spell_append, Token.spell_append, Token.spell_append, hopen, hclose, hname,
    Binding.spell_renderProps]

theorem spell_endpoints :
    Token.spell (Clause.matching false
      [⟨endpoint "a" (by decide), []⟩, ⟨endpoint "b" (by decide), []⟩]).render = "MATCH (a), (b)" := by
  decide

theorem spell_idConditions :
    Token.spell (Clause.filter (.binary .and
      (idCondition ⟨.plain "a", by decide⟩ ⟨.plain "__start_id", by decide⟩)
      (idCondition ⟨.plain "b", by decide⟩ ⟨.plain "__end_id", by decide⟩))).render =
        "WHERE elementId(a) = $__start_id AND elementId(b) = $__end_id" := by
  decide

end Mutation

end CypherCompose
