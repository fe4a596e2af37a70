import CypherCompose.Proofs.MutationClauses

/-!
# Every value reaches its own property

Creating, merging and relating ask a pool for the name of every parameter, so the names are all
different (`NamePool.exists_bind`).  The table then holds each of them with its own value, and the text
mentions it behind the key that the value was given for (`Mutation.helpers_bind`).
-/

namespace CypherCompose

namespace Mutation

variable {label type : String}

/-! ## The statements -/

/-- The text that creates a node. -/
def createText (label : String) (bs : List Binding) : String :=
  "CREATE (n:" ++ Identifier.quote label ++ Binding.propsText bs ++ ") RETURN n"

/-- The assignments of a merge for an outcome, if there are any. -/
def onMergeText (event : MergeEvent) (bs : List Binding) : String :=
  if bs.isEmpty then "" else " " ++ event.keyword ++ " " ++ Binding.setText bs

/-- The text that merges a node. -/
def mergeText (label : String) (fs cs ms : List Binding) : String :=
  "MERGE (n:" ++ Identifier.quote label ++ Binding.propsText fs ++ ")" ++ onMergeText .onCreate cs ++
    onMergeText .onMatch ms ++ " RETURN n"

/-- The text that relates two nodes. -/
def relateText (type : String) (bs : List Binding) : String :=
  " ".intercalate ["MATCH (a), (b)",
    "WHERE elementId(a) = $__start_id AND elementId(b) = $__end_id",
    "CREATE (a)-[r:" ++ Identifier.quote type ++ Binding.propsText bs ++ "]->(b)", "RETURN r"]

theorem texts_rows (bs : List Binding) : (bs.map Binding.row).map (·.1.text) = bs.map Binding.name := by
  rw [List.map_map]
  rfl

theorem isSet_rows (bs : List Binding) : ∀ e ∈ bs.map Binding.row, Registry.isUnset e.2 = false :=
  List.forall_mem_map.2 fun b _ => b.property.isSet

theorem compile_create (hlabel : label ≠ "") {bs : List Binding}
    (hnodup : (bs.map Binding.name).Nodup) :
    Statement.compile (.list [.clause (.create (.nodeRef (.text "n") (.text label)
        (mapOrNull (bs.map Binding.entry)))), returning "n"]) .null .null =
      .ok ⟨createText label bs, bs.map Binding.row, .write⟩ := by
  refine Statement.compile_of_forall₂ rfl rfl
    (.cons (readsAs_create rfl (pathsOf_node hlabel bs)) (.cons readsAs_returning_n .nil))
    (by simp) (by rwa [texts_rows]) (isSet_rows bs) ?_
  rw [List.map_cons, List.map_singleton, spell_create, spell_returning_n, createText]
  apply String.toList_injective
  simp

/-- What the clause of a section is read as, if there is one. -/
def sectionReadings (event : MergeEvent) (bs : List Binding) : List (List Request × Clause) :=
  if bs.isEmpty then []
  else [((bs.map Binding.row).map Registry.requestOf, .onMerge event (bs.map Binding.assignment))]

theorem forall₂_onMerge (event : MergeEvent) (bs : List Binding) :
    List.Forall₂ ReadsAs
      (if (bs.map Binding.entry).isEmpty then []
        else [.clause (.onMerge event (assignments (bs.map Binding.entry)))])
      (sectionReadings event bs) := by
  cases bs with
  | nil => exact .nil
  | cons b bs => exact .cons (readsAs_onMerge event (List.cons_ne_nil b bs)) .nil

theorem requests_sectionReadings (event : MergeEvent) (bs : List Binding) :
    (sectionReadings event bs).flatMap (·.1) = (bs.map Binding.row).map Registry.requestOf := by
  cases bs with
  | nil => rfl
  | cons b bs => exact List.append_nil _

theorem text_sectionReadings (event : MergeEvent) (bs : List Binding) :
    String.join ((sectionReadings event bs).map
      ((" " ++ ·) ∘ fun r => Token.spell r.2.render)) = onMergeText event bs := by
  cases bs with
  | nil => rfl
  | cons b bs =>
    simp only [sectionReadings, onMergeText, List.isEmpty_cons, Bool.false_eq_true, if_false,
      List.map_singleton, String.join_cons, String.join_nil, String.append_empty, Function.comp_apply]
    rw [spell_onMerge, String.append_assoc, String.append_assoc, String.append_assoc]

theorem intercalate_blank_cons (x : String) (ys : List String) :
    " ".intercalate (x :: ys) = x ++ String.join (ys.map (" " ++ ·)) := by
  induction ys generalizing x with
  | nil => simp
  | cons y ys ih =>
    rw [String.intercalate_cons_cons, ih, List.map_cons, String.join_cons, String.append_assoc,
      String.append_assoc]

theorem compile_merge (hlabel : label ≠ "") {fs cs ms : List Binding}
    (hnodup : ((fs ++ cs ++ ms).map Binding.name).Nodup) :
    Statement.compile (.list ([Value.clause (.merge (.nodeRef (.text "n") (.text label)
        (mapOrNull (fs.map Binding.entry))))]
      ++ (if (cs.map Binding.entry).isEmpty then []
        else [Value.clause (.onMerge .onCreate (assignments (cs.map Binding.entry)))])
      ++ (if (ms.map Binding.entry).isEmpty then []
        else [Value.clause (.onMerge .onMatch (assignments (ms.map Binding.entry)))])
      ++ [returning "n"])) .null .null =
      .ok ⟨mergeText label fs cs ms, (fs ++ cs ++ ms).map Binding.row, .write⟩ := by
  have hread := List.rel_append (List.rel_append (List.rel_append
    (.cons (readsAs_merge hlabel fs) .nil) (forall₂_onMerge .onCreate cs))
      (forall₂_onMerge .onMatch ms)) (.cons readsAs_returning_n .nil)
  refine Statement.compile_of_forall₂ (by cases cs <;> cases ms <;> rfl) rfl hread
    (by simp [requests_sectionReadings]) (by rwa [texts_rows]) (isSet_rows _) ?_
  simp only [List.cons_append, List.nil_append, List.map_cons, List.map_append, List.map_nil,
    intercalate_blank_cons, List.map_map, String.join_append, text_sectionReadings, spell_merge,
    spell_returning_n]
  delta mergeText
  apply String.toList_injective
  simp

/-- The table of a relation: the two ids, and then the properties. -/
def relateRows (start finish : Value) (bs : List Binding) : List (ParamName × Value) :=
  (⟨.plain "__start_id", by decide⟩, start) :: (⟨.plain "__end_id", by decide⟩, finish) ::
    bs.map Binding.row

theorem requests_relateRows (start finish : Value) (bs : List Binding) :
    (relateRows start finish bs).map Registry.requestOf =
      ⟨.text "__start_id", start⟩ :: ⟨.text "__end_id", finish⟩ ::
        (bs.map Binding.row).map Registry.requestOf :=
  rfl

theorem texts_relateRows (start finish : Value) (bs : List Binding) :
    (relateRows start finish bs).map (·.1.text) =
      "__start_id" :: "__end_id" :: bs.map Binding.name := by
  rw [relateRows, List.map_cons, List.map_cons, texts_rows]
  rfl

theorem compile_relate (htype : type ≠ "") {start finish : Value}
    (hstart : Registry.isUnset start = false) (hfinish : Registry.isUnset finish = false)
    {bs : List Binding} (hnodup : ("__start_id" :: "__end_id" :: bs.map Binding.name).Nodup) :
    Statement.compile (.list [
      .clause (.matching false (.list [.nodeRef (.text "a") .null .null,
        .nodeRef (.text "b") .null .null])),
      .clause (.filter (.binary (.text "and") (hasId "a" "__start_id" start)
        (hasId "b" "__end_id" finish))),
      .clause (.create (Value.chainOf [.nodeRef (.text "a") .null .null,
        .relRef (.text "r") (.text type) .null (mapOrNull (bs.map Binding.entry)),
        .nodeRef (.text "b") .null .null] (.atom (.direction .forward)))),
      returning "r"]) .null .null =
      .ok ⟨relateText type bs, relateRows start finish bs, .write⟩ := by
  have hreturn : ReadsAs (returning "r")
      ([], .returning false [⟨.var ⟨.plain "r", by decide⟩, none⟩]) :=
    readsAs_returning (by decide) (by decide)
  have hset : ∀ e ∈ relateRows start finish bs, Registry.isUnset e.2 = false :=
    List.forall_mem_cons.2 ⟨hstart, List.forall_mem_cons.2 ⟨hfinish, isSet_rows bs⟩⟩
  refine Statement.compile_of_forall₂ rfl rfl
    (.cons readsAs_matching (.cons (readsAs_filter start finish)
      (.cons (readsAs_create rfl (pathsOf_relation htype bs)) (.cons hreturn .nil))))
    (by simp [requests_relateRows]) (by rwa [texts_relateRows]) hset ?_
  simp only [List.map_cons, List.map_nil, spell_endpoints, spell_idConditions, spell_relation,
    spell_returning_r]
  rfl

end Mutation

/-! ## The helpers -/

/-- The properties that a value gives: a map of them, or null for none. -/
def Property.GivenBy (v : Value) (ps : List Property) : Prop :=
  v = .map (ps.map entry) ∨ v = .null ∧ ps = []

theorem Property.GivenBy.propsOf_eq {v : Value} {ps : List Property} (h : GivenBy v ps) :
    Mutation.propsOf v = .ok (ps.map entry) := by
  obtain rfl | ⟨rfl, rfl⟩ := h
  · cases ps <;> rfl
  · rfl

/-- A statement that writes, and whose table holds some ids and then, under a name of its own, the value
of every binding. -/
structure Statement.Binds (s : Statement) (ids : List (String × Value)) (bs : List Binding) : Prop where
  writes : s.mode = .write
  table : s.parameters.map (fun e => (e.1.text, e.2)) = ids ++ bs.map Binding.bound
  nodup : (s.parameters.map (·.1.text)).Nodup

namespace Mutation

/-- A statement that creates a node with the properties, each bound at its key. -/
def Result.Creates (r : Result) (label : String) (ps : List Property) : Prop :=
  ∃ s bs, r.outcome = .ok s ∧ bs.map Binding.property = ps ∧ s.text = createText label bs ∧
    s.Binds [] bs

/-- A statement that merges a node with the properties, each bound at its key of its own section. -/
def Result.Merges (r : Result) (label : String) (fs cs ms : List Property) : Prop :=
  ∃ s bf bc bm, r.outcome = .ok s ∧ bf.map Binding.property = fs ∧ bc.map Binding.property = cs ∧
    bm.map Binding.property = ms ∧ s.text = mergeText label bf bc bm ∧ s.Binds [] (bf ++ bc ++ bm)

/-- A statement that relates the nodes of two ids with the properties, each bound at its key. -/
def Result.Relates (r : Result) (type : String) (start finish : Value) (ps : List Property) : Prop :=
  ∃ s bs, r.outcome = .ok s ∧ bs.map Binding.property = ps ∧ s.text = relateText type bs ∧
    s.Binds [("__start_id", start), ("__end_id", finish)] bs

theorem checked_of_none {catalog : Option Catalog} {find : Catalog → Except Misuse (Option Value)}
    (h : ∀ c ∈ catalog, find c = .ok none) (props : List (Value × Value)) (clauses : List Value) :
    checked catalog find props clauses = ⟨[], Statement.compile (.list clauses) .null .null⟩ := by
  cases catalog with
  | none => rfl
  | some c => simp [checked, h c rfl]

theorem isWord_props : Identifier.isWord "props".toList = true := by
  decide

theorem creates_createNode (hlabel : label ≠ "") {ps : List Property} {props : Value}
    (hprops : Property.GivenBy props ps) {catalog : Option Catalog}
    (hfree : ∀ c ∈ catalog, c.nodeSchema? (.text label) = .ok none) :
    (createNode (.text label) props catalog).Creates label ps := by
  obtain ⟨bs, hbs, hbind, hused⟩ := NamePool.exists_bind isWord_props ps ⟨[]⟩ .nil
  have hnodup : (bs.map Binding.name).Nodup := by simpa using hused
  refine ⟨⟨createText label bs, bs.map Binding.row, .write⟩, bs, ?_, hbs, rfl, rfl, ?_, ?_⟩
  · rw [createNode, hprops.propsOf_eq]
    simp only [checked_of_none hfree, createClauses, hbind]
    exact compile_create hlabel hnodup
  · rw [List.map_map]
    rfl
  · rwa [texts_rows]

theorem merges_mergeClauses (hlabel : label ≠ "") (fs cs ms : List Property) (warnings : List String) :
    Result.Merges ⟨warnings, Statement.compile (.list (mergeClauses (.text label)
      (fs.map Property.entry) (cs.map Property.entry) (ms.map Property.entry))) .null .null⟩
      label fs cs ms := by
  have hwords : Identifier.isWord "match".toList = true ∧ Identifier.isWord "on_create".toList = true ∧
      Identifier.isWord "on_match".toList = true := by
    decide
  obtain ⟨bf, hbf, hbindf, husedf⟩ := NamePool.exists_bind hwords.1 fs ⟨[]⟩ .nil
  obtain ⟨bc, hbc, hbindc, husedc⟩ := NamePool.exists_bind hwords.2.1 cs _ husedf
  obtain ⟨bm, hbm, hbindm, husedm⟩ := NamePool.exists_bind hwords.2.2 ms _ husedc
  have hnodup : ((bf ++ bc ++ bm).map Binding.name).Nodup := by
    rw [← List.nodup_reverse]
    simpa using husedm
  refine ⟨⟨mergeText label bf bc bm, (bf ++ bc ++ bm).map Binding.row, .write⟩, bf, bc, bm, ?_, hbf,
    hbc, hbm, rfl, rfl, ?_, ?_⟩
  · simp only [mergeClauses, hbindf, hbindc, hbindm]
    exact compile_merge hlabel hnodup
  · rw [List.map_map]
    rfl
  · rwa [texts_rows]

theorem mergeNode_of_propsOf {label found onCreate onMatch : Value} {fs cs ms : List (Value × Value)}
    {catalog : Option Catalog} (hfound : propsOf found = .ok fs) (hcreate : propsOf onCreate = .ok cs)
    (hmatch : propsOf onMatch = .ok ms) :
    mergeNode label found onCreate onMatch catalog =
      checked catalog (·.nodeSchema? label) (merged (merged fs cs) ms)
        (mergeClauses label fs cs ms) := by
  rw [mergeNode, hfound, hcreate, hmatch]
  rfl

theorem merges_mergeNode (hlabel : label ≠ "") {fs cs ms : List Property}
    {found onCreate onMatch : Value} (hfound : Property.GivenBy found fs)
    (hcreate : Property.GivenBy onCreate cs) (hmatch : Property.GivenBy onMatch ms)
    {catalog : Option Catalog} (hfree : ∀ c ∈ catalog, c.nodeSchema? (.text label) = .ok none) :
    (mergeNode (.text label) found onCreate onMatch catalog).Merges label fs cs ms := by
  rw [mergeNode_of_propsOf hfound.propsOf_eq hcreate.propsOf_eq hmatch.propsOf_eq,
    checked_of_none hfree]
  exact merges_mergeClauses hlabel fs cs ms []

theorem relates_relate (htype : type ≠ "") {start finish : Value}
    (hstart : Registry.isUnset start = false) (hfinish : Registry.isUnset finish = false)
    {ps : List Property} {props : Value} (hprops : Property.GivenBy props ps)
    {catalog : Option Catalog} (hfree : ∀ c ∈ catalog, c.relSchema? (.text type) = .ok none) :
    (relate start (.text type) finish props catalog).Relates type start finish ps := by
  obtain ⟨bs, hbs, hbind, hused⟩ :=
    NamePool.exists_bind isWord_props ps ⟨["__start_id", "__end_id"]⟩ (by decide)
  have hnodup : ("__start_id" :: "__end_id" :: bs.map Binding.name).Nodup :=
    ((List.reverse_perm (bs.map Binding.name)).append_right _ |>.trans
      List.perm_append_comm).nodup hused
  refine ⟨⟨relateText type bs, relateRows start finish bs, .write⟩, bs, ?_, hbs, rfl, rfl, ?_, ?_⟩
  · rw [relate, hprops.propsOf_eq]
    simp only [checked_of_none hfree, relateClauses, hbind]
    exact compile_relate htype hstart hfinish hnodup
  · rw [relateRows, List.map_cons, List.map_cons, List.map_map]
    rfl
  · rwa [texts_relateRows]

/-- Where no schema stands in the way, creating, merging and relating succeed.  In the text, the mention
of a parameter stands at every key of every section, and the table holds under its name the value given
for that key in that section, and nothing else but the ids. -/
theorem helpers_bind (hlabel : label ≠ "") (htype : type ≠ "") {start finish : Value}
    (hstart : Registry.isUnset start = false) (hfinish : Registry.isUnset finish = false)
    {ps fs cs ms : List Property} {props found onCreate onMatch : Value}
    (hprops : Property.GivenBy props ps) (hfound : Property.GivenBy found fs)
    (hcreate : Property.GivenBy onCreate cs) (hmatch : Property.GivenBy onMatch ms)
    {catalog : Option Catalog} (hnode : ∀ c ∈ catalog, c.nodeSchema? (.text label) = .ok none)
    (hrel : ∀ c ∈ catalog, c.relSchema? (.text type) = .ok none) :
    (createNode (.text label) props catalog).Creates label ps ∧
    (mergeNode (.text label) found onCreate onMatch catalog).Merges label fs cs ms ∧
    (relate start (.text type) finish props catalog).Relates type start finish ps :=
  ⟨creates_createNode hlabel hprops hnode, merges_mergeNode hlabel hfound hcreate hmatch hnode,
    relates_relate htype hstart hfinish hprops hrel⟩

/-- Keys that are no identifiers, or that look like the names that are made up for such keys. -/
def lookalikes : List Property :=
  [⟨"a b", .int 1, by decide, by decide, rfl⟩, ⟨"props_p0", .int 2, by decide, by decide, rfl⟩,
    ⟨"x", .null, by decide, by decide, rfl⟩, ⟨"on_match_x", .int 4, by decide, by decide, rfl⟩,
    ⟨"__start_id", .int 5, by decide, by decide, rfl⟩]

/-- The same keys in every section, a label that is no identifier, and a catalog without schemas. -/
theorem helpers_bind_lookalikes :
    let props := Value.map (lookalikes.map Property.entry)
    (createNode (.text "a b") props (some .empty)).Creates "a b" lookalikes ∧
    (mergeNode (.text "a b") props props props (some .empty)).Merges "a b" lookalikes lookalikes
      lookalikes ∧
    (relate (.text "4:x:0") (.text "T") (.text "4:x:1") props (some .empty)).Relates "T"
      (.text "4:x:0") (.text "4:x:1") lookalikes :=
  helpers_bind (by decide) (by decide) rfl rfl (.inl rfl) (.inl rfl) (.inl rfl) (.inl rfl)
    (by rintro c ⟨⟩; rfl) (by rintro c ⟨⟩; rfl)

end Mutation

end CypherCompose
