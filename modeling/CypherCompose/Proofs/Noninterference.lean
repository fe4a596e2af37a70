import CypherCompose.Proofs.Composition
import CypherCompose.Proofs.Redaction

/-!
# Parameter data stays out of statements

What a statement says, which parameters it has and how it uses the database do not depend on the
values of its parameters: neither on those that the query carries nor on the caller's.

The clauses of a redacted query are read as those of the query (`Draft.RedactsTo.clauses`), so two
queries with one redaction have one text.  They ask for the same names, and a table that grants all
requests lists the names in the order in which they were asked for (`Registry.names_enterAll`).
Redaction keeps the kinds of clauses, and with them the mode (`Query.modeOf_redact`).
-/

namespace CypherCompose

/-! ## Spellings of constraints -/

namespace Lowercase

theorem mem_chars {c : Char} (hsmall : ofChar c = c) (hdotted : (c == 'İ') = false)
    (hsigma : (c == 'Σ') = false) {cs : List Char} (h : c ∈ cs) (before : List Char) :
    c ∈ chars before cs := by
  induction cs generalizing before with
  | nil => cases h
  | cons d cs ih =>
    rw [chars, List.mem_append]
    rcases List.mem_cons.1 h with rfl | h
    · left
      simp [hdotted, hsigma, hsmall]
    · exact .inr (ih h (d :: before))

end Lowercase

namespace Value

/-- A value with parts is shown with brackets. -/
theorem exists_bracket_inspect {v : Value} (h : ∀ a, v ≠ atom a) :
    ∃ c ∈ ['(', '[', '\x7b'], c ∈ v.outline.inspect.toList := by
  cases v with
  | atom a => exact absurd rfl (h a)
  | list xs => exact ⟨'[', by decide, by simp [outline, Outline.inspect]⟩
  | tuple xs =>
    refine ⟨'(', by decide, ?_⟩
    simp only [outline, Outline.inspect]
    split <;> simp
  | map es => exact ⟨'\x7b', by decide, by simp [outline, Outline.inspect]⟩
  | _ => exact ⟨'(', by decide, by simp [outline, Outline.inspect]⟩

theorem inspect_of_display? {v : Value} (h : ∀ a, v ≠ atom a) {s : String}
    (hs : v.display? = some s) : v.outline.inspect = s := by
  cases v with
  | atom a => exact absurd rfl (h a)
  | _ => exact (Option.ite_none_right_eq_some.1 hs).2 |> Option.some.inj

theorem mem_lowercase_of_bracket {c : Char} (hc : c ∈ ['(', '[', '\x7b']) {s : String}
    (h : c ∈ s.toList) : c ∈ (lowercase s).toList := by
  rw [lowercase, String.toList_ofList]
  simp only [List.mem_cons, List.not_mem_nil, or_false] at hc
  rcases hc with rfl | rfl | rfl
  all_goals exact Lowercase.mem_chars (by decide +kernel) (by decide) (by decide) h []

theorem bracket_not_mem_spellings {c : Char} (hc : c ∈ ['(', '[', '\x7b']) :
    ∀ p ∈ Constraint.spellings, c ∉ p.1.toList := by
  simp only [List.mem_cons, List.not_mem_nil, or_false] at hc
  rcases hc with rfl | rfl | rfl
  all_goals decide

/-- Only a value without parts names a constraint. -/
theorem redact_of_constraint {v : Value} {k : Constraint} (h : Constraint.ofValue? v = some k) :
    v.redact = v := by
  by_cases hv : ∃ a, v = atom a
  · obtain ⟨a, rfl⟩ := hv
    exact redact_atom a
  have hparts : ∀ a, v ≠ atom a := fun a ha => hv ⟨a, ha⟩
  obtain ⟨c, hc, hmem⟩ := exists_bracket_inspect hparts
  rw [Constraint.ofValue?, Option.bind_eq_some_iff] at h
  obtain ⟨s, hs, hlookup⟩ := h
  rw [inspect_of_display? hparts hs] at hmem
  obtain ⟨l, l', hl, -⟩ := List.lookup_eq_some_iff.1 hlookup
  have hspelling : (lowercase s, k) ∈ Constraint.spellings := by simp [hl]
  have hfree := bracket_not_mem_spellings hc (lowercase s, k) hspelling
  exact absurd (mem_lowercase_of_bracket hc hmem) hfree

@[simp] theorem sortOrder_redact (v : Value) : SortOrder.ofValue? v.redact = SortOrder.ofValue? v := by
  rw [SortOrder.ofValue?, text?_redact, SortOrder.ofValue?]

end Value

/-! ## Clauses -/

namespace Draft.RedactsTo

variable {α β : Type}

theorem readAlias (c c' v : Value) : RedactsTo (readAlias c v) (readAlias c' v.redact) :=
  ofOption (Value.name_redact v)

theorem readOptionalAlias (c c' v : Value) :
    RedactsTo (readOptionalAlias c v) (readOptionalAlias c' v.redact) := by
  unfold CypherCompose.readOptionalAlias
  rw [Value.isNull_redact]
  exact ite (done none) (map (readAlias c c' v) some)

theorem readOperand (v : Value) : RedactsTo (readOperand v) (readOperand v.redact) := by
  unfold CypherCompose.readOperand
  rw [Value.isText_redact]
  exact ite (readVar v) v.redacted.expr

theorem readItems_bind {e e' : ClauseError} {items : Value} {k k' : List Value → Draft β}
    (h : RedactsTo (k items.asList) (k' (items.asList.map Value.redact))) :
    RedactsTo (readItems e items >>= k) (readItems e' items.redact >>= k') := by
  unfold readItems
  rw [Value.asList_redact, List.isEmpty_map]
  by_cases hempty : items.asList.isEmpty = true
  · rw [if_pos hempty, if_pos hempty]
    exact fail _
  · rw [if_neg hempty, if_neg hempty]
    exact h

theorem readEachWith {read read' : Value → Draft α}
    (h : ∀ v, RedactsTo (read v) (read' v.redact)) (vs : List Value) :
    RedactsTo (readEachWith read vs) (readEachWith read' (vs.map Value.redact)) := by
  induction vs with
  | nil => exact done []
  | cons v vs ih => exact bind (h v) fun a => bind ih fun as => pure _

theorem readEachPattern (vs : List Value) :
    RedactsTo (readEachPattern vs) (readEachPattern (vs.map Value.redact)) := by
  induction vs with
  | nil => exact done []
  | cons v vs ih => exact bind v.redacted.paths fun ps => bind ih fun qs => pure _

theorem readClausePatterns (c c' patterns : Value) :
    RedactsTo (readClausePatterns c patterns) (readClausePatterns c' patterns.redact) :=
  readItems_bind (readEachPattern _)

theorem readMergePattern (c c' pattern : Value) :
    RedactsTo (readMergePattern c pattern) (readMergePattern c' pattern.redact) := by
  unfold CypherCompose.readMergePattern
  rw [Value.asList_redact]
  rcases pattern.asList with _ | ⟨v, _ | ⟨w, vs⟩⟩
  · exact fail _
  · exact v.redacted.paths
  · exact fail _

theorem readProjection (c c' v : Value) :
    RedactsTo (readProjection c v) (readProjection c' v.redact) := by
  cases v with
  | aliased expr name => exact bind (readOperand expr) fun e => bind (readAlias c c' name) fun n => pure _
  | _ => exact bind (readOperand _) fun e => pure _

theorem readAssign (target value : Value) :
    RedactsTo (readAssign target value) (readAssign target.redact value.redact) := by
  have hsides : RedactsTo (do
      let t ← Expr.ofValue target
      let v ← Expr.ofValue value
      Pure.pure (⟨t, v⟩ : Assignment)) (do
      let t ← Expr.ofValue target.redact
      let v ← Expr.ofValue value.redact
      Pure.pure ⟨t, v⟩) :=
    bind target.redacted.expr fun t => bind value.redacted.expr fun v => pure _
  cases target with
  | property owner key => exact hsides
  | var name => exact hsides
  | _ => exact fail _

theorem readSetItem (c c' v : Value) : RedactsTo (readSetItem c v) (readSetItem c' v.redact) := by
  cases v with
  | assign target value => exact readAssign target value
  | tuple xs =>
    rcases xs with _ | ⟨a, _ | ⟨b, _ | ⟨d, xs⟩⟩⟩
    case cons.cons.nil => exact readAssign a b
    all_goals exact fail _
  | _ => exact fail _

theorem readAssignments (c c' assignments : Value) :
    RedactsTo (readAssignments c assignments) (readAssignments c' assignments.redact) :=
  readItems_bind (readEachWith (readSetItem c c') _)

theorem readCount (c c' v : Value) : RedactsTo (readCount c v) (readCount c' v.redact) := by
  cases v with
  | atom a =>
    cases a with
    | int n => exact ite (fail _) (bind (integer n) fun n => pure _)
    | _ => exact fail _
  | param name value => exact bind (parameter name value) fun p => pure _
  | _ => exact fail _

theorem readSource (c c' v : Value) : RedactsTo (readSource c v) (readSource c' v.redact) := by
  cases v with
  | atom a =>
    cases a with
    | text s => exact done _
    | direction d => exact done _
    | mode m => exact done _
    | _ => exact fail _
  | param name value => exact bind (parameter name value) fun p => pure _
  | _ => exact fail _

theorem readTerminator (c c' v : Value) :
    RedactsTo (readTerminator c v) (readTerminator c' v.redact) := by
  unfold CypherCompose.readTerminator
  rw [Value.isNull_redact, Value.text?_redact]
  refine ite (done none) ?_
  cases v.text? with
  | none => exact fail _
  | some s => exact ite (done _) (fail _)

theorem readTrueName (v : Value) : RedactsTo (readTrueName v) (readTrueName v.redact) :=
  ofOption (Value.name_redact v)

theorem readRemoval (c c' v : Value) : RedactsTo (readRemoval c v) (readRemoval c' v.redact) := by
  cases v with
  | property owner key => exact bind (readProperty owner key) fun e => pure _
  | nodeRef name label props =>
    refine bind (ofMisuse (Value.truth_redact name)) fun b => ite ?_ (fail _)
    refine bind (ofMisuse (Value.truth_redact label)) fun b' => ite ?_ (fail _)
    exact bind (readTrueName name) fun n => bind (readTrueName label) fun l => pure _
  | _ => exact fail _

theorem readPropertyNames (c c' properties : Value) :
    RedactsTo (readPropertyNames c properties) (readPropertyNames c' properties.redact) :=
  readItems_bind (readEachWith (fun v => ofOption (Value.name_redact v)) _)

/-- What follows a key that is no order item: its marker, or the next key. -/
theorem sortKeysAfter {c c' w : Value} {i : Nat} {vs : List Value}
    (hmarked : RedactsTo (CypherCompose.readSortKeys c (i + 2) vs)
      (CypherCompose.readSortKeys c' (i + 2) (vs.map Value.redact)))
    (hnext : RedactsTo (CypherCompose.readSortKeys c (i + 1) (w :: vs))
      (CypherCompose.readSortKeys c' (i + 1) ((w :: vs).map Value.redact))) (e : Expr) :
    RedactsTo
      (match SortOrder.ofValue? w with
        | some o => do
            let keys ← CypherCompose.readSortKeys c (i + 2) vs
            Pure.pure (⟨e, some o⟩ :: keys)
        | none => do
            let keys ← CypherCompose.readSortKeys c (i + 1) (w :: vs)
            Pure.pure (⟨e, none⟩ :: keys))
      (match SortOrder.ofValue? w.redact with
        | some o => do
            let keys ← CypherCompose.readSortKeys c' (i + 2) (vs.map Value.redact)
            Pure.pure (⟨e, some o⟩ :: keys)
        | none => do
            let keys ← CypherCompose.readSortKeys c' (i + 1) ((w :: vs).map Value.redact)
            Pure.pure (⟨e, none⟩ :: keys)) := by
  rw [Value.sortOrder_redact]
  cases SortOrder.ofValue? w with
  | none => exact bind hnext fun keys => pure _
  | some o => exact bind hmarked fun keys => pure _

theorem readSortKeys (c c' : Value) : ∀ (i : Nat) (vs : List Value),
    RedactsTo (readSortKeys c i vs) (readSortKeys c' i (vs.map Value.redact))
  | _, [] => done []
  | i, [v] => by
    cases v with
    | orderItem expr direction =>
      refine ite (fail _) (bind (ofOption (Value.sortOrder_redact direction)) fun o => ?_)
      exact bind (readOperand expr) fun e => bind (readSortKeys c c' (i + 1) []) fun keys => pure _
    | _ => exact ite (fail _) (bind (readOperand _) fun e => pure _)
  | i, v :: w :: vs => by
    have hmarked := readSortKeys c c' (i + 2) vs
    have hnext := readSortKeys c c' (i + 1) (w :: vs)
    cases v with
    | orderItem expr direction =>
      refine ite (fail _) (bind (ofOption (Value.sortOrder_redact direction)) fun o => ?_)
      exact bind (readOperand expr) fun e => bind hnext fun keys => pure _
    | _ => exact ite (fail _) (bind (readOperand _) (sortKeysAfter hmarked hnext))

theorem readPlain (i : Nat) (f : ClauseForm Value) :
    RedactsTo (readPlain i (.clause f)) (readPlain i (Value.clause f).redact) := by
  cases f with
  | matching optional patterns => exact bind (readClausePatterns _ _ patterns) fun ps => pure _
  | filter conditions =>
    refine readItems_bind (bind (readEachWith (fun v => v.redacted.expr) _) fun es => ?_)
    cases es with
    | nil => exact fail _
    | cons e es => exact pure _
  | returning items distinct =>
    have hitems := readEachWith (readProjection (.clause (.returning items distinct))
      (.clause (.returning items.redact distinct.redact))) items.asList
    rw [← Value.asList_redact] at hitems
    exact bind hitems fun ps => bind (ofMisuse (Value.truth_redact distinct)) fun d => pure _
  | passing items distinct =>
    refine readItems_bind (bind (ofMisuse (Value.truth_redact distinct)) fun d => ?_)
    exact bind (readEachWith (readProjection _ _) _) fun ps => pure _
  | unwind source name =>
    exact bind source.redacted.expr fun e => bind (readAlias _ _ name) fun n => pure _
  | create patterns => exact bind (readClausePatterns _ _ patterns) fun ps => pure _
  | merge pattern => exact bind (readMergePattern _ _ pattern) fun ps => pure _
  | onMerge event assignments => exact bind (readAssignments _ _ assignments) fun as => pure _
  | remove items => exact readItems_bind (bind (readEachWith (readRemoval _ _) _) fun rs => pure _)
  | delete detach items => exact readItems_bind (bind (readEachWith readOperand _) fun es => pure _)
  | orderBy items => exact readItems_bind (bind (readSortKeys _ _ 0 _) fun keys => pure _)
  | skip count => exact bind (readCount _ _ count) fun n => pure _
  | limit count => exact bind (readCount _ _ count) fun n => pure _
  | union all => exact pure _
  | loadCsv headers source name terminator =>
    refine bind (readSource _ _ source) fun s => bind (readAlias _ _ name) fun n => ?_
    exact bind (readTerminator _ _ terminator) fun t => pure _
  | createIndex label properties name ifNotExists =>
    refine bind (readAlias _ _ label) fun l => bind (readPropertyNames _ _ properties) fun ks => ?_
    refine bind (readOptionalAlias _ _ name) fun n => ?_
    exact bind (ofMisuse (Value.truth_redact ifNotExists)) fun guard => pure _
  | dropIndex name => exact bind (readAlias _ _ name) fun n => pure _
  | createConstraint label properties constraint name ifNotExists =>
    refine ofOption_bind fun kind hkind =>
      ⟨kind, by rw [Value.redact_of_constraint hkind]; exact hkind, ?_⟩
    refine bind (readAlias _ _ label) fun l => bind (readPropertyNames _ _ properties) fun ks => ?_
    refine bind (readOptionalAlias _ _ name) fun n => ?_
    exact bind (ofMisuse (Value.truth_redact ifNotExists)) fun guard => ite (fail _) (pure _)
  | dropConstraint name => exact bind (readAlias _ _ name) fun n => pure _
  | _ => exact fail _

mutual

theorem clause (i : Nat) (v : Value) : RedactsTo (readClause i v) (readClause i v.redact) := by
  cases v with
  | assign target value => exact bind (readAssign target value) fun a => pure _
  | clause f =>
    cases f with
    | set assignments => exact bind (readAssignments _ _ assignments) fun as => pure _
    | subquery b => exact bind (body _ _ b) fun cs => pure _
    | forEach source binding b =>
      refine bind source.redacted.expr fun e => bind (body _ _ b) fun cs => ?_
      exact bind (readAlias _ _ binding) fun n => pure _
    | _ => exact bind (readPlain i _) fun c => pure _
  | _ => exact bind (fail _) fun c => pure _

theorem body (owner owner' v : Value) : RedactsTo (readBody owner v) (readBody owner' v.redact) := by
  cases v with
  | list xs => exact bind (each 0 xs) fun rs => pure _
  | tuple xs => exact bind (each 0 xs) fun rs => pure _
  | builder _ xs => exact bind (each 0 xs) fun rs => pure _
  | _ => exact fail _

theorem each : ∀ (i : Nat) (vs : List Value),
    RedactsTo (readEachClause i vs) (readEachClause i (Value.redactAll vs))
  | _, [] => done []
  | i, v :: vs => bind (clause i v) fun _ => bind (each (i + 1) vs) fun _ => pure _

end

theorem clauses (vs : List Value) :
    RedactsTo (readClauses vs) (readClauses (vs.map Value.redact)) := by
  rw [← Value.redactAll_eq_map]
  exact bind (each 0 vs) fun rs => pure _

end Draft.RedactsTo

/-! ## Names and modes -/

namespace Registry

/-- Tables that grant requests for the same names list the same names. -/
theorem names_enterAll {r r' r₁ r₁' : Registry} {qs qs' : List Request}
    (hnames : qs.map Request.name = qs'.map Request.name) (h : r.names = r'.names)
    (hr : r.enterAll qs = (r₁, none)) (hr' : r'.enterAll qs' = (r₁', none)) :
    r₁.names = r₁'.names := by
  induction qs generalizing r r' qs' with
  | nil =>
    obtain rfl : qs' = [] := List.map_eq_nil_iff.1 hnames.symm
    cases hr
    cases hr'
    exact h
  | cons q qs ih =>
    cases qs' with
    | nil => cases hnames
    | cons q' qs' =>
      rw [List.map_cons, List.map_cons, List.cons.injEq] at hnames
      obtain ⟨r₂, hq, hrest⟩ := enterAll_cons_eq hr
      obtain ⟨r₂', hq', hrest'⟩ := enterAll_cons_eq hr'
      obtain ⟨n, -, hn, -⟩ := register_eq_ok hq
      have hn' : ParamName.ofValue? q'.name = some n := by rw [← hnames.1, hn]
      refine ih hnames.2 ?_ hrest hrest'
      rw [names_register hn hq, names_register hn' hq', h]

end Registry

namespace Query

theorem typeName_redact (v : Value) : v.redact.typeName = v.typeName := by
  cases v with
  | clause f =>
    cases f with
    | matching optional _ => cases optional <;> rfl
    | onMerge event _ => cases event <;> rfl
    | delete detach _ => cases detach <;> rfl
    | union all => cases all <;> rfl
    | loadCsv headers _ _ _ => cases headers <;> rfl
    | _ => rfl
  | _ => rfl

mutual

theorem inside_redact (v : Value) : v.redact.inside = v.inside.map Value.redact := by
  cases v with
  | clause f =>
    cases f with
    | subquery b => exact insideBody_redact b
    | forEach source binding b => exact insideBody_redact b
    | _ => rfl
  | _ => rfl

theorem insideBody_redact (v : Value) : v.redact.insideBody = v.insideBody.map Value.redact := by
  cases v with
  | list xs => exact everyClause_redactAll xs
  | tuple xs => exact everyClause_redactAll xs
  | builder _ xs => exact everyClause_redactAll xs
  | _ => rfl

theorem everyClause_redactAll : ∀ cs : List Value,
    Value.everyClause (Value.redactAll cs) = (Value.everyClause cs).map Value.redact
  | [] => rfl
  | c :: cs => by
    rw [Value.redactAll, Value.everyClause, Value.everyClause, List.map_cons, List.map_append,
      inside_redact c, everyClause_redactAll cs]

end

theorem modeOf_redact (cs : List Value) : modeOf (cs.map Value.redact) = modeOf cs := by
  have hwrites : writes ∘ Value.redact = writes := by
    funext v
    rw [Function.comp_apply, writes, typeName_redact, writes]
  rw [modeOf, ← Value.redactAll_eq_map, everyClause_redactAll, List.any_map, hwrites, modeOf]

theorem clausesOf_redact {query : Value} {cs : List Value} (h : clausesOf query = .ok cs) :
    clausesOf query.redact = .ok (cs.map Value.redact) := by
  cases query with
  | comprehension projection binding label filter =>
    simp only [Value.redact, clausesOf, desugar, isNamed, Value.text?_redact,
      Value.isNull_redact] at h ⊢
    split_ifs at h ⊢ with hbinding hlabel hprojection hfilter
    · cases h
      rfl
    · cases h
      rfl
  | list xs =>
    cases h
    simp [Value.redact, clausesOf]
  | tuple xs =>
    cases h
    simp [Value.redact, clausesOf]
  | builder cell xs =>
    cases h
    simp [Value.redact, clausesOf]
  | clause f =>
    cases h
    rfl
  | assign target value =>
    cases h
    rfl
  | _ => cases h

end Query

/-! ## Statements -/

namespace Statement

variable {query query' parameters parameters' override : Value} {s s' : Statement}

/-- What a statement says is what the redacted clauses say, and its names are those they ask for. -/
theorem exists_redacted (h : compile query parameters override = .ok s) :
    ∃ clauses rs cs r, Query.clausesOf query.redact = .ok clauses ∧
      readClauses clauses = ⟨rs.map Request.redact, .ok cs⟩ ∧
      s.text = Token.spell (Clause.renderAll cs) ∧ Registry.empty.enterAll rs = (r, none) ∧
      s.names = r.names ∧
      (if override.isNull then .ok (Query.modeOf clauses) else Query.accessModeOf override) =
        .ok s.mode := by
  obtain ⟨clauses, rs, cs, r, hclauses, hcheck, hread, henter, htable, hmode, htext⟩ :=
    compile_eq_ok.1 h
  refine ⟨clauses.map Value.redact, rs, cs, r, Query.clausesOf_redact hclauses,
    Draft.RedactsTo.clauses clauses rs cs hread, htext, henter, names_of_finalize htable, ?_⟩
  by_cases hnull : override.isNull = true
  · rw [if_pos hnull, Query.modeOf_redact]
    rw [Value.eq_null_of_isNull hnull,
      Query.inferMode_eq (Query.checkClauses_eq_ok.1 hcheck).bodies] at hmode
    exact hmode
  · rw [if_neg hnull]
    rw [Query.inferMode, if_neg hnull] at hmode
    exact hmode

/-- Two queries that differ in nothing but the data of their parameters have statements with one text,
with the same names in one order and with one mode, whatever the caller's values are. -/
theorem compile_of_redact_eq (hquery : query.redact = query'.redact)
    (h : compile query parameters override = .ok s)
    (h' : compile query' parameters' override = .ok s') :
    s.text = s'.text ∧ s.names = s'.names ∧ s.mode = s'.mode := by
  obtain ⟨clauses, rs, cs, r, hclauses, hread, htext, henter, hnames, hmode⟩ := exists_redacted h
  obtain ⟨clauses', rs', cs', r', hclauses', hread', htext', henter', hnames', hmode'⟩ :=
    exists_redacted h'
  rw [hquery, hclauses'] at hclauses
  obtain rfl : clauses' = clauses := Except.ok.inj hclauses
  rw [hread'] at hread
  obtain ⟨hrequests, houtcome⟩ := (Draft.mk.injEq _ _ _ _).mp hread
  obtain rfl : cs' = cs := Except.ok.inj houtcome
  have hasked : rs.map Request.name = rs'.map Request.name := by
    have hnames := congrArg (List.map Request.name) hrequests
    rw [List.map_map, List.map_map] at hnames
    exact hnames.symm
  refine ⟨htext.trans htext'.symm, ?_, Except.ok.inj (hmode.symm.trans hmode')⟩
  rw [hnames, hnames']
  exact Registry.names_enterAll hasked rfl henter henter'

/-- A query with parameters in a property map, in a list and in the body of a subquery. -/
def carryingQuery (x y z : Value) : Value :=
  .list [
    .clause (.matching false (.nodeRef (.text "n") (.text "N")
      (.map [(.text "a", .param (.text "x") x)]))),
    .clause (.subquery (.tuple [
      .clause (.create (.nodeRef (.text "m") .null
        (.map [(.text "b", .list [.param (.text "y") y, .param (.text "x") .unset])])))])),
    .clause (.returning (.text "n") (.bool false)),
    .clause (.limit (.param (.text "z") z))]

theorem compile_of_redact_eq_carryingQuery :
    ∃ s s', compile (carryingQuery (.int 1) (.list [.text "RETURN"]) (.int 5)) .null .null = .ok s ∧
      compile (carryingQuery (.text "x") .unset .null) (.map [(.text "y", .bool true)]) .null =
        .ok s' ∧
      s.text = s'.text ∧ s.names = s'.names ∧ s.mode = s'.mode := by
  have hcompiles : (compile (carryingQuery (.int 1) (.list [.text "RETURN"]) (.int 5)) .null
      .null).toOption.isSome = true := by
    decide +kernel
  have hcompiles' : (compile (carryingQuery (.text "x") .unset .null)
      (.map [(.text "y", .bool true)]) .null).toOption.isSome = true := by
    decide +kernel
  obtain ⟨s, hs⟩ := Option.isSome_iff_exists.1 hcompiles
  obtain ⟨s', hs'⟩ := Option.isSome_iff_exists.1 hcompiles'
  have hs := eq_ok_of_toOption hs
  have hs' := eq_ok_of_toOption hs'
  have hquery : (carryingQuery (.int 1) (.list [.text "RETURN"]) (.int 5)).redact =
      (carryingQuery (.text "x") .unset .null).redact := rfl
  exact ⟨s, s', hs, hs', compile_of_redact_eq hquery hs hs'⟩

end Statement

end CypherCompose
