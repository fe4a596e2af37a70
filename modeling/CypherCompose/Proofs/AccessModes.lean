import CypherCompose.Proofs.Acceptance
import CypherCompose.Proofs.Quoting

/-!
# Access modes are exact

A statement is marked as writing if and only if some clause of its query, at whatever depth, changes
the database.  The search for such a clause opens the bodies of subqueries, but takes a FOREACH for a
change without a look at its body.  That is right for valid clauses only: the body of a FOREACH is
not empty and holds nothing but changes and further FOREACHs, so by induction there is a change in it
(`exists_writes_inside`).
-/

namespace CypherCompose

namespace Query

/-- The kinds of clauses that change the database themselves. -/
def mutationKinds : List String :=
  ["Create", "Merge", "Set", "Assign", "Remove", "Delete", "DetachDelete"] ++ onMergeKinds
    ++ definitionKinds

/-- Whether a clause changes the database itself. -/
def writes (c : Value) : Bool :=
  mutationKinds.contains c.typeName

variable {c v body : Value} {cs : List Value}

/-! ## One clause -/

theorem writes_of_isForEachBody (h : c.isForEachBody = true) :
    writes c = true ∨ ∃ body, c.nested? = some (.forEach, body) := by
  unfold Value.isForEachBody at h
  split at h
  · exact .inl rfl
  · rename_i f
    unfold ClauseForm.isForEachBody at h
    split at h
    case h_6 source binding body => exact .inr ⟨body, rfl⟩
    case h_7 => cases h
    case h_4 detach items => cases detach <;> exact .inl rfl
    all_goals exact .inl rfl
  · cases h

theorem mutates_of_none (h : v.nested? = none) : mutates v = .ok (writes v) := by
  cases v with
  | assign target value =>
    rw [mutates]
    rfl
  | clause f =>
    cases f with
    | subquery body => cases h
    | forEach source binding body => cases h
    | matching optional patterns => cases optional <;> rfl
    | onMerge event assignments => cases event <;> rfl
    | delete detach items => cases detach <;> rfl
    | union all => cases all <;> rfl
    | loadCsv headers source name terminator => cases headers <;> rfl
    | _ => rfl
  | atom a => cases a <;> rfl
  | _ => rfl

theorem mutates_of_subquery (h : v.nested? = some (.subquery, body)) (hcs : body.listed? = some cs) :
    mutates v = anyMutates cs ∧ writes v = false := by
  unfold Value.nested? at h
  split at h <;> cases h
  refine ⟨?_, rfl⟩
  rw [mutates]
  unfold Value.listed? at hcs
  split at hcs <;> cases hcs <;> rw [bodyMutates]

theorem mutates_of_forEach (h : v.nested? = some (.forEach, body)) : mutates v = .ok true := by
  unfold Value.nested? at h
  split at h <;> cases h
  rfl

theorem eq_subquery_of_nested? {scope : Scope} (h : v.nested? = some (scope, body))
    (hscope : scope ≠ .forEach) : scope = .subquery := by
  unfold Value.nested? at h
  split at h <;> cases h
  · rfl
  · exact absurd rfl hscope

/-! ## Clauses at every depth -/

/-- A FOREACH that fits has a change in it. -/
theorem exists_writes_inside (v : Value) (hv : v.nested? = some (.forEach, body))
    (hfits : BodyFits v) (hinside : ∀ c ∈ v.inside, BodyFits c) : v.inside.any writes = true := by
  induction v using Value.induct_nested generalizing body with
  | step v ih =>
    obtain ⟨cs, hcs, hne, hkinds⟩ := hfits .forEach body hv
    rw [Value.inside_of_nested? hv, Value.insideBody_of_listed? hcs] at hinside ⊢
    obtain ⟨c, cs, rfl⟩ := List.exists_cons_of_ne_nil hne
    have hc := mem_forEachKinds.1 (hkinds c List.mem_cons_self)
    rw [Value.everyClause]
    obtain hwrites | ⟨body', hbody'⟩ := writes_of_isForEachBody hc
    · rw [List.any_cons, hwrites, Bool.true_or]
    · -- a FOREACH in the FOREACH, which fits too
      obtain ⟨hfits', hinside'⟩ := forall_mem_everyClause.1 hinside c List.mem_cons_self
      have hchange := ih .forEach body (c :: cs) hv hcs c List.mem_cons_self hbody' hfits' hinside'
      rw [List.any_cons, List.any_append, hchange, Bool.true_or, Bool.or_true]

theorem anyMutates_of_forall (h : ∀ c ∈ cs, mutates c = .ok (writes c || c.inside.any writes)) :
    anyMutates cs = .ok ((Value.everyClause cs).any writes) := by
  induction cs with
  | nil => rw [anyMutates, Value.everyClause, List.any_nil]
  | cons c cs ih =>
    rw [List.forall_mem_cons] at h
    rw [anyMutates, Value.everyClause, h.1, ih h.2, List.any_cons, List.any_append, ← Bool.or_assoc]
    cases writes c || c.inside.any writes <;> rfl

/-- The search for a change finds one in valid clauses if there is any. -/
theorem mutates_eq (v : Value) (hfits : BodyFits v) (hinside : ∀ c ∈ v.inside, BodyFits c) :
    mutates v = .ok (writes v || v.inside.any writes) := by
  induction v using Value.induct_nested with
  | step v ih =>
    cases hv : v.nested? with
    | none => rw [mutates_of_none hv, Value.inside_eq_nil hv, List.any_nil, Bool.or_false]
    | some nested =>
      obtain ⟨scope, body⟩ := nested
      obtain ⟨cs, hcs, -⟩ := hfits scope body hv
      by_cases hscope : scope = .forEach
      · subst hscope
        rw [mutates_of_forEach hv, exists_writes_inside v hv hfits hinside, Bool.or_true]
      · have hv' := hv
        rw [eq_subquery_of_nested? hv hscope] at hv'
        obtain ⟨hmutates, hwrites⟩ := mutates_of_subquery hv' hcs
        rw [Value.inside_of_nested? hv, Value.insideBody_of_listed? hcs] at hinside ⊢
        rw [hmutates, hwrites, Bool.false_or]
        apply anyMutates_of_forall
        intro c hc
        obtain ⟨hfits', hinside'⟩ := forall_mem_everyClause.1 hinside c hc
        exact ih scope body cs hv hcs c hc hfits' hinside'

theorem anyMutates_eq (h : ∀ c ∈ Value.everyClause cs, BodyFits c) :
    anyMutates cs = .ok ((Value.everyClause cs).any writes) := by
  apply anyMutates_of_forall
  intro c hc
  obtain ⟨hfits, hinside⟩ := forall_mem_everyClause.1 h c hc
  exact mutates_eq c hfits hinside

/-- The mode that clauses need. -/
def modeOf (cs : List Value) : AccessMode :=
  if (Value.everyClause cs).any writes then .write else .read

theorem inferMode_eq (h : ∀ c ∈ Value.everyClause cs, BodyFits c) :
    inferMode (.list cs) .null = .ok (modeOf cs) := by
  show Except.map _ (anyMutates cs) = _
  rw [anyMutates_eq h]
  rfl

end Query

namespace Statement

variable {query parameters : Value} {s : Statement}

/-- Without an override, a statement writes if and only if its query has a clause that changes the
database, at whatever depth. -/
theorem mode_compile_iff (h : compile query parameters .null = .ok s) :
    ∃ clauses, Query.clausesOf query = .ok clauses ∧
      (s.mode = .write ↔
        ∃ c ∈ Value.everyClause clauses, c.typeName ∈ Query.mutationKinds) ∧
      (s.mode = .read ↔
        ¬ ∃ c ∈ Value.everyClause clauses, c.typeName ∈ Query.mutationKinds) := by
  obtain ⟨clauses, -, -, -, hclauses, hcheck, -, -, -, hmode, -⟩ := compile_eq_ok.1 h
  refine ⟨clauses, hclauses, ?_⟩
  have hvalid := Query.checkClauses_eq_ok.1 hcheck
  have hchange : (Value.everyClause clauses).any Query.writes = true ↔
      ∃ c ∈ Value.everyClause clauses, c.typeName ∈ Query.mutationKinds := by
    simp [Query.writes]
  rw [Query.inferMode_eq hvalid.bodies] at hmode
  rw [← hchange, ← Except.ok.inj hmode, Query.modeOf]
  by_cases hany : (Value.everyClause clauses).any Query.writes = true
  · simp [hany]
  · simp [hany]

/-- A query whose only change stands in a FOREACH in a FOREACH in a subquery. -/
def buriedChange : List Value := [
  .clause (.matching false (.text "n")),
  .clause (.subquery (.list [
    .clause (.forEach (.var (.text "xs")) (.text "x") (.tuple [
      .clause (.forEach (.var (.text "x")) (.text "y") (.list [.clause (.create (.text "m"))]))]))])),
  .clause (.returning (.text "n") (.bool false))]

theorem mode_compile_iff_buriedChange :
    ∃ s, compile (.list buriedChange) .null .null = .ok s ∧ s.mode = .write ∧
      ∃ c ∈ Value.everyClause buriedChange, c.typeName ∈ Query.mutationKinds := by
  have hcompiles : (compile (.list buriedChange) .null .null).toOption.isSome = true := by
    decide +kernel
  have hchange : ∃ c ∈ Value.everyClause buriedChange, c.typeName ∈ Query.mutationKinds := by
    refine ⟨.clause (.create (.text "m")), ?_, by decide⟩
    simp [buriedChange, Value.everyClause, Value.inside, Value.insideBody]
  obtain ⟨s, hs⟩ := Option.isSome_iff_exists.1 hcompiles
  have hs := eq_ok_of_toOption hs
  obtain ⟨clauses, hclauses, hwrite, -⟩ := mode_compile_iff hs
  obtain rfl : buriedChange = clauses := Except.ok.inj hclauses
  exact ⟨s, hs, hwrite.2 hchange, hchange⟩

end Statement

end CypherCompose
