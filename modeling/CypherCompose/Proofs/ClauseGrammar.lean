import CypherCompose.Query.Validation
import Mathlib.Data.List.Basic
import Mathlib.Data.List.TakeWhile

/-!
# The grammar of clause lists

A query is one branch, or several with separators of one kind between them (`IsQuery`); a branch is a
list of clauses that are neither separators nor definitions, in which assignments of a merge stand
behind a MERGE (`IsBranch`).  `HasShape` says which lists may stand in a scope, and `IsValid` asks the
same of every body, at every depth.

The same queries can be told by looking at one clause at a time, with those around it:

* `positionsFit_append_cons`: the rules about positions hold around a separator if and only if they
  hold on both sides of it.
* `runsFollowMerge_iff`: a run of assignments follows a MERGE if each of them follows a MERGE or
  another one.
* `isQuery_iff`: with one kind of separator these rules make up the grammar.
-/

namespace CypherCompose

/-! ## Clauses and their bodies -/

namespace Value

/-- The body of a clause that has one, with the scope in which its clauses stand. -/
def nested? : Value → Option (Scope × Value)
  | clause (.subquery body) => some (.subquery, body)
  | clause (.forEach _ _ body) => some (.forEach, body)
  | _ => none

/-- The clauses that a body lists. -/
def listed? : Value → Option (List Value)
  | list xs => some xs
  | tuple xs => some xs
  | builder _ xs => some xs
  | _ => none

mutual

/-- The clauses inside a clause, at any depth. -/
def inside : Value → List Value
  | clause (.subquery body) => insideBody body
  | clause (.forEach _ _ body) => insideBody body
  | _ => []

/-- The clauses of a body, at any depth. -/
def insideBody : Value → List Value
  | list xs => everyClause xs
  | tuple xs => everyClause xs
  | builder _ xs => everyClause xs
  | _ => []

/-- Clauses, each followed by those inside it. -/
def everyClause : List Value → List Value
  | [] => []
  | c :: cs => c :: (inside c ++ everyClause cs)

end

variable {c d v : Value} {scope : Scope} {body : Value} {cs : List Value}

theorem mem_everyClause : d ∈ everyClause cs ↔ ∃ c ∈ cs, d = c ∨ d ∈ c.inside := by
  induction cs with
  | nil => simp [everyClause]
  | cons c cs ih => simp [everyClause, ih, or_assoc]

theorem sizeOf_lt_of_nested? (h : v.nested? = some (scope, body)) : sizeOf body < sizeOf v := by
  unfold nested? at h
  split at h <;> simp at h
  · obtain ⟨-, rfl⟩ := h
    simp
    omega
  · obtain ⟨-, rfl⟩ := h
    simp
    omega

theorem sizeOf_lt_of_listed? (h : body.listed? = some cs) (hc : c ∈ cs) :
    sizeOf c < sizeOf body := by
  have hlt := List.sizeOf_lt_of_mem hc
  unfold listed? at h
  split at h <;> simp at h
  all_goals
    subst h
    simp
    omega

/-- Induction over clauses and those in their bodies. -/
theorem induct_nested {P : Value → Prop}
    (step : ∀ v : Value, (∀ scope body cs, v.nested? = some (scope, body) →
      body.listed? = some cs → ∀ c ∈ cs, P c) → P v) (v : Value) : P v := by
  induction hn : sizeOf v using Nat.strong_induction_on generalizing v with
  | _ n ih =>
    apply step
    intro scope body cs hbody hcs c hc
    have hlt := sizeOf_lt_of_nested? hbody
    have hlt' := sizeOf_lt_of_listed? hcs hc
    exact ih (sizeOf c) (by omega) c rfl

theorem inside_of_nested? (h : v.nested? = some (scope, body)) : v.inside = body.insideBody := by
  unfold nested? at h
  split at h <;> cases h <;> rw [inside]

theorem inside_eq_nil (h : v.nested? = none) : v.inside = [] := by
  unfold inside
  split
  · cases h
  · cases h
  · rfl

theorem insideBody_of_listed? (h : body.listed? = some cs) : body.insideBody = everyClause cs := by
  unfold listed? at h
  split at h <;> cases h <;> rw [insideBody]

end Value

namespace Query

/-! ## The grammar -/

/-- The kinds of clauses that define or drop an index or a constraint. -/
def definitionKinds : List String :=
  ["CreateIndex", "DropIndex", "CreateConstraint", "DropConstraint"]

/-- The kinds of assignments that belong to a merge. -/
def onMergeKinds : List String :=
  ["OnCreateSet", "OnMatchSet"]

/-- The kinds of clauses that a FOREACH may hold. -/
def forEachKinds : List String :=
  ["Create", "Merge", "Set", "Assign", "Delete", "DetachDelete", "Remove", "Foreach"]

/-- The kinds of clauses that a branch may hold. -/
def branchKinds : List String :=
  ["Match", "OptionalMatch", "Where", "Return", "With", "Unwind", "OrderBy", "Skip", "Limit",
    "LoadCsv", "LoadCsvHeaders", "CallSubquery"] ++ onMergeKinds ++ forEachKinds

/-- Every maximal run of assignments that belong to a merge stands directly behind a MERGE. -/
def RunsFollowMerge (b : List Value) : Prop :=
  ∀ before run after, b = before ++ run ++ after → run ≠ [] →
    (∀ c ∈ run, c.typeName ∈ onMergeKinds) →
    (∀ c ∈ before.getLast?, c.typeName ∉ onMergeKinds) →
    (∀ c ∈ after.head?, c.typeName ∉ onMergeKinds) →
    ∃ c ∈ before.getLast?, c.typeName = "Merge"

/-- A query without separators. -/
structure IsBranch (b : List Value) : Prop where
  nonempty : b ≠ []
  kinds : ∀ c ∈ b, c.typeName ∈ branchKinds
  runs : RunsFollowMerge b

/-- Branches with UNION between them, or with UNION ALL. -/
inductive IsQuery (all : Bool) : List Value → Prop where
  | branch {b : List Value} (hb : IsBranch b) : IsQuery all b
  | union {b q : List Value} (hb : IsBranch b) (hq : IsQuery all q) :
      IsQuery all (b ++ .clause (.union all) :: q)

/-- The lists of clauses that may stand in a scope, bodies apart. -/
def HasShape : Scope → List Value → Prop
  | .statement, cs => (∃ c, cs = [c] ∧ c.typeName ∈ definitionKinds) ∨ ∃ all, IsQuery all cs
  | .forEach, cs => cs ≠ [] ∧ ∀ c ∈ cs, c.typeName ∈ forEachKinds
  | _, cs => ∃ all, IsQuery all cs

/-- The body of a clause, if it has one, lists clauses that may stand in it. -/
def BodyFits (c : Value) : Prop :=
  ∀ scope body, c.nested? = some (scope, body) → ∃ cs, body.listed? = some cs ∧ HasShape scope cs

/-- The lists of clauses that may stand in a scope. -/
structure IsValid (scope : Scope) (cs : List Value) : Prop where
  shape : HasShape scope cs
  bodies : ∀ c ∈ Value.everyClause cs, BodyFits c

/-! ## Kinds -/

section Kinds

variable {c : Value}

/-- The names of the kinds against the tests that validation makes. -/
theorem typeName_mem_kinds (c : Value) :
    (c.typeName ∈ definitionKinds ↔ c.isDefinition = true) ∧
      (c.typeName ∈ onMergeKinds ↔ c.isOnMerge = true) ∧
      (c.typeName ∈ forEachKinds ↔ c.isForEachBody = true) ∧
      (c.typeName ∈ branchKinds ↔
        c.isKnownClause = true ∧ c.isDefinition = false ∧ c.isUnion = false) ∧
      (c.typeName = "Merge" ∨ c.isOnMerge = true ↔ c.admitsOnMerge = true) := by
  cases c with
  | atom a => cases a <;> simp [Value.typeName, Atom.typeName, definitionKinds, onMergeKinds,
      forEachKinds, branchKinds, Value.isDefinition, Value.isOnMerge, Value.isForEachBody,
      Value.isKnownClause, Value.admitsOnMerge]
  | clause f =>
    simp only [Value.typeName, Value.isDefinition, Value.isOnMerge, Value.isForEachBody,
      Value.isKnownClause, Value.isUnion, Value.admitsOnMerge]
    rcases f with ⟨_ | _, _⟩ | _ | _ | _ | _ | _ | _ | _ | ⟨_ | _, _⟩ | _ | ⟨_ | _, _⟩ | _ | _ | _ |
      ⟨_ | _⟩ | _ | ⟨_ | _, _⟩ | _ | _ | _ | _ | _ | _ <;>
      simp [ClauseForm.kindName, definitionKinds, onMergeKinds, forEachKinds, branchKinds,
        ClauseForm.isDefinition, ClauseForm.isOnMerge, ClauseForm.isForEachBody,
        ClauseForm.isKnown, ClauseForm.isUnion, ClauseForm.admitsOnMerge]
  | _ => simp [Value.typeName, definitionKinds, onMergeKinds, forEachKinds, branchKinds,
      Value.isDefinition, Value.isOnMerge, Value.isForEachBody, Value.isKnownClause, Value.isUnion,
      Value.admitsOnMerge]

theorem mem_definitionKinds : c.typeName ∈ definitionKinds ↔ c.isDefinition = true :=
  (typeName_mem_kinds c).1

theorem mem_onMergeKinds : c.typeName ∈ onMergeKinds ↔ c.isOnMerge = true :=
  (typeName_mem_kinds c).2.1

theorem mem_forEachKinds : c.typeName ∈ forEachKinds ↔ c.isForEachBody = true :=
  (typeName_mem_kinds c).2.2.1

theorem mem_branchKinds : c.typeName ∈ branchKinds ↔
    c.isKnownClause = true ∧ c.isDefinition = false ∧ c.isUnion = false :=
  (typeName_mem_kinds c).2.2.2.1

theorem admitsOnMerge_iff : c.admitsOnMerge = true ↔ c.typeName = "Merge" ∨ c.isOnMerge = true :=
  (typeName_mem_kinds c).2.2.2.2.symm

theorem branch_of_isForEachBody (h : c.isForEachBody = true) :
    c.isKnownClause = true ∧ c.isDefinition = false ∧ c.isUnion = false := by
  apply mem_branchKinds.1
  rw [branchKinds, List.mem_append]
  exact .inr (mem_forEachKinds.2 h)

theorem isOnMerge_of_isForEachBody (h : c.isForEachBody = true) : c.isOnMerge = false := by
  rw [← mem_forEachKinds, forEachKinds] at h
  by_contra hm
  rw [Bool.not_eq_false, ← mem_onMergeKinds, onMergeKinds] at hm
  simp only [List.mem_cons, List.not_mem_nil, or_false] at h hm
  rcases hm with hm | hm <;> simp [hm] at h

theorem eq_union_of_isUnion (h : c.isUnion = true) : ∃ all, c = .clause (.union all) := by
  unfold Value.isUnion at h
  split at h
  · unfold ClauseForm.isUnion at h
    split at h
    · exact ⟨_, rfl⟩
    · cases h
  · cases h

theorem kinds_of_isDefinition (h : c.isDefinition = true) :
    c.isKnownClause = true ∧ c.isOnMerge = false ∧ c.isUnion = false := by
  unfold Value.isDefinition at h
  split at h
  · unfold ClauseForm.isDefinition at h
    split at h <;> simp_all [Value.isKnownClause, ClauseForm.isKnown, Value.isOnMerge,
      ClauseForm.isOnMerge, Value.isUnion, ClauseForm.isUnion]
  · cases h

theorem isKnownClause_of_isKindless (h : c.isKindless = true) : c.isKnownClause = false := by
  unfold Value.isKindless at h
  split at h
  · rfl
  · cases h

end Kinds

/-! ## Positions -/

/-- The rules about the clauses around a clause. -/
structure PositionFits (before : List Value) (c : Value) (after : List Value) : Prop where
  onMerge : c.isOnMerge = true → before.getLast?.any Value.admitsOnMerge = true
  union : c.isUnion = true → before ≠ [] ∧ after ≠ [] ∧ before.getLast?.any Value.isUnion = false

/-- A list in which every clause fits between those around it. -/
def PositionsFit (cs : List Value) : Prop :=
  ∀ before c after, cs = before ++ c :: after → PositionFits before c after

theorem append_cons_cases {α : Type} {b q before after : List α} {u c : α}
    (h : b ++ u :: q = before ++ c :: after) :
    (∃ as, b = before ++ c :: as ∧ after = as ++ u :: q) ∨ (before = b ∧ c = u ∧ after = q) ∨
      ∃ as, before = b ++ u :: as ∧ q = as ++ c :: after := by
  rcases List.append_eq_append_iff.1 h with ⟨as, rfl, has⟩ | ⟨as, rfl, has⟩
  · cases as with
    | nil => simp_all
    | cons a as => simp_all
  · cases as with
    | nil => simp_all
    | cons a as => simp_all

theorem getLast?_append_cons {α : Type} {as : List α} (h : as ≠ []) (b : List α) (u : α) :
    (b ++ u :: as).getLast? = as.getLast? := by
  rw [List.getLast?_append_of_ne_nil _ (List.cons_ne_nil u as)]
  cases as with
  | nil => exact absurd rfl h
  | cons a as => rw [List.getLast?_cons_cons]

section Positions

variable {b q cs : List Value} {u : Value}

theorem positionsFit_left (hu : u.isUnion = true) (h : PositionsFit (b ++ u :: q)) :
    PositionsFit b := by
  intro before c after hb
  have hc := h before c (after ++ u :: q) (by simp [hb])
  refine ⟨hc.onMerge, fun hunion => ?_⟩
  obtain ⟨hbefore, -, hlast⟩ := hc.union hunion
  refine ⟨hbefore, ?_, hlast⟩
  -- a separator at the end of the left side would stand right before the one between the two
  rintro rfl
  have hfirst := ((h b u q rfl).union hu).2.2
  simp [hb, hunion] at hfirst

theorem positionsFit_right (hu : u.isUnion = true) (h : PositionsFit (b ++ u :: q)) :
    PositionsFit q := by
  intro before c after hq
  have hc := h (b ++ u :: before) c after (by simp [hq])
  by_cases hbefore : before = []
  · subst hbefore
    obtain ⟨all, rfl⟩ := eq_union_of_isUnion hu
    refine ⟨fun hm => ?_, fun hunion => ?_⟩
    · have hlast := hc.onMerge hm
      simp [Value.admitsOnMerge, ClauseForm.admitsOnMerge] at hlast
    · have hlast := (hc.union hunion).2.2
      simp [hu] at hlast
  · have hlast := getLast?_append_cons hbefore b u
    refine ⟨fun hm => hlast ▸ hc.onMerge hm, fun hunion => ?_⟩
    obtain ⟨-, hafter, hunions⟩ := hc.union hunion
    exact ⟨hbefore, hafter, hlast ▸ hunions⟩

/-- The rules about positions hold around a separator if they hold on both of its sides, which may
not be empty. -/
theorem positionsFit_append_cons (hu : u.isUnion = true) :
    PositionsFit (b ++ u :: q) ↔ b ≠ [] ∧ q ≠ [] ∧ PositionsFit b ∧ PositionsFit q := by
  constructor
  · intro h
    obtain ⟨hb, hq, -⟩ := (h b u q rfl).union hu
    exact ⟨hb, hq, positionsFit_left hu h, positionsFit_right hu h⟩
  · rintro ⟨hb, hq, hleft, hright⟩ before c after heq
    obtain ⟨as, rfl, rfl⟩ | ⟨rfl, rfl, rfl⟩ | ⟨as, rfl, rfl⟩ := append_cons_cases heq
    · have hc := hleft before c as rfl
      refine ⟨hc.onMerge, fun hunion => ?_⟩
      obtain ⟨hbefore, -, hlast⟩ := hc.union hunion
      exact ⟨hbefore, by simp, hlast⟩
    · refine ⟨fun hm => ?_, fun _ => ⟨hb, hq, ?_⟩⟩
      · obtain ⟨all, rfl⟩ := eq_union_of_isUnion hu
        cases hm
      · -- the left side does not end with a separator, which would have nothing behind it
        obtain ⟨as, p, rfl⟩ := (List.eq_nil_or_concat' _).resolve_left hb
        rw [List.getLast?_concat, Option.any_some]
        by_contra hunion
        exact ((hleft as p [] rfl).union (by simpa using hunion)).2.1 rfl
    · have hc := hright as c after rfl
      refine ⟨fun hm => ?_, fun hunion => ?_⟩
      · have hlast := hc.onMerge hm
        have has : as ≠ [] := by
          rintro rfl
          cases hlast
        rwa [getLast?_append_cons has]
      · obtain ⟨has, hafter, hlast⟩ := hc.union hunion
        refine ⟨by simp, hafter, ?_⟩
        rwa [getLast?_append_cons has]

/-- It is enough to look at the clause before each assignment of a merge. -/
theorem runsFollowMerge_iff :
    RunsFollowMerge b ↔ ∀ before c after, b = before ++ c :: after → c.isOnMerge = true →
      before.getLast?.any Value.admitsOnMerge = true := by
  constructor
  · intro h before c after hb hc
    by_cases hlast : ∃ p ∈ before.getLast?, p.isOnMerge = true
    · obtain ⟨p, hp, hm⟩ := hlast
      rw [Option.mem_def.1 hp, Option.any_some, admitsOnMerge_iff]
      exact .inr hm
    · -- no run reaches back beyond `c`, so the run of `c` begins with it
      obtain ⟨p, hp, hmerge⟩ := h before (c :: after.takeWhile Value.isOnMerge)
        (after.dropWhile Value.isOnMerge) (by simp [hb]) (by simp)
        (by
          intro d hd
          rw [mem_onMergeKinds]
          rcases List.mem_cons.1 hd with rfl | hd
          · exact hc
          · exact List.mem_takeWhile_imp hd)
        (fun p hp hm => hlast ⟨p, hp, mem_onMergeKinds.1 hm⟩)
        (by
          intro d hd hm
          have hhead := List.head?_dropWhile_not Value.isOnMerge after
          rw [Option.mem_def.1 hd] at hhead
          exact Bool.false_ne_true (hhead.symm.trans (mem_onMergeKinds.1 hm)))
      rw [Option.mem_def.1 hp, Option.any_some, admitsOnMerge_iff]
      exact .inl hmerge
  · intro h before run after hb hrun hkinds hbefore _
    obtain ⟨c, run, rfl⟩ := List.exists_cons_of_ne_nil hrun
    have hc := mem_onMergeKinds.1 (hkinds c List.mem_cons_self)
    have hadmits := h before c (run ++ after) (by simp [hb]) hc
    obtain ⟨p, hp, hadmits⟩ := (Option.any_eq_true _ _).1 hadmits
    refine ⟨p, hp, (admitsOnMerge_iff.1 hadmits).resolve_right fun hm => ?_⟩
    exact hbefore p hp (mem_onMergeKinds.2 hm)

theorem isBranch_iff : IsBranch b ↔ b ≠ [] ∧ PositionsFit b ∧
    ∀ c ∈ b, c.isKnownClause = true ∧ c.isDefinition = false ∧ c.isUnion = false := by
  constructor
  · rintro ⟨hne, hkinds, hruns⟩
    have hplain := fun c hc => mem_branchKinds.1 (hkinds c hc)
    refine ⟨hne, fun before c after hb => ⟨runsFollowMerge_iff.1 hruns before c after hb, ?_⟩, hplain⟩
    intro hunion
    rw [(hplain c (by simp [hb])).2.2] at hunion
    cases hunion
  · rintro ⟨hne, hfit, hplain⟩
    refine ⟨hne, fun c hc => mem_branchKinds.2 (hplain c hc), runsFollowMerge_iff.2 ?_⟩
    intro before c after hb
    exact (hfit before c after hb).onMerge

theorem IsQuery.append {all : Bool} (hb : IsQuery all b) (hq : IsQuery all q) :
    IsQuery all (b ++ .clause (.union all) :: q) := by
  induction hb with
  | branch hb => exact .union hb hq
  | union hb _ ih =>
    rw [List.append_assoc, List.cons_append]
    exact .union hb ih

/-- The rules about single clauses make up the grammar of queries. -/
theorem isQuery_iff {all : Bool} :
    IsQuery all cs ↔ cs ≠ [] ∧ PositionsFit cs ∧
      (∀ c ∈ cs, c.isKnownClause = true ∧ c.isDefinition = false) ∧
      ∀ c ∈ cs, c.isUnion = true → c = .clause (.union all) := by
  constructor
  · intro h
    induction h with
    | branch hb =>
      obtain ⟨hne, hfit, hplain⟩ := isBranch_iff.1 hb
      refine ⟨hne, hfit, fun c hc => ⟨(hplain c hc).1, (hplain c hc).2.1⟩, fun c hc hunion => ?_⟩
      rw [(hplain c hc).2.2] at hunion
      cases hunion
    | union hb _ ih =>
      obtain ⟨hne, hfit, hplain⟩ := isBranch_iff.1 hb
      obtain ⟨hne', hfit', hplain', hunions⟩ := ih
      refine ⟨by simp, (positionsFit_append_cons rfl).2 ⟨hne, hne', hfit, hfit'⟩, ?_, ?_⟩
      · intro c hc
        rcases List.mem_append.1 hc with hc | hc
        · exact ⟨(hplain c hc).1, (hplain c hc).2.1⟩
        · rcases List.mem_cons.1 hc with rfl | hc
          · exact ⟨rfl, rfl⟩
          · exact hplain' c hc
      · intro c hc hunion
        rcases List.mem_append.1 hc with hc | hc
        · rw [(hplain c hc).2.2] at hunion
          cases hunion
        · rcases List.mem_cons.1 hc with rfl | hc
          · rfl
          · exact hunions c hc hunion
  · -- induction on the length: a separator splits the list into two that are shorter
    induction hn : cs.length using Nat.strong_induction_on generalizing cs with
    | _ n ih =>
      rintro ⟨hne, hfit, hplain, hunions⟩
      by_cases hunion : ∃ u ∈ cs, u.isUnion = true
      · obtain ⟨u, hu, hunion⟩ := hunion
        obtain ⟨b, q, rfl⟩ := List.append_of_mem hu
        obtain ⟨hb, hq, hleft, hright⟩ := (positionsFit_append_cons hunion).1 hfit
        obtain rfl := hunions u hu hunion
        simp only [List.mem_append, List.mem_cons] at hplain hunions
        rw [List.length_append, List.length_cons] at hn
        have hleft := ih b.length (by omega) rfl
          ⟨hb, hleft, fun c hc => hplain c (.inl hc), fun c hc => hunions c (.inl hc)⟩
        have hright := ih q.length (by omega) rfl
          ⟨hq, hright, fun c hc => hplain c (.inr (.inr hc)), fun c hc => hunions c (.inr (.inr hc))⟩
        exact hleft.append hright
      · apply IsQuery.branch
        refine isBranch_iff.2 ⟨hne, hfit, fun c hc => ⟨(hplain c hc).1, (hplain c hc).2, ?_⟩⟩
        by_contra hc'
        exact hunion ⟨c, hc, by simpa using hc'⟩

end Positions

end Query

end CypherCompose
