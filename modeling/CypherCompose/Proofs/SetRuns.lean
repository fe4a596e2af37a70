import CypherCompose.Proofs.AccessModes
import Mathlib.Data.List.SplitBy

/-!
# Runs of assignments

SET clauses and bare assignments that follow each other make up a run.  `Value.joinRuns` puts one SET in
the place of every run, and `Value.joined` does so in the bodies of a clause, at every depth.

Neither validation nor the search for a change can tell the difference: a run is made of clauses that may
stand anywhere and that change the database, and so is the SET in its place.

* `Value.induct_runs`: a list is built from runs and other clauses.
* `Query.checkClauses_joined`: validation accepts the clauses with runs joined if it accepts the others.
* `Query.anyMutates_joined`: the search for a change comes to the same.
-/

namespace CypherCompose

namespace Value

/-! ## Runs -/

/-- The clauses that are made of assignments. -/
def isSetting : Value → Bool
  | assign .. => true
  | clause (.set _) => true
  | _ => false

/-- The assignments that such a clause is made of. -/
def assigned : Value → List Value
  | clause (.set items) => items.asList
  | v => [v]

/-- The clauses in runs: two neighbours stay together if both are made of assignments. -/
def runs (cs : List Value) : List (List Value) :=
  cs.splitBy fun a b => a.isSetting && b.isSetting

/-- One SET with all assignments of some clauses. -/
def setOfRun (run : List Value) : Value :=
  clause (.set (list (run.flatMap assigned)))

/-- A run of assignments as one SET; any other clause stays as it is. -/
def joinRun (run : List Value) : List Value :=
  if run.all isSetting then [setOfRun run] else run

/-- The clauses with one SET in the place of each run. -/
def joinRuns (cs : List Value) : List Value :=
  (runs cs).flatMap joinRun

mutual

/-- A clause with the runs in its body joined, at every depth. -/
def joined : Value → Value
  | clause (.subquery body) => clause (.subquery (joinedBody body))
  | clause (.forEach source binding body) => clause (.forEach source binding (joinedBody body))
  | v => v

/-- A body with its runs joined. -/
def joinedBody : Value → Value
  | list xs => list (joinRuns (joinedEach xs))
  | tuple xs => tuple (joinRuns (joinedEach xs))
  | builder s xs => builder s (joinRuns (joinedEach xs))
  | v => v

/-- Clauses with the runs in their bodies joined. -/
def joinedEach : List Value → List Value
  | [] => []
  | c :: cs => joined c :: joinedEach cs

end

theorem joinedEach_eq_map (cs : List Value) : joinedEach cs = cs.map joined := by
  induction cs with
  | nil => rfl
  | cons c cs ih => rw [joinedEach, ih, List.map_cons]

variable {c v body : Value} {cs ss : List Value} {scope : Scope}

theorem runs_of_settings (hne : ss ≠ []) (hss : ∀ s ∈ ss, s.isSetting = true) : runs ss = [ss] := by
  refine List.splitBy_of_isChain hne (List.isChain_iff_getElem.2 fun i hi => ?_)
  rw [hss _ (List.getElem_mem _), hss _ (List.getElem_mem _), Bool.and_self]

theorem runs_cons_plain (hc : c.isSetting = false) (cs : List Value) :
    runs (c :: cs) = [c] :: runs cs := by
  have happend : runs ([c] ++ cs) = runs [c] ++ runs cs := by
    apply List.splitBy_append
    intro x hx y _
    obtain rfl : c = x := by simpa using hx
    rw [hc, Bool.false_and]
  exact happend

theorem runs_append (hne : ss ≠ []) (hss : ∀ s ∈ ss, s.isSetting = true)
    (hcs : ∀ c ∈ cs.head?, c.isSetting = false) : runs (ss ++ cs) = ss :: runs cs := by
  have happend : runs (ss ++ cs) = runs ss ++ runs cs := by
    apply List.splitBy_append
    intro x _ y hy
    rw [hcs y hy, Bool.and_false]
  rw [happend, runs_of_settings hne hss, List.singleton_append]

/-- A list is built from its end: other clauses go in front one by one, and assignments in whole
runs. -/
theorem induct_runs {P : List Value → Prop} (nil : P [])
    (plain : ∀ c cs, c.isSetting = false → P cs → P (c :: cs))
    (run : ∀ ss cs, ss ≠ [] → (∀ s ∈ ss, s.isSetting = true) →
      (∀ c ∈ cs.head?, c.isSetting = false) → P cs → P (ss ++ cs)) (cs : List Value) : P cs := by
  induction hn : cs.length using Nat.strong_induction_on generalizing cs with
  | _ n ih =>
    cases cs with
    | nil => exact nil
    | cons c cs =>
      rw [List.length_cons] at hn
      cases hc : c.isSetting with
      | false => exact plain c cs hc (ih cs.length (by omega) cs rfl)
      | true =>
        have hsplit : (c :: cs.takeWhile isSetting) ++ cs.dropWhile isSetting = c :: cs := by simp
        have hlength := (List.dropWhile_suffix isSetting (l := cs)).length_le
        rw [← hsplit]
        refine run _ _ (List.cons_ne_nil _ _) (List.forall_mem_cons.2 ⟨hc, fun s hs => ?_⟩)
          (fun d hd => ?_) (ih _ (by omega) _ rfl)
        · exact List.mem_takeWhile_imp hs
        · have hhead := List.head?_dropWhile_not isSetting cs
          rw [Option.mem_def.1 hd] at hhead
          exact hhead

@[simp] theorem joinRuns_nil : joinRuns [] = [] := rfl

theorem joinRuns_cons_plain (hc : c.isSetting = false) (cs : List Value) :
    joinRuns (c :: cs) = c :: joinRuns cs := by
  rw [joinRuns, runs_cons_plain hc, List.flatMap_cons, joinRun]
  simp [hc, joinRuns]

theorem joinRuns_append (hne : ss ≠ []) (hss : ∀ s ∈ ss, s.isSetting = true)
    (hcs : ∀ c ∈ cs.head?, c.isSetting = false) :
    joinRuns (ss ++ cs) = setOfRun ss :: joinRuns cs := by
  rw [joinRuns, runs_append hne hss hcs, List.flatMap_cons, joinRun,
    if_pos (List.all_eq_true.2 hss), List.singleton_append, joinRuns]

theorem joinRuns_eq_nil : joinRuns cs = [] ↔ cs = [] := by
  induction cs using induct_runs with
  | nil => exact Iff.rfl
  | plain c cs hc _ => simp [joinRuns_cons_plain hc]
  | run ss cs hne hss hcs _ => simp [joinRuns_append hne hss hcs, hne]

/-- What all assignments satisfy holds of the joined clauses if it holds of the others. -/
theorem forall_mem_joinRuns {P : Value → Prop} (hP : ∀ s, s.isSetting = true → P s) :
    (∀ c ∈ joinRuns cs, P c) ↔ ∀ c ∈ cs, P c := by
  induction cs using induct_runs with
  | nil => exact Iff.rfl
  | plain c cs hc ih => rw [joinRuns_cons_plain hc, List.forall_mem_cons, List.forall_mem_cons, ih]
  | run ss cs hne hss hcs ih =>
    have hrun : ∀ s ∈ ss, P s := fun s hs => hP s (hss s hs)
    rw [joinRuns_append hne hss hcs, List.forall_mem_cons, List.forall_mem_append, ih]
    exact ⟨fun h => ⟨hrun, h.2⟩, fun h => ⟨hP (setOfRun ss) rfl, h.2⟩⟩

/-! ## Bodies -/

theorem joined_of_none (h : v.nested? = none) : joined v = v := by
  unfold joined
  split
  · cases h
  · cases h
  · rfl

theorem nested?_joined (h : v.nested? = some (scope, body)) :
    (joined v).nested? = some (scope, joinedBody body) := by
  unfold nested? at h
  split at h <;> cases h <;> rw [joined, nested?]

theorem listed?_joinedBody (h : body.listed? = some cs) :
    (joinedBody body).listed? = some (joinRuns (cs.map joined)) := by
  unfold listed? at h
  split at h <;> cases h <;> rw [joinedBody, listed?, joinedEach_eq_map]

theorem joinedBody_of_none (h : body.listed? = none) : joinedBody body = body := by
  unfold joinedBody
  split
  · cases h
  · cases h
  · cases h
  · rfl

theorem joined_of_listed?_none (h : v.nested? = some (scope, body)) (hbody : body.listed? = none) :
    joined v = v := by
  unfold nested? at h
  split at h <;> cases h <;> rw [joined, joinedBody_of_none hbody]

/-- Joining the runs inside a clause does not change its kind. -/
theorem kinds_joined (v : Value) :
    (joined v).isKnownClause = v.isKnownClause ∧ (joined v).isForEachBody = v.isForEachBody ∧
      (joined v).isDefinition = v.isDefinition ∧ (joined v).isOnMerge = v.isOnMerge ∧
      (joined v).admitsOnMerge = v.admitsOnMerge ∧ (joined v).isUnion = v.isUnion ∧
      (joined v).isSetting = v.isSetting := by
  unfold joined
  split <;> exact ⟨rfl, rfl, rfl, rfl, rfl, rfl, rfl⟩

end Value

namespace Query

open Value

variable {v body : Value} {cs ss : List Value} {scope : Scope}

/-! ## The search for a change -/

theorem anyMutates_append (xs ys : List Value) :
    anyMutates (xs ++ ys) = (do if ← anyMutates xs then .ok true else anyMutates ys) := by
  induction xs with
  | nil => rfl
  | cons x xs ih =>
    rw [List.cons_append, anyMutates, anyMutates, ih, bind_assoc]
    refine bind_congr fun b => ?_
    cases b <;> rfl

theorem anyMutates_of_settings (hne : ss ≠ []) (hss : ∀ s ∈ ss, s.isSetting = true) :
    anyMutates ss = .ok true := by
  obtain ⟨s, ss, rfl⟩ := List.exists_cons_of_ne_nil hne
  have hs : mutates s = .ok true := by
    have hsetting := hss s List.mem_cons_self
    unfold isSetting at hsetting
    split at hsetting
    · rw [mutates]
    · rfl
    · cases hsetting
  rw [anyMutates, hs]
  rfl

theorem anyMutates_joinRuns (cs : List Value) : anyMutates (joinRuns cs) = anyMutates cs := by
  induction cs using induct_runs with
  | nil => rfl
  | plain c cs hc ih => rw [joinRuns_cons_plain hc, anyMutates, anyMutates, ih]
  | run ss cs hne hss hcs ih =>
    rw [joinRuns_append hne hss hcs, anyMutates_append, anyMutates_of_settings hne hss]
    rfl

theorem anyMutates_map_joined (h : ∀ c ∈ cs, mutates (joined c) = mutates c) :
    anyMutates (cs.map joined) = anyMutates cs := by
  induction cs with
  | nil => rfl
  | cons c cs ih =>
    obtain ⟨hc, hcs⟩ := List.forall_mem_cons.1 h
    rw [List.map_cons, anyMutates, anyMutates, hc, ih hcs]

theorem mutates_joined (v : Value) : mutates (joined v) = mutates v := by
  induction v using induct_nested with
  | step v ih =>
    cases hv : v.nested? with
    | none => rw [joined_of_none hv]
    | some nested =>
      obtain ⟨scope, body⟩ := nested
      by_cases hscope : scope = .forEach
      · subst hscope
        rw [mutates_of_forEach (nested?_joined hv), mutates_of_forEach hv]
      · cases hbody : body.listed? with
        | none => rw [joined_of_listed?_none hv hbody]
        | some cs =>
          have hcs := anyMutates_map_joined (ih scope body cs hv hbody)
          obtain rfl := eq_subquery_of_nested? hv hscope
          rw [(mutates_of_subquery hv hbody).1,
            (mutates_of_subquery (nested?_joined hv) (listed?_joinedBody hbody)).1,
            anyMutates_joinRuns, hcs]

theorem anyMutates_joined (cs : List Value) :
    anyMutates (joinRuns (cs.map joined)) = anyMutates cs := by
  rw [anyMutates_joinRuns, anyMutates_map_joined fun c _ => mutates_joined c]

/-! ## Validation -/

/-- What validation asks of a clause, of the clause before it and of whether it is the last one. -/
structure Fits (scope : Scope) (before : Option Value) (c : Value) (last : Bool) : Prop where
  known : c.isKnownClause = true
  forEachBody : scope = .forEach → c.isForEachBody = true
  definition : c.isDefinition = true → scope = .statement ∧ before = none ∧ last = true
  onMerge : c.isOnMerge = true → before.any admitsOnMerge = true
  union : c.isUnion = true → before.isSome = true ∧ last = false ∧ before.any isUnion = false
  nested : checkNested c = .ok ()

/-- Every clause of a list fits, the first one behind the clause `before`. -/
def FitsFrom (scope : Scope) : Option Value → List Value → Prop
  | _, [] => True
  | before, c :: cs => Fits scope before c cs.isEmpty ∧ FitsFrom scope (some c) cs

/-- Positions are counted only to tell the first clause and the last. -/
theorem checkClause_iff_fits {i count : Nat} {before : Option Value} {c : Value} {last : Bool}
    (hbefore : i = 0 ↔ before = none) (hlast : i + 1 = count ↔ last = true) (hcount : i < count) :
    checkClause scope count i before c = .ok () ∧ checkNested c = .ok () ↔
      Fits scope before c last := by
  have hlone : count ≤ 1 ↔ before = none ∧ last = true := by
    rw [← hbefore, ← hlast]
    omega
  have hfirst : i ≠ 0 ↔ before.isSome = true := by
    rw [Ne, hbefore, Option.isSome_iff_ne_none]
  have hend : i + 1 ≠ count ↔ last = false := by
    rw [Ne, hlast, Bool.not_eq_true]
  rw [checkClause_eq_ok, hlone, hfirst, hend]
  constructor
  · rintro ⟨⟨hknown, hbody, hdefinition, hmerge, hunion⟩, hnested⟩
    exact ⟨hknown, hbody, hdefinition, hmerge, hunion, hnested⟩
  · rintro ⟨hknown, hbody, hdefinition, hmerge, hunion, hnested⟩
    exact ⟨⟨hknown, hbody, hdefinition, hmerge, hunion⟩, hnested⟩

theorem checkFrom_iff_fitsFrom {i count : Nat} {before : Option Value}
    (hbefore : i = 0 ↔ before = none) (hcount : count = i + cs.length) :
    checkFrom scope count i before cs = .ok () ↔ FitsFrom scope before cs := by
  induction cs generalizing i before with
  | nil => simp [checkFrom, FitsFrom]
  | cons c cs ih =>
    rw [List.length_cons] at hcount
    have hlast : i + 1 = count ↔ cs.isEmpty = true := by
      rw [List.isEmpty_iff, ← List.length_eq_zero_iff]
      omega
    have hrest : checkFrom scope count (i + 1) (some c) cs = .ok () ↔ FitsFrom scope (some c) cs :=
      ih (by simp) (by omega)
    have hc : checkClause scope count i before c = .ok () ∧ checkNested c = .ok () ↔
        Fits scope before c cs.isEmpty :=
      checkClause_iff_fits hbefore hlast (by omega)
    rw [FitsFrom, ← hrest, ← hc, checkFrom]
    simp only [Except.bind_eq_ok]
    constructor
    · rintro ⟨_, hclause, _, hnested, hfrom⟩
      exact ⟨⟨hclause, hnested⟩, hfrom⟩
    · rintro ⟨⟨hclause, hnested⟩, hfrom⟩
      exact ⟨(), hclause, (), hnested, hfrom⟩

/-- Assignments may stand anywhere. -/
theorem fits_of_isSetting {s : Value} (hs : s.isSetting = true) (before : Option Value)
    (last : Bool) : Fits scope before s last := by
  unfold isSetting at hs
  split at hs
  · exact ⟨rfl, fun _ => rfl, nofun, nofun, nofun, checkNested_of_none rfl⟩
  · exact ⟨rfl, fun _ => rfl, nofun, nofun, nofun, checkNested_of_none rfl⟩
  · cases hs

/-- Only some properties of the clause before a clause matter. -/
theorem fitsFrom_congr {p q : Value} (hadmits : p.admitsOnMerge = q.admitsOnMerge)
    (hunion : p.isUnion = q.isUnion) (cs : List Value) :
    FitsFrom scope (some p) cs ↔ FitsFrom scope (some q) cs := by
  cases cs with
  | nil => exact Iff.rfl
  | cons c cs =>
    have hfits : Fits scope (some p) c cs.isEmpty ↔ Fits scope (some q) c cs.isEmpty := by
      constructor
      · rintro ⟨hknown, hbody, hdefinition, hmerge, hseparator, hnested⟩
        simp only [Option.any_some, hadmits, hunion] at hmerge hseparator
        exact ⟨hknown, hbody, fun h => (nomatch (hdefinition h).2.1), hmerge, hseparator, hnested⟩
      · rintro ⟨hknown, hbody, hdefinition, hmerge, hseparator, hnested⟩
        simp only [Option.any_some, ← hadmits, ← hunion] at hmerge hseparator
        exact ⟨hknown, hbody, fun h => (nomatch (hdefinition h).2.1), hmerge, hseparator, hnested⟩
    rw [FitsFrom, FitsFrom, hfits]

theorem not_admitsOnMerge_of_isSetting {s : Value} (hs : s.isSetting = true) :
    s.admitsOnMerge = false ∧ s.isUnion = false := by
  unfold isSetting at hs
  split at hs
  · exact ⟨rfl, rfl⟩
  · exact ⟨rfl, rfl⟩
  · cases hs

theorem fitsFrom_settings (hne : ss ≠ []) (hss : ∀ s ∈ ss, s.isSetting = true)
    (before : Option Value) {s : Value} (hs : s.isSetting = true) :
    FitsFrom scope before (ss ++ cs) ↔ FitsFrom scope (some s) cs := by
  induction ss generalizing before with
  | nil => exact absurd rfl hne
  | cons t ss ih =>
    obtain ⟨ht, hss⟩ := List.forall_mem_cons.1 hss
    rw [List.cons_append, FitsFrom, and_iff_right (fits_of_isSetting ht _ _)]
    by_cases hnil : ss = []
    · subst hnil
      obtain ⟨hadmits, hunion⟩ := not_admitsOnMerge_of_isSetting ht
      obtain ⟨hadmits', hunion'⟩ := not_admitsOnMerge_of_isSetting hs
      exact fitsFrom_congr (hadmits.trans hadmits'.symm) (hunion.trans hunion'.symm) cs
    · exact ih hnil hss (some t)

theorem fitsFrom_joinRuns (before : Option Value) :
    FitsFrom scope before (joinRuns cs) ↔ FitsFrom scope before cs := by
  induction cs using induct_runs generalizing before with
  | nil => exact Iff.rfl
  | plain c cs hc ih =>
    have hempty : (joinRuns cs).isEmpty = cs.isEmpty := by
      rw [Bool.eq_iff_iff, List.isEmpty_iff, List.isEmpty_iff, joinRuns_eq_nil]
    rw [joinRuns_cons_plain hc, FitsFrom, FitsFrom, hempty, ih]
  | run ss cs hne hss hcs ih =>
    rw [joinRuns_append hne hss hcs, FitsFrom, ih, and_iff_right (fits_of_isSetting rfl before _),
      fitsFrom_settings hne hss before (s := setOfRun ss) rfl]

theorem fitsFrom_map_joined (h : ∀ c ∈ cs, checkNested (joined c) = .ok () ↔ checkNested c = .ok ())
    (before : Option Value) :
    FitsFrom scope before (cs.map joined) ↔ FitsFrom scope before cs := by
  induction cs generalizing before with
  | nil => exact Iff.rfl
  | cons c cs ih =>
    obtain ⟨hc, hcs⟩ := List.forall_mem_cons.1 h
    obtain ⟨hknown, hbody, hdefinition, hmerge, hadmits, hunion, -⟩ := kinds_joined c
    have hfits : Fits scope before (joined c) cs.isEmpty ↔ Fits scope before c cs.isEmpty := by
      constructor
      · rintro ⟨h₁, h₂, h₃, h₄, h₅, h₆⟩
        exact ⟨hknown ▸ h₁, hbody ▸ h₂, hdefinition ▸ h₃, hmerge ▸ h₄, hunion ▸ h₅, hc.1 h₆⟩
      · rintro ⟨h₁, h₂, h₃, h₄, h₅, h₆⟩
        exact ⟨hknown ▸ h₁, hbody ▸ h₂, hdefinition ▸ h₃, hmerge ▸ h₄, hunion ▸ h₅, hc.2 h₆⟩
    rw [List.map_cons, FitsFrom, FitsFrom, List.isEmpty_map, hfits, fitsFrom_congr hadmits hunion,
      ih hcs]

theorem checkClauses_iff_fitsFrom {shown : Value} :
    checkClauses scope shown cs = .ok () ↔ cs ≠ [] ∧ FitsFrom scope none cs ∧
      ∃ all, ∀ c ∈ cs, c.isUnion = true → c = .clause (.union all) := by
  rw [checkClauses, checkList_eq_ok, checkFrom_iff_fitsFrom (by simp) (by simp)]

theorem checkClauses_map_joined {shown shown' : Value}
    (h : ∀ c ∈ cs, checkNested (joined c) = .ok () ↔ checkNested c = .ok ()) :
    checkClauses scope shown (joinRuns (cs.map joined)) = .ok () ↔
      checkClauses scope shown' cs = .ok () := by
  have hjoined (all : Bool) (c : Value) :
      ((joined c).isUnion = true → joined c = .clause (.union all)) ↔
        (c.isUnion = true → c = .clause (.union all)) := by
    rw [(kinds_joined c).2.2.2.2.2.1]
    refine imp_congr_right fun hunion => ?_
    obtain ⟨b, rfl⟩ := eq_union_of_isUnion hunion
    rw [joined_of_none rfl]
  have hsetting (all : Bool) (s : Value) (hs : s.isSetting = true) (hunion : s.isUnion = true) :
      s = .clause (.union all) := by
    rw [(not_admitsOnMerge_of_isSetting hs).2] at hunion
    cases hunion
  have hunions (all : Bool) :
      (∀ c ∈ joinRuns (cs.map joined), c.isUnion = true → c = .clause (.union all)) ↔
        ∀ c ∈ cs, c.isUnion = true → c = .clause (.union all) := by
    rw [forall_mem_joinRuns (hsetting all), List.forall_mem_map]
    exact forall₂_congr fun c _ => hjoined all c
  simp only [checkClauses_iff_fitsFrom, hunions, fitsFrom_joinRuns, fitsFrom_map_joined h, Ne,
    joinRuns_eq_nil, List.map_eq_nil_iff]

theorem checkNested_joined (v : Value) :
    checkNested (joined v) = .ok () ↔ checkNested v = .ok () := by
  induction v using induct_nested with
  | step v ih =>
    cases hv : v.nested? with
    | none => rw [joined_of_none hv]
    | some nested =>
      obtain ⟨scope, body⟩ := nested
      cases hbody : body.listed? with
      | none => rw [joined_of_listed?_none hv hbody]
      | some cs =>
        rw [checkNested_of_nested? hv, checkNested_of_nested? (nested?_joined hv),
          checkBody_of_listed? hbody, checkBody_of_listed? (listed?_joinedBody hbody)]
        exact checkClauses_map_joined (ih scope body cs hv hbody)

theorem checkClauses_joined {shown shown' : Value} (cs : List Value) :
    checkClauses scope shown (joinRuns (cs.map joined)) = .ok () ↔
      checkClauses scope shown' cs = .ok () :=
  checkClauses_map_joined fun c _ => checkNested_joined c

end Query

end CypherCompose
