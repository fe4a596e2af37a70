import CypherCompose.Proofs.ClauseGrammar
import CypherCompose.Proofs.Writing
import Mathlib.Tactic.SplitIfs

/-!
# What validation accepts

Validation goes through a list once, checks each clause against its kind, its position and the clause
before it, and then looks at the separators all together.

* `checkClause_eq_ok`, `checkFrom_eq_ok`, `checkList_eq_ok`: what each check accepts.
* `hasShape_iff`: in every scope, what they accept together is a shape of the grammar.
* `checkClauses_eq_ok`: by induction over the bodies, validation accepts exactly the valid lists.
* `refuses_checkClauses`: how it refuses the others.
-/

namespace CypherCompose

theorem Except.bind_eq_ok {ε α β : Type} {x : Except ε α} {f : α → Except ε β} {b : β} :
    (x >>= f) = .ok b ↔ ∃ a, x = .ok a ∧ f a = .ok b := by
  cases x <;> simp [bind, Except.bind]

theorem Except.bind_eq_error {ε α β : Type} {x : Except ε α} {f : α → Except ε β} {e : ε} :
    (x >>= f) = .error e ↔ x = .error e ∨ ∃ a, x = .ok a ∧ f a = .error e := by
  cases x <;> simp [bind, Except.bind]

/-- A check that fails under a condition succeeds if the condition fails and what follows succeeds. -/
theorem Except.ite_error_eq_ok {ε α : Type} {p : Prop} [Decidable p] {e : ε} {x : Except ε α} {a : α} :
    (if p then .error e else x) = .ok a ↔ ¬ p ∧ x = .ok a := by
  by_cases hp : p
  · simp [hp]
  · simp [hp]

namespace Query

/-! ## Checking clause by clause -/

section Checks

variable {scope : Scope} {count i : Nat} {last? : Option Value} {c : Value} {cs : List Value}

theorem checkClause_eq_ok :
    checkClause scope count i last? c = .ok () ↔
      c.isKnownClause = true ∧ (scope = .forEach → c.isForEachBody = true) ∧
        (c.isDefinition = true → scope = .statement ∧ count ≤ 1) ∧
        (c.isOnMerge = true → last?.any Value.admitsOnMerge = true) ∧
        (c.isUnion = true → i ≠ 0 ∧ i + 1 ≠ count ∧ last?.any Value.isUnion = false) := by
  have hkindless := isKnownClause_of_isKindless (c := c)
  simp only [checkClause, Except.ite_error_eq_ok]
  simp only [Bool.and_eq_true, Bool.not_eq_true', decide_eq_true_eq, Bool.or_eq_true, beq_iff_eq]
  grind

theorem checkFrom_eq_ok :
    checkFrom scope count i last? cs = .ok () ↔
      (∀ (before : List Value) c after, cs = before ++ c :: after →
        checkClause scope count (i + before.length) (before.getLast?.or last?) c = .ok ()) ∧
      ∀ c ∈ cs, checkNested c = .ok () := by
  induction cs generalizing i last? with
  | nil => simp [checkFrom]
  | cons d cs ih =>
    rw [checkFrom]
    simp only [Except.bind_eq_ok, ih]
    constructor
    · rintro ⟨_, hd, _, hnested, hrest, hall⟩
      refine ⟨fun before c after heq => ?_, List.forall_mem_cons.2 ⟨hnested, hall⟩⟩
      cases before with
      | nil =>
        obtain ⟨rfl, rfl⟩ := List.cons_eq_cons.1 heq
        exact hd
      | cons p before =>
        obtain ⟨rfl, rfl⟩ := List.cons_eq_cons.1 heq
        have hc := hrest before c after rfl
        rw [List.length_cons, List.getLast?_cons, Nat.add_comm before.length 1, ← Nat.add_assoc]
        cases h : before.getLast? <;> simpa [h] using hc
    · rintro ⟨hfit, hall⟩
      rw [List.forall_mem_cons] at hall
      refine ⟨(), hfit [] d cs rfl, (), hall.1, fun before c after heq => ?_, hall.2⟩
      have hc := hfit (d :: before) c after (by rw [heq, List.cons_append])
      rw [List.length_cons, List.getLast?_cons, Nat.add_comm before.length 1, ← Nat.add_assoc] at hc
      cases h : before.getLast? <;> simpa [h] using hc

/-- Separators of one kind. -/
theorem separators_iff :
    (cs.any Value.isUnionAll && cs.any fun c => c.isUnion && !c.isUnionAll) = false ↔
      ∃ all, ∀ c ∈ cs, c.isUnion = true → c = .clause (.union all) := by
  rw [Bool.and_eq_false_iff, List.any_eq_false, List.any_eq_false]
  constructor
  · rintro (h | h)
    · refine ⟨false, fun c hc hunion => ?_⟩
      obtain ⟨_ | _, rfl⟩ := eq_union_of_isUnion hunion
      · rfl
      · exact absurd rfl (h _ hc)
    · refine ⟨true, fun c hc hunion => ?_⟩
      obtain ⟨_ | _, rfl⟩ := eq_union_of_isUnion hunion
      · exact absurd rfl (h _ hc)
      · rfl
  · rintro ⟨_ | _, h⟩
    · refine .inl fun c hc hall => ?_
      unfold Value.isUnionAll at hall
      split at hall
      · cases h _ hc rfl
      · cases hall
    · refine .inr fun c hc hunion => ?_
      rw [Bool.and_eq_true] at hunion
      obtain rfl := h c hc hunion.1
      cases hunion.2

theorem checkList_eq_ok {shown : Value} {each : Except Error Unit} :
    checkList scope shown cs each = .ok () ↔ cs ≠ [] ∧ each = .ok () ∧
      ∃ all, ∀ c ∈ cs, c.isUnion = true → c = .clause (.union all) := by
  unfold checkList
  by_cases hempty : cs = []
  · simp [hempty]
  · rw [if_neg (by simpa using hempty), Except.bind_eq_ok, ← separators_iff]
    constructor
    · rintro ⟨_, heach, h⟩
      split_ifs at h with hmixed
      exact ⟨hempty, heach, by simpa using hmixed⟩
    · rintro ⟨-, heach, h⟩
      refine ⟨(), heach, ?_⟩
      rw [if_neg (by simp [h])]

theorem positionsFit_of_forall (h : ∀ c ∈ cs, c.isOnMerge = false ∧ c.isUnion = false) :
    PositionsFit cs := by
  intro before c after heq
  obtain ⟨hmerge, hunion⟩ := h c (by simp [heq])
  constructor
  · rw [hmerge]
    intro hfalse
    cases hfalse
  · rw [hunion]
    intro hfalse
    cases hfalse

theorem exists_separator_of_forall (h : ∀ c ∈ cs, c.isUnion = false) :
    ∃ all, ∀ c ∈ cs, c.isUnion = true → c = .clause (.union all) := by
  refine ⟨false, fun c hc hunion => ?_⟩
  rw [h c hc] at hunion
  cases hunion

/-- The checks of all clauses, without counting positions. -/
theorem forall_checkClause_iff :
    (∀ (before : List Value) c after, cs = before ++ c :: after →
      checkClause scope cs.length before.length before.getLast? c = .ok ()) ↔
      PositionsFit cs ∧ ∀ c ∈ cs, c.isKnownClause = true ∧
        (scope = .forEach → c.isForEachBody = true) ∧
        (c.isDefinition = true → scope = .statement ∧ cs.length ≤ 1) := by
  constructor
  · intro h
    refine ⟨fun before c after heq => ?_, fun c hc => ?_⟩
    · obtain ⟨-, -, -, hmerge, hunion⟩ := checkClause_eq_ok.1 (h before c after heq)
      refine ⟨hmerge, fun hc => ?_⟩
      obtain ⟨hfirst, hend, hdouble⟩ := hunion hc
      refine ⟨fun hnil => hfirst (by simp [hnil]), fun hnil => hend ?_, hdouble⟩
      simp [heq, hnil]
    · obtain ⟨before, after, heq⟩ := List.append_of_mem hc
      obtain ⟨hknown, hbody, hdefinition, -⟩ := checkClause_eq_ok.1 (h before c after heq)
      exact ⟨hknown, hbody, hdefinition⟩
  · rintro ⟨hfit, hall⟩ before c after heq
    obtain ⟨hknown, hbody, hdefinition⟩ := hall c (by simp [heq])
    refine checkClause_eq_ok.2 ⟨hknown, hbody, hdefinition, (hfit before c after heq).onMerge, ?_⟩
    intro hunion
    obtain ⟨hbefore, hafter, hdouble⟩ := (hfit before c after heq).union hunion
    have hlength : cs.length = before.length + (after.length + 1) := by simp [heq]
    have hpos := List.length_pos_iff.2 hbefore
    have hpos' := List.length_pos_iff.2 hafter
    exact ⟨by omega, by omega, hdouble⟩

theorem exists_isQuery_iff :
    (∃ all, IsQuery all cs) ↔ cs ≠ [] ∧ PositionsFit cs ∧
      (∀ c ∈ cs, c.isKnownClause = true ∧ c.isDefinition = false) ∧
      ∃ all, ∀ c ∈ cs, c.isUnion = true → c = .clause (.union all) := by
  simp only [isQuery_iff]
  constructor
  · rintro ⟨all, hne, hfit, hplain, hunions⟩
    exact ⟨hne, hfit, hplain, all, hunions⟩
  · rintro ⟨hne, hfit, hplain, all, hunions⟩
    exact ⟨all, hne, hfit, hplain, hunions⟩

/-- Where neither a definition nor the body of a FOREACH may stand, the checks ask for a query. -/
theorem exists_isQuery_iff_of_ne (hstatement : scope ≠ .statement) (hforEach : scope ≠ .forEach) :
    (∃ all, IsQuery all cs) ↔ cs ≠ [] ∧
      (PositionsFit cs ∧ ∀ c ∈ cs, c.isKnownClause = true ∧
        (scope = .forEach → c.isForEachBody = true) ∧
        (c.isDefinition = true → scope = .statement ∧ cs.length ≤ 1)) ∧
      ∃ all, ∀ c ∈ cs, c.isUnion = true → c = .clause (.union all) := by
  rw [exists_isQuery_iff, and_assoc]
  simp only [hstatement, hforEach, false_and, false_implies, true_and, imp_false, Bool.not_eq_true]

/-- The checks of a list, bodies apart, make up the shapes of the grammar. -/
theorem hasShape_iff :
    HasShape scope cs ↔ cs ≠ [] ∧
      (∀ (before : List Value) c after, cs = before ++ c :: after →
        checkClause scope cs.length before.length before.getLast? c = .ok ()) ∧
      ∃ all, ∀ c ∈ cs, c.isUnion = true → c = .clause (.union all) := by
  rw [forall_checkClause_iff]
  cases scope with
  | forEach =>
    constructor
    · rintro ⟨hne, hkinds⟩
      have hbody := fun c hc => mem_forEachKinds.1 (hkinds c hc)
      have hplain := fun c hc => branch_of_isForEachBody (hbody c hc)
      refine ⟨hne, ⟨positionsFit_of_forall fun c hc => ?_, fun c hc => ?_⟩, ?_⟩
      · exact ⟨isOnMerge_of_isForEachBody (hbody c hc), (hplain c hc).2.2⟩
      · refine ⟨(hplain c hc).1, fun _ => hbody c hc, fun hdefinition => ?_⟩
        rw [(hplain c hc).2.1] at hdefinition
        cases hdefinition
      · exact exists_separator_of_forall fun c hc => (hplain c hc).2.2
    · rintro ⟨hne, ⟨-, hall⟩, -⟩
      exact ⟨hne, fun c hc => mem_forEachKinds.2 ((hall c hc).2.1 rfl)⟩
  | statement =>
    constructor
    · rintro (⟨c, rfl, hc⟩ | hquery)
      · obtain ⟨hknown, hmerge, hunion⟩ := kinds_of_isDefinition (mem_definitionKinds.1 hc)
        refine ⟨by simp, ⟨positionsFit_of_forall ?_, ?_⟩, exists_separator_of_forall ?_⟩
        · simp [hmerge, hunion]
        · simp [hknown]
        · simp [hunion]
      · obtain ⟨hne, hfit, hplain, hunions⟩ := exists_isQuery_iff.1 hquery
        refine ⟨hne, ⟨hfit, fun c hc => ⟨(hplain c hc).1, by simp, fun hdefinition => ?_⟩⟩, hunions⟩
        rw [(hplain c hc).2] at hdefinition
        cases hdefinition
    · rintro ⟨hne, ⟨hfit, hall⟩, hunions⟩
      by_cases hdefinition : ∃ c ∈ cs, c.isDefinition = true
      · obtain ⟨c, hc, hdefinition⟩ := hdefinition
        have hlength := ((hall c hc).2.2 hdefinition).2
        have hcs : cs = [c] := by
          obtain ⟨d, rfl⟩ := List.length_eq_one_iff.1
            (show cs.length = 1 by have := List.length_pos_iff.2 hne; omega)
          rw [List.mem_singleton.1 hc]
        exact .inl ⟨c, hcs, mem_definitionKinds.2 hdefinition⟩
      · refine .inr (exists_isQuery_iff.2 ⟨hne, hfit, fun c hc => ⟨(hall c hc).1, ?_⟩, hunions⟩)
        by_contra hc'
        exact hdefinition ⟨c, hc, by simpa using hc'⟩
  | subquery => exact exists_isQuery_iff_of_ne (by simp) (by simp)
  | other s => exact exists_isQuery_iff_of_ne (by simp) (by simp)

end Checks

/-! ## Checking at every depth -/

section Depth

theorem checkClauses_of_bodies {scope : Scope} {shown : Value} {cs : List Value}
    (hbodies : (∀ c ∈ cs, checkNested c = .ok ()) ↔ ∀ c ∈ Value.everyClause cs, BodyFits c) :
    checkClauses scope shown cs = .ok () ↔ IsValid scope cs := by
  have hpositions : checkFrom scope cs.length 0 none cs = .ok () ↔
      (∀ (before : List Value) c after, cs = before ++ c :: after →
        checkClause scope cs.length before.length before.getLast? c = .ok ()) ∧
      ∀ c ∈ cs, checkNested c = .ok () := by
    rw [checkFrom_eq_ok]
    simp only [Nat.zero_add, Option.or_none]
  rw [checkClauses, checkList_eq_ok, hpositions, hbodies]
  constructor
  · rintro ⟨hne, ⟨hfit, hnested⟩, hunions⟩
    exact ⟨hasShape_iff.2 ⟨hne, hfit, hunions⟩, hnested⟩
  · rintro ⟨hshape, hnested⟩
    obtain ⟨hne, hfit, hunions⟩ := hasShape_iff.1 hshape
    exact ⟨hne, ⟨hfit, hnested⟩, hunions⟩

theorem bodyFits_of_none {c : Value} (h : c.nested? = none) : BodyFits c := by
  intro scope body hbody
  rw [h] at hbody
  cases hbody

theorem bodyFits_iff {c body : Value} {scope : Scope} (h : c.nested? = some (scope, body)) :
    BodyFits c ↔ ∃ cs, body.listed? = some cs ∧ HasShape scope cs := by
  constructor
  · intro hfits
    exact hfits scope body h
  · intro hfits scope' body' h'
    obtain ⟨rfl, rfl⟩ := Prod.mk.inj (Option.some.inj (h.symm.trans h'))
    exact hfits

theorem forall_mem_everyClause {P : Value → Prop} {cs : List Value} :
    (∀ c ∈ Value.everyClause cs, P c) ↔ ∀ c ∈ cs, P c ∧ ∀ d ∈ c.inside, P d := by
  simp only [Value.mem_everyClause]
  constructor
  · intro h c hc
    exact ⟨h c ⟨c, hc, .inl rfl⟩, fun d hd => h d ⟨c, hc, .inr hd⟩⟩
  · rintro h d ⟨c, hc, rfl | hd⟩
    · exact (h d hc).1
    · exact (h c hc).2 d hd

theorem checkNested_of_nested? {v : Value} {scope : Scope} {body : Value}
    (h : v.nested? = some (scope, body)) : checkNested v = checkBody scope v body := by
  unfold Value.nested? at h
  split at h <;> cases h <;> rw [checkNested]

theorem checkNested_of_none {v : Value} (h : v.nested? = none) : checkNested v = .ok () := by
  unfold checkNested
  split
  · cases h
  · cases h
  · rfl

theorem checkBody_of_listed? {scope : Scope} {owner body : Value} {cs : List Value}
    (h : body.listed? = some cs) :
    checkBody scope owner body = checkClauses scope (.list cs) cs := by
  unfold Value.listed? at h
  split at h <;> cases h <;> rw [checkBody, checkClauses]

theorem checkBody_of_none {scope : Scope} {owner body : Value} (h : body.listed? = none) :
    checkBody scope owner body = .error (Error.clause (.badBody body owner)).raised := by
  unfold checkBody
  split
  · cases h
  · cases h
  · cases h
  · rfl

theorem checkNested_eq_ok (v : Value) :
    checkNested v = .ok () ↔ BodyFits v ∧ ∀ c ∈ v.inside, BodyFits c := by
  induction v using Value.induct_nested with
  | step v ih =>
    cases hv : v.nested? with
    | none =>
      rw [checkNested_of_none hv, Value.inside_eq_nil hv]
      simpa using bodyFits_of_none hv
    | some nested =>
      obtain ⟨scope, body⟩ := nested
      rw [checkNested_of_nested? hv, Value.inside_of_nested? hv, bodyFits_iff hv]
      cases hbody : body.listed? with
      | none => simp [checkBody_of_none hbody]
      | some cs =>
        have hbodies : (∀ c ∈ cs, checkNested c = .ok ()) ↔ ∀ c ∈ Value.everyClause cs, BodyFits c := by
          rw [forall_mem_everyClause]
          exact forall₂_congr (ih scope body cs hv hbody)
        rw [checkBody_of_listed? hbody, Value.insideBody_of_listed? hbody, checkClauses_of_bodies hbodies]
        constructor
        · rintro ⟨hshape, hnested⟩
          exact ⟨⟨cs, rfl, hshape⟩, hnested⟩
        · rintro ⟨⟨_, hcs, hshape⟩, hnested⟩
          obtain rfl := Option.some.inj hcs
          exact ⟨hshape, hnested⟩

/-- Validation accepts exactly the valid lists. -/
theorem checkClauses_eq_ok {scope : Scope} {shown : Value} {cs : List Value} :
    checkClauses scope shown cs = .ok () ↔ IsValid scope cs := by
  apply checkClauses_of_bodies
  rw [forall_mem_everyClause]
  exact forall₂_congr fun c _ => checkNested_eq_ok c

/-! ## Errors -/

/-- Clauses about which a message cannot be written: the name of the kind, or a body that lists no
clauses, shows an integer of too many digits. -/
def isUnshowable (c : Value) : Bool :=
  !c.kind.isWritable || c.nested?.any fun nested => nested.2.listed?.isNone && !nested.2.isWritable

/-- The errors of clauses; where a clause of no known kind is asked for its name, also that the name
has no truth, and where a message cannot be written, that. -/
def Refuses (cs : List Value) (e : Error) : Prop :=
  (∃ k, e = .clause k) ∨ (e = .misuse .noTruth ∧ ∃ c ∈ cs, c.isKindless = true) ∨
    e = .misuse .unwritable ∧ ∃ c ∈ cs, isUnshowable c = true

theorem Refuses.mono {cs ds : List Value} {e : Error} (h : Refuses cs e) (hsub : cs ⊆ ds) :
    Refuses ds e := by
  obtain hclause | ⟨rfl, c, hc, hkindless⟩ | ⟨rfl, c, hc, hunshowable⟩ := h
  · exact .inl hclause
  · exact .inr (.inl ⟨rfl, c, hsub hc, hkindless⟩)
  · exact .inr (.inr ⟨rfl, c, hsub hc, hunshowable⟩)

theorem Refuses.raised {cs : List Value} {k : ClauseError}
    (h : k.wording.isWritable = false → ∃ c ∈ cs, isUnshowable c = true) :
    Refuses cs (Error.clause k).raised := by
  obtain ⟨-, hraised⟩ | ⟨hwritable, hraised⟩ := (Error.clause k).raised_cases
  · exact .inl ⟨k, hraised⟩
  · exact .inr (.inr ⟨hraised, h hwritable⟩)

theorem Refuses.ite {cs : List Value} {e e' : Error} {x : Except Error Unit} {p : Prop} [Decidable p]
    (h : p → Refuses cs e') (hx : x = .error e → Refuses cs e)
    (he : (if p then .error e' else x) = .error e) : Refuses cs e := by
  by_cases hp : p
  · rw [if_pos hp] at he
    cases he
    exact h hp
  · rw [if_neg hp] at he
    exact hx he

theorem refuses_checkClause {scope : Scope} {count i : Nat} {last? : Option Value} {c : Value}
    {e : Error} (h : checkClause scope count i last? c = .error e) : Refuses [c] e := by
  have hraised {k : ClauseError} (hk : c.kind.isWritable = true → k.wording.isWritable = true) :
      Refuses [c] (Error.clause k).raised := by
    refine .raised fun hwritable => ⟨c, by simp, ?_⟩
    have hc : ¬ c.kind.isWritable = true := fun hc => by simp [hk hc] at hwritable
    simp [isUnshowable, hc]
  unfold checkClause at h
  refine .ite (fun hkindless => .inr (.inl ⟨rfl, c, by simp, hkindless⟩)) (fun h => ?_) h
  -- The other rules differ only in their messages, which show no more than the kind.
  iterate 7
    refine .ite (fun _ => hraised fun hc => ?_) (fun h => ?_) h
    · simp [ClauseError.wording, hc]
  cases h

theorem refuses_checkFrom {scope : Scope} {count i : Nat} {last? : Option Value} {cs : List Value}
    {e : Error} (hnested : ∀ c ∈ cs, checkNested c = .error e → Refuses (c :: c.inside) e)
    (h : checkFrom scope count i last? cs = .error e) : Refuses (Value.everyClause cs) e := by
  induction cs generalizing i last? with
  | nil => cases h
  | cons c cs ih =>
    rw [List.forall_mem_cons] at hnested
    rw [checkFrom] at h
    simp only [Except.bind_eq_error] at h
    rw [Value.everyClause]
    obtain hc | ⟨_, -, hc | ⟨_, -, hcs⟩⟩ := h
    · exact (refuses_checkClause hc).mono (by simp)
    · exact (hnested.1 hc).mono (by simp)
    · exact (ih hnested.2 hcs).mono (by simp)

theorem refuses_checkClauses_of {scope : Scope} {shown : Value} {cs : List Value} {e : Error}
    (hnested : ∀ c ∈ cs, checkNested c = .error e → Refuses (c :: c.inside) e)
    (h : checkClauses scope shown cs = .error e) : Refuses (Value.everyClause cs) e := by
  rw [checkClauses, checkList] at h
  by_cases hempty : cs.isEmpty = true
  · rw [if_pos hempty] at h
    cases h
    exact .inl ⟨_, rfl⟩
  · rw [if_neg hempty] at h
    obtain heach | ⟨_, -, hmixed⟩ := Except.bind_eq_error.1 h
    · exact refuses_checkFrom hnested heach
    · split_ifs at hmixed
      cases hmixed
      exact .inl ⟨_, rfl⟩

theorem refuses_badBody {v body : Value} {scope : Scope} (hv : v.nested? = some (scope, body))
    (hbody : body.listed? = none) {cs : List Value} :
    Refuses (v :: cs) (Error.clause (.badBody body v)).raised := by
  refine .raised fun hwritable => ⟨v, by simp, ?_⟩
  have hshown : v.kind.isWritable = true → body.isWritable = false := by
    simpa [ClauseError.wording] using hwritable
  cases hkind : v.kind.isWritable with
  | false => simp [isUnshowable, hkind]
  | true => simp [isUnshowable, hv, hbody, hshown hkind]

theorem refuses_checkNested {v : Value} {e : Error} (h : checkNested v = .error e) :
    Refuses (v :: v.inside) e := by
  induction v using Value.induct_nested with
  | step v ih =>
    cases hv : v.nested? with
    | none =>
      rw [checkNested_of_none hv] at h
      cases h
    | some nested =>
      obtain ⟨scope, body⟩ := nested
      rw [checkNested_of_nested? hv] at h
      rw [Value.inside_of_nested? hv]
      cases hbody : body.listed? with
      | none =>
        rw [checkBody_of_none hbody] at h
        cases h
        exact refuses_badBody hv hbody
      | some cs =>
        rw [checkBody_of_listed? hbody] at h
        rw [Value.insideBody_of_listed? hbody]
        exact (refuses_checkClauses_of (ih scope body cs hv hbody) h).mono (by simp)

theorem refuses_checkClauses {scope : Scope} {shown : Value} {cs : List Value} {e : Error}
    (h : checkClauses scope shown cs = .error e) : Refuses (Value.everyClause cs) e :=
  refuses_checkClauses_of (fun _ _ => refuses_checkNested) h

end Depth

/-! ## Validation -/

/-- Validation accepts the lists of the grammar and no others.  It refuses a list with an error about
its clauses, with two exceptions: a clause of no known kind whose name, array-like data, has no truth,
and a clause about which no message can be written, for an integer of too many digits in it. -/
theorem validate_iff_isValid (scope : Scope) (cs : List Value) :
    (validate scope (.list cs) = .ok () ↔ IsValid scope cs) ∧
      (¬ IsValid scope cs →
        (∃ e, validate scope (.list cs) = .error (.clause e)) ∨
        (validate scope (.list cs) = .error (.misuse .noTruth) ∧
          ∃ c ∈ Value.everyClause cs, c.isKindless = true) ∨
        validate scope (.list cs) = .error (.misuse .unwritable) ∧
          ∃ c ∈ Value.everyClause cs, isUnshowable c = true) := by
  refine ⟨checkClauses_eq_ok, fun hinvalid => ?_⟩
  rw [validate]
  cases h : checkClauses scope (.list cs) cs with
  | ok u => exact absurd (checkClauses_eq_ok.1 h) hinvalid
  | error e =>
    obtain ⟨k, rfl⟩ | ⟨rfl, hkindless⟩ | ⟨rfl, hunshowable⟩ := refuses_checkClauses h
    · exact .inl ⟨k, rfl⟩
    · exact .inr (.inl ⟨rfl, hkindless⟩)
    · exact .inr (.inr ⟨rfl, hunshowable⟩)

/-- Two branches: a MERGE with both of its assignments and a FOREACH in a FOREACH, and a subquery that
has two branches itself. -/
def twoBranches : List Value := [
  .clause (.merge (.text "a")),
  .clause (.onMerge .onCreate .null),
  .clause (.onMerge .onMatch .null),
  .clause (.forEach .null .null (.builder 0 [
    .assign .null .null,
    .clause (.forEach .null .null (.list [.clause (.create .null)]))])),
  .clause (.union true),
  .clause (.subquery (.tuple [
    .clause (.matching false .null), .clause (.union false), .clause (.matching true .null)])),
  .clause (.returning .null .null)]

theorem validate_iff_isValid_twoBranches :
    validate .statement (.list twoBranches) = .ok () ∧ IsValid .statement twoBranches ∧
      ¬ IsValid .forEach twoBranches ∧
        ∃ e, validate .forEach (.list twoBranches) = .error (.clause e) := by
  have haccepted : validate .statement (.list twoBranches) = .ok () := rfl
  have hrefused : validate .forEach (.list twoBranches) ≠ .ok () := by
    intro h
    cases h
  have hinvalid := fun h => hrefused ((validate_iff_isValid .forEach twoBranches).1.2 h)
  refine ⟨haccepted, (validate_iff_isValid .statement twoBranches).1.1 haccepted, hinvalid, ?_⟩
  obtain herror | ⟨hmisuse, -⟩ | ⟨hmisuse, -⟩ := (validate_iff_isValid .forEach twoBranches).2 hinvalid
  · exact herror
  · cases hmisuse
  · cases hmisuse

/-- A subquery with an integer for a body, one of too many digits. -/
def longBody : Value :=
  .clause (.subquery (.int Numeral.tooLong))

theorem validate_longBody :
    ¬ IsValid .statement [longBody] ∧
      validate .statement (.list [longBody]) = .error (.misuse .unwritable) ∧
      ¬ ∃ e, validate .statement (.list [longBody]) = .error (.clause e) := by
  have hwritable : (Error.clause (.badBody (.int Numeral.tooLong) longBody)).isWritable = false := by
    simp [Error.isWritable, Error.wording?, ClauseError.wording, Value.isWritable_int,
      Numeral.isWritable_tooLong]
  have herror : validate .statement (.list [longBody]) = .error (.misuse .unwritable) :=
    congrArg Except.error (Error.raised_of_not_isWritable hwritable)
  refine ⟨fun hvalid => ?_, herror, ?_⟩
  · have haccepted : validate .statement (.list [longBody]) = .ok () := checkClauses_eq_ok.2 hvalid
    rw [herror] at haccepted
    cases haccepted
  · rintro ⟨e, hclause⟩
    rw [herror] at hclause
    cases hclause

end Query

end CypherCompose
