import CypherCompose.Proofs.ErrorFamily
import CypherCompose.Proofs.SetLayout

/-!
# Assembling valid clauses

A clause is assembled from its own arguments (`readArguments`) and from the clauses of its body.  An
error met on the way is raised by the arguments of some clause, if every clause is of a known kind and
every body lists clauses (`Value.IsSound`, `exists_raises_of_isSound`).  Validation makes sure of both,
at every depth (`isSound_of_isValid`), so that assembly of a valid list fails by arguments only
(`Query.assembly_of_validate`).
-/

namespace CypherCompose

open Value

/-! ## Errors about arguments -/

namespace Error

/-- Errors about the arguments of a clause.  Those of patterns, expressions and parameters, and values
used against their type, come from arguments alone. -/
def IsAboutArguments (c : Value) : Error → Prop
  | .pattern _ | .expr _ | .lateParameter _ | .misuse _ => True
  | .clause e => e.owner? = some c
  | _ => False

theorem admits_isAboutArguments (c v : Value) : Admits (IsAboutArguments c) v :=
  ⟨fun _ => trivial, fun _ => trivial, .inr trivial⟩

theorem covers_isAboutArguments (c v : Value) : Covers (IsAboutArguments c) v :=
  ⟨admits_isAboutArguments c v, .inr fun _ => trivial⟩

theorem coversClause_isAboutArguments (c : Value) : CoversClause (IsAboutArguments c) c :=
  ⟨covers_isAboutArguments c c, fun _ h => h⟩

end Error

/-! ## Tables -/

namespace Registry

variable {α β : Type} {r : Registry} {d : Draft α} {f : α → Draft β} {e : Error} {c : Value}

theorem run_bind_error (h : (r.run (d >>= f)).1 = .error e) :
    (r.run d).1 = .error e ∨ ∃ a r', r.run d = (.ok a, r') ∧ (r'.run (f a)).1 = .error e := by
  rw [run_bind] at h
  rcases hd : r.run d with ⟨e' | a, r'⟩
  · rw [hd] at h
    cases h
    exact .inl rfl
  · rw [hd] at h
    exact .inr ⟨a, r', rfl, h⟩

theorem run_bind_of_error (h : (r.run d).1 = .error e) : (r.run (d >>= f)).1 = .error e := by
  rw [run_bind]
  rcases hd : r.run d with ⟨e' | a, r'⟩
  · rw [hd] at h
    cases h
    rfl
  · rw [hd] at h
    cases h

theorem run_bind_of_ok {a : α} {r' : Registry} (h : r.run d = (.ok a, r')) :
    r.run (d >>= f) = r'.run (f a) := by
  rw [run_bind, h]

/-- Whatever a table refuses, an argument is to blame. -/
theorem isAboutArguments_of_run (hd : d.Blames (Error.IsAboutArguments c))
    (h : (r.run d).1 = .error e) : e.IsAboutArguments c := by
  by_cases hclosed : r.closed = true
  · cases hrequests : d.requests with
    | nil =>
      rw [run, hrequests] at h
      exact hd.error e h
    | cons q qs =>
      rw [run_of_closed hclosed hrequests] at h
      cases h
      split_ifs <;> trivial
  · refine run_error (by simpa using hclosed) (fun entry _ => ?_) hd h
    exact Error.admits_isAboutArguments c entry.2

end Registry

/-! ## Arguments -/

/-- The reading of a clause's own arguments, its body apart. -/
def readArguments : Value → Draft Unit
  | .clause (.subquery _) => .done ()
  | .clause (.forEach source binding body) => do
      let _ ← Expr.ofValue source
      let _ ← readAlias (.clause (.forEach source binding body)) binding
      pure ()
  | v => do
      let _ ← readClause 0 v
      pure ()

theorem readArguments_of_none {v : Value} (h : v.nested? = none) :
    readArguments v = (do
      let _ ← readClause 0 v
      pure ()) := by
  unfold readArguments
  split
  · cases h
  · cases h
  · rfl

theorem blames_readArguments {v : Value} (h : v.isKnownClause = true) :
    (readArguments v).Blames (Error.IsAboutArguments v) := by
  have hcovers := Error.coversClause_isAboutArguments v
  cases hnested : v.nested? with
  | none =>
    rw [readArguments_of_none hnested]
    exact .bind (.clause 0 hcovers h hnested) fun r _ => .pure ()
  | some nested =>
    unfold nested? at hnested
    split at hnested <;> cases hnested
    · exact .done ()
    · refine .bind (Value.blames (Error.covers_isAboutArguments _ _)).expr fun e _ => ?_
      exact .bind (.readAlias hcovers (Error.admits_isAboutArguments _ _)) fun n _ => .pure ()

/-- Only the message about an unknown clause tells a position. -/
theorem readClause_of_isKnownClause {v : Value} (h : v.isKnownClause = true) (i j : Nat) :
    readClause i v = readClause j v := by
  cases v with
  | assign target value => rfl
  | clause f =>
    cases f with
    | unknown k => cases h
    | _ => rfl
  | _ => cases h

/-! ## Errors of assembly -/

/-- Clauses that can be taken apart: of a known kind, and with a body, if they have one, that lists
clauses. -/
def Value.IsSound (c : Value) : Prop :=
  c.isKnownClause = true ∧ ∀ scope body, c.nested? = some (scope, body) → ∃ cs, body.listed? = some cs

/-- An error that a clause's own arguments lead to, with the table as it is when they are met. -/
def Value.Raises (c : Value) (e : Error) : Prop :=
  ∃ r : Registry, (r.run (readArguments c)).1 = .error e

section Errors

variable {r : Registry} {i : Nat} {e : Error} {v body : Value} {cs : List Value}

theorem exists_raises_of_readEachClause
    (h : ∀ c ∈ cs, ∀ (i : Nat) (r : Registry), (r.run (readClause i c)).1 = .error e →
      ∃ d ∈ c :: c.inside, d.Raises e)
    (he : (r.run (readEachClause i cs)).1 = .error e) : ∃ d ∈ everyClause cs, d.Raises e := by
  induction cs generalizing i r with
  | nil => cases he
  | cons c cs ih =>
    rw [List.forall_mem_cons] at h
    rw [everyClause, ← List.cons_append]
    obtain hc | ⟨a, r₁, -, hrest⟩ := Registry.run_bind_error he
    · obtain ⟨d, hd, hraises⟩ := h.1 i r hc
      exact ⟨d, List.mem_append_left _ hd, hraises⟩
    · obtain hcs | ⟨as, r₂, -, hpure⟩ := Registry.run_bind_error hrest
      · obtain ⟨d, hd, hraises⟩ := ih h.2 hcs
        exact ⟨d, List.mem_append_right _ hd, hraises⟩
      · cases hpure

theorem exists_raises_of_readClauses
    (h : ∀ c ∈ cs, ∀ (i : Nat) (r : Registry), (r.run (readClause i c)).1 = .error e →
      ∃ d ∈ c :: c.inside, d.Raises e)
    (he : (r.run (readClauses cs)).1 = .error e) : ∃ d ∈ everyClause cs, d.Raises e := by
  obtain hcs | ⟨as, r₁, -, hpure⟩ := Registry.run_bind_error he
  · exact exists_raises_of_readEachClause h hcs
  · cases hpure

theorem run_readAlias (r : Registry) (c name : Value) :
    (r.run (readAlias c name)).1 = (readAlias c name).outcome := by
  unfold readAlias
  cases Name.ofValue? name <;> rfl

/-- What a clause raises when it is read, it or a clause inside it raises by its arguments. -/
theorem exists_raises_of_readClause (v : Value) (hv : v.IsSound) (hinside : ∀ c ∈ v.inside, c.IsSound)
    (i : Nat) (r : Registry) (he : (r.run (readClause i v)).1 = .error e) :
    ∃ d ∈ v :: v.inside, d.Raises e := by
  induction v using induct_nested generalizing i r with
  | step v ih =>
    cases hnested : v.nested? with
    | none =>
      rw [readClause_of_isKnownClause hv.1 i 0] at he
      refine ⟨v, List.mem_cons_self, r, ?_⟩
      rw [readArguments_of_none hnested]
      exact Registry.run_bind_of_error he
    | some nested =>
      obtain ⟨scope, body⟩ := nested
      obtain ⟨cs, hcs⟩ := hv.2 scope body hnested
      have hinside' := hinside
      rw [inside_of_nested? hnested, insideBody_of_listed? hcs, Query.forall_mem_everyClause] at hinside'
      have hbody {r : Registry} {owner : Value} (he : (r.run (readBody owner body)).1 = .error e) :
          ∃ d ∈ v :: v.inside, d.Raises e := by
        rw [readBody_of_listed? hcs] at he
        obtain ⟨d, hd, hraises⟩ := exists_raises_of_readClauses (fun c hc =>
          ih scope body cs hnested hcs c hc (hinside' c hc).1 (hinside' c hc).2) he
        rw [inside_of_nested? hnested, insideBody_of_listed? hcs]
        exact ⟨d, List.mem_cons_of_mem _ hd, hraises⟩
      unfold nested? at hnested
      split at hnested <;> cases hnested
      · obtain hcall | ⟨ds, r₁, -, hpure⟩ := Registry.run_bind_error he
        · exact hbody hcall
        · cases hpure
      · obtain hsource | ⟨x, r₁, hx, hrest⟩ := Registry.run_bind_error he
        · exact ⟨_, List.mem_cons_self, r, Registry.run_bind_of_error hsource⟩
        obtain hcs | ⟨ds, r₂, -, hrest⟩ := Registry.run_bind_error hrest
        · exact hbody hcs
        obtain halias | ⟨n, r₃, -, hpure⟩ := Registry.run_bind_error hrest
        · -- The name is read after the body, but it does not look into the table.
          refine ⟨_, List.mem_cons_self, r, ?_⟩
          rw [readArguments, Registry.run_bind_of_ok hx]
          apply Registry.run_bind_of_error
          rw [run_readAlias] at halias ⊢
          exact halias
        · cases hpure

theorem isKnownClause_of_hasShape {scope : Scope} (h : Query.HasShape scope cs) :
    ∀ c ∈ cs, c.isKnownClause = true := by
  intro c hc
  obtain ⟨before, after, rfl⟩ := List.append_of_mem hc
  obtain ⟨-, hchecks, -⟩ := Query.hasShape_iff.1 h
  exact (Query.checkClause_eq_ok.1 (hchecks before c after rfl)).1

theorem isSound_of_bodyFits (hknown : v.isKnownClause = true) (h : Query.BodyFits v) : v.IsSound := by
  refine ⟨hknown, fun scope body hbody => ?_⟩
  obtain ⟨cs, hcs, -⟩ := h scope body hbody
  exact ⟨cs, hcs⟩

theorem isSound_inside (v : Value) (hv : Query.BodyFits v) (hinside : ∀ c ∈ v.inside, Query.BodyFits c) :
    ∀ c ∈ v.inside, c.IsSound := by
  induction v using induct_nested with
  | step v ih =>
    cases hnested : v.nested? with
    | none =>
      rw [inside_eq_nil hnested]
      simp
    | some nested =>
      obtain ⟨scope, body⟩ := nested
      obtain ⟨cs, hcs, hshape⟩ := hv scope body hnested
      rw [inside_of_nested? hnested, insideBody_of_listed? hcs] at hinside ⊢
      rw [Query.forall_mem_everyClause] at hinside ⊢
      intro c hc
      obtain ⟨hfits, hfits'⟩ := hinside c hc
      exact ⟨isSound_of_bodyFits (isKnownClause_of_hasShape hshape c hc) hfits,
        ih scope body cs hnested hcs c hc hfits hfits'⟩

/-- Valid clauses can be taken apart, at every depth. -/
theorem isSound_of_isValid {scope : Scope} (h : Query.IsValid scope cs) :
    ∀ c ∈ everyClause cs, c.IsSound := by
  have hbodies := h.bodies
  rw [Query.forall_mem_everyClause] at hbodies ⊢
  intro c hc
  obtain ⟨hfits, hinside⟩ := hbodies c hc
  exact ⟨isSound_of_bodyFits (isKnownClause_of_hasShape h.shape c hc) hfits,
    isSound_inside c hfits hinside⟩

theorem exists_raises_of_isSound (h : ∀ c ∈ everyClause cs, c.IsSound)
    (he : (r.run (readClauses cs)).1 = .error e) :
    ∃ c ∈ everyClause cs, c.Raises e ∧ e.IsAboutArguments c := by
  have hsound := Query.forall_mem_everyClause.1 h
  obtain ⟨c, hc, r', hraises⟩ := exists_raises_of_readClauses (fun c hc =>
    exists_raises_of_readClause c (hsound c hc).1 (hsound c hc).2) he
  have hblames := blames_readArguments (h c hc).1
  exact ⟨c, hc, ⟨r', hraises⟩, Registry.isAboutArguments_of_run hblames hraises⟩

end Errors

/-! ## Lists at every depth -/

namespace Value

/-- The lists that clauses are assembled from: the list itself, and the bodies of clauses in it, at any
depth. -/
def IsListIn (v clauses : Value) : Prop :=
  v = clauses ∨ ∃ cs, clauses.listed? = some cs ∧
    ∃ c ∈ everyClause cs, ∃ scope, c.nested? = some (scope, v)

theorem mem_inside_trans (v : Value) {c d : Value} (hc : c ∈ v.inside) (hd : d ∈ c.inside) :
    d ∈ v.inside := by
  induction v using induct_nested with
  | step v ih =>
    cases hnested : v.nested? with
    | none =>
      rw [inside_eq_nil hnested] at hc
      cases hc
    | some nested =>
      obtain ⟨scope, body⟩ := nested
      cases hcs : body.listed? with
      | none =>
        rw [inside_of_nested? hnested, insideBody_eq_nil hcs] at hc
        cases hc
      | some cs =>
        rw [inside_of_nested? hnested, insideBody_of_listed? hcs, mem_everyClause] at hc ⊢
        obtain ⟨b, hb, rfl | hc⟩ := hc
        · exact ⟨c, hb, .inr hd⟩
        · exact ⟨b, hb, .inr (ih scope body cs hnested hcs b hb hc)⟩

theorem mem_everyClause_trans {cs : List Value} {c d : Value} (hc : c ∈ everyClause cs)
    (hd : d ∈ c.inside) : d ∈ everyClause cs := by
  obtain ⟨b, hb, rfl | hc⟩ := mem_everyClause.1 hc
  · exact mem_everyClause.2 ⟨c, hb, .inr hd⟩
  · exact mem_everyClause.2 ⟨b, hb, .inr (mem_inside_trans b hc hd)⟩

theorem items?_of_listed? {v : Value} {cs : List Value} (h : v.listed? = some cs) :
    v.items? = some cs := by
  unfold listed? at h
  split at h <;> cases h <;> rfl

end Value

namespace Query

variable {scope : Scope} {clauses v : Value} {cs : List Value}

theorem exists_isValid_of_validate (h : validate scope clauses = .ok ()) :
    ∃ cs, clauses.listed? = some cs ∧ IsValid scope cs := by
  unfold validate at h
  split at h
  · exact ⟨_, rfl, checkClauses_eq_ok.1 h⟩
  · exact ⟨_, rfl, checkClauses_eq_ok.1 h⟩
  · cases h

/-- The bodies inside a valid list list clauses, all of which are in the valid list. -/
theorem exists_listed?_of_isListIn (hclauses : clauses.listed? = some cs) (h : IsValid scope cs)
    (hv : v.IsListIn clauses) :
    ∃ ds, v.listed? = some ds ∧ ∀ d ∈ everyClause ds, d ∈ everyClause cs := by
  obtain rfl | ⟨cs', hcs', c, hc, inner, hnested⟩ := hv
  · exact ⟨cs, hclauses, fun d hd => hd⟩
  · obtain rfl : cs = cs' := Option.some.inj (hclauses.symm.trans hcs')
    obtain ⟨ds, hds, -⟩ := h.bodies c hc inner v hnested
    refine ⟨ds, hds, fun d hd => mem_everyClause_trans hc ?_⟩
    rwa [inside_of_nested? hnested, insideBody_of_listed? hds]

/-- A list that is accepted, in whatever scope, can be assembled but for the arguments of its clauses.
The list and every body in it list clauses and tell whether they change the database; all clauses in
them are of known kinds and have no bad bodies.  An error met while one of them is assembled is no error
about an unknown clause or a bad body, but one that the arguments of a clause in it, at some depth, lead
to, and it is about them. -/
theorem assembly_of_validate (h : validate scope clauses = .ok ()) (hv : v.IsListIn clauses) :
    ∃ ds, v.listed? = some ds ∧ (∀ owner, readBody owner v = readClauses ds) ∧
      (∃ b, hasMutations v = .ok b) ∧ (∀ c ∈ everyClause ds, c.IsSound) ∧
      ∀ (r : Registry) (e : Error), (r.run (readClauses ds)).1 = .error e →
        (∀ i c, e ≠ .clause (.unknownClause i c)) ∧ (∀ body c, e ≠ .clause (.badBody body c)) ∧
          ∃ c ∈ everyClause ds, c.Raises e ∧ e.IsAboutArguments c := by
  obtain ⟨cs, hcs, hvalid⟩ := exists_isValid_of_validate h
  obtain ⟨ds, hds, hsub⟩ := exists_listed?_of_isListIn hcs hvalid hv
  have hsound : ∀ c ∈ everyClause ds, c.IsSound := fun c hc => isSound_of_isValid hvalid c (hsub c hc)
  refine ⟨ds, hds, fun owner => readBody_of_listed? hds, ?_, hsound, fun r e he => ?_⟩
  · rw [hasMutations, items?_of_listed? hds]
    exact ⟨_, anyMutates_eq fun c hc => hvalid.bodies c (hsub c hc)⟩
  · obtain ⟨c, hc, hraises, habout⟩ := exists_raises_of_isSound hsound he
    refine ⟨?_, ?_, c, hc, hraises, habout⟩
    · rintro i d rfl
      cases habout
    · rintro body d rfl
      cases habout

/-- A body with a MERGE of two patterns. -/
def twoPatterns : List Value :=
  [.clause (.create (.text "c")), .clause (.merge (.list [.text "a", .text "b"]))]

/-- A FOREACH over it. -/
def loopOverPatterns : Value :=
  .clause (.forEach (.list [.int 1, .int 2]) (.text "x") (.builder 0 twoPatterns))

/-- A subquery around it. -/
def nestedPatterns : Value :=
  .tuple [.clause (.subquery (.list [loopOverPatterns]))]

theorem assembly_of_validate_nestedPatterns :
    validate (.other "procedure") nestedPatterns = .ok () ∧
    (Value.builder 0 twoPatterns).IsListIn nestedPatterns ∧
    ∃ e, (Registry.empty.run (readClauses twoPatterns)).1 = .error e ∧
      ∃ c ∈ everyClause twoPatterns, c.Raises e ∧ e.IsAboutArguments c := by
  have hvalid : validate (.other "procedure") nestedPatterns = .ok () := rfl
  have hloop : loopOverPatterns ∈ everyClause [.clause (.subquery (.list [loopOverPatterns]))] := by
    simp [everyClause, inside, insideBody]
  have hlist : (Value.builder 0 twoPatterns).IsListIn nestedPatterns :=
    .inr ⟨_, rfl, loopOverPatterns, hloop, .forEach, rfl⟩
  have herror : (Registry.empty.run (readClauses twoPatterns)).1 =
      .error (.clause (.mergeCount 2 (.clause (.merge (.list [.text "a", .text "b"]))))) := rfl
  obtain ⟨ds, hds, -, -, -, herrors⟩ := assembly_of_validate hvalid hlist
  obtain rfl : twoPatterns = ds := Option.some.inj hds
  obtain ⟨-, -, hraises⟩ := herrors Registry.empty _ herror
  exact ⟨hvalid, hlist, _, herror, hraises⟩

end Query

end CypherCompose
