import CypherCompose.Proofs.AccessModes
import CypherCompose.Proofs.ClauseArguments
import CypherCompose.Proofs.TableHistory

/-!
# Compile errors are about the query

A well-typed query that does not compile is refused by an error about its clauses, patterns or
expressions, or about parameters without a value.  One more error is left, that an integer has too many
digits to be written, and it comes up only if the query holds such an integer (`Error.ArisesFrom`).  The
stages of `Statement.compile` fail each in its own way:

* validation only by errors of clauses, since the kinds of unknown clauses are texts
  (`refuses_checkClauses`, `Covers.everyClause`);
* reading only by errors about the query (`Draft.Blames.clauses`), and an open table refuses a request
  only by an error of an expression (`Registry.enterAll_error`);
* settling with no map or a map only by listing the names without a value (`Registry.finalize_eq`);
* inferring the mode not at all, as the clauses are valid (`Query.inferMode_eq`).
-/

namespace CypherCompose

open Error (Admits Covers)

/-! ## Clauses of well-typed queries -/

namespace WellTyped

variable {v : Value} {cs : List Value}

theorem isText_of_isNamed (h : Query.isNamed v = true) : v.isText = true := by
  unfold Query.isNamed at h
  unfold Value.isText
  cases htext : v.text? with
  | none =>
    rw [htext] at h
    cases h
  | some s => rfl

theorem matching {binding label : Value} (hb : WellTyped binding) (hl : WellTyped label)
    (hnamed : Query.isNamed binding = true) (hlabelled : Query.isNamed label = true) :
    WellTyped (.clause (.matching false (.nodeRef binding label .null))) := by
  have hnode : WellTyped (.nodeRef binding label .null) := by
    refine .intro ?_ (by simp [Value.parts, hb, hl, WellTyped.atom])
    simp [Value.fieldsFit, Value.isOptionalText, Value.isOptionalMap, isText_of_isNamed hnamed,
      isText_of_isNamed hlabelled]
  exact .intro rfl (by simpa [Value.parts, Value.clauseParts] using hnode)

theorem returning {projection : Value} (h : WellTyped projection) :
    WellTyped (.clause (.returning (.list [projection]) (.bool false))) := by
  have hitems : WellTyped (.list [projection]) := .intro rfl (by simpa [Value.parts] using h)
  exact .intro rfl (by simpa [Value.parts, Value.clauseParts, WellTyped.atom] using hitems)

theorem filter {conditions : Value} (h : WellTyped conditions) :
    WellTyped (.clause (.filter conditions)) :=
  .intro rfl (by simpa [Value.parts, Value.clauseParts] using h)

/-- The clauses that a comprehension stands for are well typed, since its two names are checked. -/
theorem desugar {projection binding label condition : Value}
    (h : WellTyped (.comprehension projection binding label condition))
    (hcs : Query.desugar (.comprehension projection binding label condition) = .ok cs) :
    ∀ c ∈ cs, WellTyped c := by
  have hreturn := returning (h.parts projection (by simp [Value.parts]))
  have hwhere := filter (h.parts condition (by simp [Value.parts]))
  simp only [Query.desugar] at hcs
  split_ifs at hcs with hnamed hlabelled
  all_goals
    have hmatch := matching (h.parts binding (by simp [Value.parts]))
      (h.parts label (by simp [Value.parts])) (by simpa using hnamed) (by simpa using hlabelled)
    cases hcs
    simp [hmatch, hreturn, hwhere]

end WellTyped

namespace Value

variable {v : Value} {cs : List Value}

theorem isWritable_of_mem_desugar {projection binding label condition : Value}
    (h : (comprehension projection binding label condition).isWritable = true)
    (hcs : Query.desugar (.comprehension projection binding label condition) = .ok cs) :
    ∀ c ∈ cs, c.isWritable = true := by
  have hpart {w : Value} (hw : w ∈ [projection, binding, label, condition]) : w.isWritable = true :=
    isWritable_of_mem_parts h hw
  have hnode : (nodeRef binding label .null).isWritable = true := by
    refine Bool.and_eq_true_iff.2 ⟨hpart (by simp), ?_⟩
    exact (Bool.and_true _).trans (hpart (by simp))
  have hplain : (bool false).isWritable = true := rfl
  simp only [Query.desugar] at hcs
  split_ifs at hcs <;> cases hcs <;>
    simp [isWritable_clause, isWritable_list, clauseParts, hnode, hplain, hpart]

theorem mem_parts_of_nested? {scope : Scope} {body : Value} (h : v.nested? = some (scope, body)) :
    body ∈ v.parts := by
  unfold nested? at h
  split at h <;> cases h <;> simp [parts, clauseParts]

theorem parts_of_listed? (h : v.listed? = some cs) : v.parts = cs := by
  unfold listed? at h
  split at h <;> cases h <;> rfl

theorem insideBody_eq_nil (h : v.listed? = none) : v.insideBody = [] := by
  unfold insideBody
  split
  · cases h
  · cases h
  · cases h
  · rfl

end Value

namespace Error.Covers

variable {P : Error → Prop} {v : Value} {cs : List Value}

/-- The clauses of a query are covered with it, also those that a comprehension stands for. -/
theorem clausesOf {query : Value} (h : Covers P query) (hcs : Query.clausesOf query = .ok cs) :
    ∀ c ∈ cs, Covers P c := by
  cases query with
  | list xs =>
    cases hcs
    exact fun c hc => h.parts hc
  | tuple xs =>
    cases hcs
    exact fun c hc => h.parts hc
  | builder cell xs =>
    cases hcs
    exact fun c hc => h.parts hc
  | clause f =>
    cases hcs
    exact fun c hc => List.mem_singleton.1 hc ▸ h
  | assign target value =>
    cases hcs
    exact fun c hc => List.mem_singleton.1 hc ▸ h
  | comprehension projection binding label condition =>
    exact fun c hc => ⟨h.of_imp fun hw => Value.isWritable_of_mem_desugar hw hcs c hc,
      h.misuse.imp_left fun ht => ht.desugar hcs c hc⟩
  | _ => cases hcs

theorem inside (v : Value) (h : Covers P v) : ∀ c ∈ v.inside, Covers P c := by
  induction v using Value.induct_nested with
  | step v ih =>
    cases hv : v.nested? with
    | none =>
      rw [Value.inside_eq_nil hv]
      simp
    | some nested =>
      obtain ⟨scope, body⟩ := nested
      have hbody : Covers P body := h.parts (Value.mem_parts_of_nested? hv)
      rw [Value.inside_of_nested? hv]
      cases hcs : body.listed? with
      | none =>
        rw [Value.insideBody_eq_nil hcs]
        simp
      | some cs =>
        rw [Value.insideBody_of_listed? hcs]
        have hlisted : ∀ c ∈ cs, Covers P c :=
          fun c hc => hbody.parts (Value.parts_of_listed? hcs ▸ hc)
        refine Query.forall_mem_everyClause.2 fun c hc => ⟨hlisted c hc, ?_⟩
        exact ih scope body cs hv hcs c hc (hlisted c hc)

theorem everyClause (h : ∀ c ∈ cs, Covers P c) : ∀ c ∈ Value.everyClause cs, Covers P c :=
  Query.forall_mem_everyClause.2 fun c hc => ⟨h c hc, inside c (h c hc)⟩

end Error.Covers

/-! ## Readings of clauses -/

namespace Draft.Blames

variable {P : Error → Prop} {c v : Value}

theorem raised_unknownClause (hP : ∀ e, P (.clause e)) (h : Covers P v) (i : Nat) :
    P (Error.clause (.unknownClause i v)).raised := by
  refine Error.raised_of (hP _) (h.shows.imp_left fun hw => ?_)
  simp [Error.isWritable, Error.wording?, ClauseError.wording, Value.isWritable_kind hw]

theorem raised_badBody (hP : ∀ e, P (.clause e)) {owner : Value} (howner : Covers P owner)
    (hv : v ∈ owner.parts) : P (Error.clause (.badBody v owner)).raised := by
  refine Error.raised_of (hP _) (howner.shows.imp_left fun hw => ?_)
  have hbody : v.isWritable = true := Value.isWritable_of_mem_parts hw hv
  simp [Error.isWritable, Error.wording?, ClauseError.wording, Value.isWritable_kind hw, hbody]

mutual

theorem anyClause (hP : ∀ e, P (.clause e)) (i : Nat) (v : Value) (h : Covers P v) :
    Blames P (readClause i v) := by
  have hclause : Error.CoversClause P v := ⟨h, fun e _ => hP e⟩
  cases v with
  | assign target value => exact clause i hclause rfl rfl
  | clause f =>
    cases f with
    | subquery b =>
      exact bind (body hP b (by simp [Value.parts, Value.clauseParts]) h) fun cs _ => pure _
    | forEach source binding b =>
      have hsource := h.parts (w := source) (by simp [Value.parts, Value.clauseParts])
      have hbinding := h.parts (w := binding) (by simp [Value.parts, Value.clauseParts])
      refine bind (Value.blames hsource).expr fun e _ => ?_
      refine bind (body hP b (by simp [Value.parts, Value.clauseParts]) h) fun cs _ => ?_
      exact bind (readAlias hclause hbinding.toAdmits) fun n _ => pure _
    | unknown kind => exact bind (fail (raised_unknownClause hP h i)) fun c _ => pure _
    | _ => exact clause i hclause rfl rfl
  | _ => exact bind (fail (raised_unknownClause hP h i)) fun c _ => pure _

theorem body (hP : ∀ e, P (.clause e)) {owner : Value} (v : Value) (hv : v ∈ owner.parts)
    (h : Covers P owner) : Blames P (readBody owner v) := by
  have hbody := h.parts hv
  cases v with
  | list xs => exact bind (each hP 0 xs fun x hx => hbody.parts hx) fun rs _ => pure _
  | tuple xs => exact bind (each hP 0 xs fun x hx => hbody.parts hx) fun rs _ => pure _
  | builder cell xs => exact bind (each hP 0 xs fun x hx => hbody.parts hx) fun rs _ => pure _
  | _ => exact fail (raised_badBody hP h hv)

theorem each (hP : ∀ e, P (.clause e)) : ∀ (i : Nat) (vs : List Value), (∀ v ∈ vs, Covers P v) →
    Blames P (readEachClause i vs)
  | _, [], _ => done []
  | i, v :: vs, h => by
    rw [List.forall_mem_cons] at h
    exact bind (anyClause hP i v h.1) fun r _ => bind (each hP (i + 1) vs h.2) fun rs _ => pure _

end

theorem clauses (hP : ∀ e, P (.clause e)) {vs : List Value} (h : ∀ v ∈ vs, Covers P v) :
    Blames P (readClauses vs) :=
  bind (each hP 0 vs h) fun _ _ => pure _

end Draft.Blames

/-! ## Tables -/

namespace Registry

variable {P : Error → Prop} {r r' : Registry} {q : Request} {e : Error}

theorem register_error (hopen : r.closed = false) (hstored : ∀ entry ∈ r.entries, Admits P entry.2)
    (hname : Admits P q.name) (hvalue : Admits P q.value) (h : r.register q = .error e) : P e := by
  unfold register at h
  rw [if_neg (by simp [hopen])] at h
  split at h
  · cases h
    exact hname.raised_expr fun hw => by simp [ExprError.wording, hw]
  · split at h
    · cases h
    · rename_i current hfind
      split_ifs at h
      cases h
      obtain ⟨entry, hentry, rfl⟩ := Option.map_eq_some_iff.1 hfind
      refine Error.raised_of (hname.expr _) ?_
      obtain hn | hP := hname.shows
      · obtain hv | hP := hvalue.shows
        · refine (hstored entry (List.mem_of_find?_eq_some hentry)).shows.imp_left fun hc => ?_
          simp [Error.isWritable, Error.wording?, ExprError.wording, hn, hv, hc]
        · exact .inr hP
      · exact .inr hP

theorem stored_register (hstored : ∀ entry ∈ r.entries, Admits P entry.2) (hvalue : Admits P q.value)
    (h : r.register q = .ok r') : ∀ entry ∈ r'.entries, Admits P entry.2 := by
  obtain ⟨n, -, -, ⟨-, rfl⟩ | ⟨v, -, ⟨-, rfl⟩ | ⟨-, -, rfl⟩⟩⟩ := register_eq_ok h
  · rw [List.forall_mem_append]
    exact ⟨hstored, by simpa using hvalue⟩
  · exact hstored
  · refine List.forall_mem_map.2 fun entry hentry => ?_
    split_ifs
    · exact hvalue
    · exact hstored entry hentry

/-- An open table refuses a name that is not plain and a second value, and nothing else. -/
theorem enterAll_error {qs : List Request} (hopen : r.closed = false)
    (hstored : ∀ entry ∈ r.entries, Admits P entry.2)
    (hqs : ∀ q ∈ qs, Admits P q.name ∧ Admits P q.value) (h : r.enterAll qs = (r', some e)) : P e := by
  induction qs generalizing r with
  | nil => cases h
  | cons q qs ih =>
    rw [List.forall_mem_cons] at hqs
    rw [enterAll] at h
    cases hq : r.register q with
    | error e' =>
      rw [hq] at h
      cases h
      exact register_error hopen hstored hqs.1.1 hqs.1.2 hq
    | ok r₁ =>
      rw [hq] at h
      exact ih (closed_register hq) (stored_register hstored hqs.1.2 hq) hqs.2 h

theorem run_error {α : Type} {d : Draft α} (hopen : r.closed = false)
    (hstored : ∀ entry ∈ r.entries, Admits P entry.2) (hd : d.Blames P)
    (h : (r.run d).1 = .error e) : P e := by
  unfold run at h
  split at h
  · exact hd.error e h
  · rename_i henter
    cases h
    exact enterAll_error hopen hstored hd.requests henter

end Registry

/-! ## Statements -/

/-- Errors that say what is wrong with a query. -/
def Error.isAboutQuery : Error → Bool
  | .pattern _ | .expr _ | .clause _ => true
  | _ => false

/-- Errors about a query, and that an integer is too long to be written if the query holds one. -/
def Error.ArisesFrom (query : Value) (e : Error) : Prop :=
  e.isAboutQuery = true ∨ e = .misuse .unwritable ∧ query.isWritable = false

theorem WellTyped.covers {query : Value} (h : WellTyped query) :
    Covers (Error.ArisesFrom query) query where
  pattern p := .inl rfl
  expr x := .inl rfl
  shows := by
    cases hw : query.isWritable with
    | true => exact .inl rfl
    | false => exact .inr (.inr ⟨rfl, hw⟩)
  misuse := .inl h

namespace Statement

variable {query parameters override : Value} {clauses : List Value} {e : Error}

theorem not_isKindless {c : Value} (h : c.fieldsFit = true) : c.isKindless = false := by
  unfold Value.isKindless
  split
  · rename_i kind
    have htext : kind.isText = true := h
    cases kind with
    | atom a => cases a <;> cases htext <;> rfl
    | _ => rfl
  · rfl

theorem not_isUnshowable {c : Value} (h : c.isWritable = true) : Query.isUnshowable c = false := by
  rw [Query.isUnshowable, Value.isWritable_kind h]
  cases hnested : c.nested? with
  | none => rfl
  | some nested =>
    have hbody := Value.isWritable_of_mem_parts h (Value.mem_parts_of_nested? hnested)
    simp [hbody]

theorem clausesOf_error (h : Query.clausesOf query = .error e) : e.ArisesFrom query := by
  have hraised (k : ClauseError) (hk : query.isWritable = true → k.wording.isWritable = true) :
      (Error.clause k).raised.ArisesFrom query := by
    refine Error.raised_of (.inl rfl) ?_
    cases hw : query.isWritable with
    | true => exact .inl (hk hw)
    | false => exact .inr (.inr ⟨rfl, hw⟩)
  cases query with
  | comprehension projection binding label filter =>
    simp only [Query.clausesOf, Query.desugar] at h
    split_ifs at h <;> cases h
    all_goals exact hraised _ fun hw => by simp [ClauseError.wording, hw]
  | list xs => cases h
  | tuple xs => cases h
  | builder cell xs => cases h
  | clause f => cases h
  | assign target value => cases h
  | _ =>
    cases h
    exact hraised _ fun _ => rfl

theorem checkClauses_error (hcovers : ∀ c ∈ clauses, Covers (Error.ArisesFrom query) c) {shown : Value}
    (h : Query.checkClauses .statement shown clauses = .error e) : e.ArisesFrom query := by
  have hevery := Covers.everyClause hcovers
  obtain ⟨k, rfl⟩ | ⟨-, c, hc, hkindless⟩ | ⟨rfl, c, hc, hunshowable⟩ := Query.refuses_checkClauses h
  · exact .inl rfl
  · obtain ht | hP := (hevery c hc).fits
    · rw [not_isKindless ht] at hkindless
      cases hkindless
    · obtain hP | ⟨hP, -⟩ := hP .noTruth <;> cases hP
  · obtain hw | hP := (hevery c hc).shows
    · rw [not_isUnshowable hw] at hunshowable
      cases hunshowable
    · exact hP

theorem exists_inferMode (hvalid : Query.IsValid .statement clauses)
    (hoverride : override = .null ∨ ∃ m, Query.accessModeOf override = .ok m) :
    ∃ m, Query.inferMode (.list clauses) override = .ok m := by
  obtain rfl | ⟨m, hm⟩ := hoverride
  · exact ⟨_, Query.inferMode_eq hvalid.bodies⟩
  · unfold Query.inferMode
    by_cases hnull : override.isNull = true
    · obtain rfl := Value.eq_null_of_isNull hnull
      exact ⟨_, Query.inferMode_eq hvalid.bodies⟩
    · rw [if_neg hnull]
      exact ⟨m, hm⟩

theorem ofClauses_error (hcovers : ∀ c ∈ clauses, Covers (Error.ArisesFrom query) c)
    (hparameters : parameters = .null ∨ ∃ es, parameters = .map es)
    (hoverride : override = .null ∨ ∃ m, Query.accessModeOf override = .ok m)
    (h : ofClauses clauses parameters override = .error e) :
    e.ArisesFrom query ∨ ∃ names, e = .unbound names := by
  unfold ofClauses at h
  obtain hcheck | ⟨_, hcheck, h⟩ := Except.bind_eq_error.1 h
  · exact .inl (checkClauses_error hcovers hcheck)
  rcases hrun : Registry.empty.run (readClauses clauses) with ⟨outcome, r⟩
  rw [hrun] at h
  obtain hread | ⟨cs, hread, h⟩ := Except.bind_eq_error.1 h
  · have hblames := Draft.Blames.clauses (fun _ => .inl rfl) hcovers
    exact .inl (Registry.run_error (r := .empty) rfl nofun hblames (by rw [hrun, hread]))
  obtain hsettle | ⟨table, hsettle, h⟩ := Except.bind_eq_error.1 h
  · right
    have hes : ∃ es, parameters = .null ∧ es = [] ∨ parameters = .map es := by
      obtain rfl | ⟨es, rfl⟩ := hparameters
      · exact ⟨[], .inl ⟨rfl, rfl⟩⟩
      · exact ⟨es, .inr rfl⟩
    obtain ⟨es, hes⟩ := hes
    obtain ⟨-, t, ht⟩ | ⟨-, ht⟩ := Registry.finalize_eq (r := r) hes
    · rw [ht] at hsettle
      cases hsettle
    · rw [ht] at hsettle
      exact ⟨_, (Except.error.inj hsettle).symm⟩
  · obtain ⟨m, hm⟩ := exists_inferMode (Query.checkClauses_eq_ok.1 hcheck) hoverride
    rw [hm] at h
    cases h

/-- A well-typed query that does not compile, with no map or a map of the caller's values and with no
override or one that is a mode, is refused by an error of its clauses, patterns or expressions, by the
list of the parameters that have no value, or, if the query holds an integer that is too long to be
written, by the error about that. -/
theorem compile_error_cases (hquery : WellTyped query)
    (hparameters : parameters = .null ∨ ∃ es, parameters = .map es)
    (hoverride : override = .null ∨ ∃ m, Query.accessModeOf override = .ok m)
    (h : compile query parameters override = .error e) :
    (∃ c, e = .clause c) ∨ (∃ p, e = .pattern p) ∨ (∃ x, e = .expr x) ∨
      (∃ names, e = .unbound names) ∨ e = .misuse .unwritable ∧ query.isWritable = false := by
  have hcases : e.ArisesFrom query ∨ ∃ names, e = .unbound names := by
    unfold compile at h
    split at h
    · rename_i hclauses
      cases h
      exact .inl (clausesOf_error hclauses)
    · rename_i clauses hclauses
      exact ofClauses_error (hquery.covers.clausesOf hclauses) hparameters hoverride h
  obtain (habout | hunwritable) | hunbound := hcases
  · unfold Error.isAboutQuery at habout
    split at habout
    · exact .inr (.inl ⟨_, rfl⟩)
    · exact .inr (.inr (.inl ⟨_, rfl⟩))
    · exact .inl ⟨_, rfl⟩
    · cases habout
  · exact .inr (.inr (.inr (.inr hunwritable)))
  · exact .inr (.inr (.inr (.inl hunbound)))

/-- A map in the place of hops. -/
def mappedHops : Value :=
  .relRef .null (.text "R") (.map [(.text "least", .int 1)]) .null

/-- A chain over it, in a subquery. -/
def mappedHopsQuery : Value := .list [
  .clause (.subquery (.tuple [
    .clause (.create (.chain (.list [.text "a", mappedHops, .text "b"])
      (.tuple [.atom (.direction .forward), .text "forward"])))]))]

theorem compile_error_cases_mappedHopsQuery :
    WellTyped mappedHopsQuery ∧ ∃ e, compile mappedHopsQuery (.map []) (.text "Write") = .error e ∧
      ((∃ c, e = .clause c) ∨ (∃ p, e = .pattern p) ∨ (∃ x, e = .expr x) ∨
        (∃ names, e = .unbound names) ∨
        e = .misuse .unwritable ∧ mappedHopsQuery.isWritable = false) := by
  have hrel : WellTyped mappedHops := by
    have hhops : WellTyped (.map [(.text "least", .int 1)]) :=
      .intro rfl (by simp [Value.parts, WellTyped.atom])
    exact .intro rfl (by simp [mappedHops, Value.parts, WellTyped.atom, hhops])
  have hchain : WellTyped (.chain (.list [.text "a", mappedHops, .text "b"])
      (.tuple [.atom (.direction .forward), .text "forward"])) := by
    have helements : WellTyped (.list [.text "a", mappedHops, .text "b"]) :=
      .intro rfl (by simp [Value.parts, WellTyped.atom, hrel])
    have hsteps : WellTyped (.tuple [.atom (.direction .forward), .text "forward"]) :=
      .intro rfl (by simp [Value.parts, WellTyped.atom])
    exact .intro rfl (by simp [Value.parts, helements, hsteps])
  have hquery : WellTyped mappedHopsQuery := by
    have hcreate := WellTyped.intro (v := .clause (.create (.chain
      (.list [.text "a", mappedHops, .text "b"])
      (.tuple [.atom (.direction .forward), .text "forward"])))) rfl
      (by simpa [Value.parts, Value.clauseParts] using hchain)
    have hbody := WellTyped.intro (v := .tuple [_]) rfl (by simpa [Value.parts] using hcreate)
    have hcall := WellTyped.intro (v := .clause (.subquery _)) rfl
      (by simpa [Value.parts, Value.clauseParts] using hbody)
    exact .intro rfl (by simpa [mappedHopsQuery, Value.parts] using hcall)
  refine ⟨hquery, ?_⟩
  cases h : compile mappedHopsQuery (.map []) (.text "Write") with
  | ok s =>
    have hfails : (compile mappedHopsQuery (.map []) (.text "Write")).toOption.isNone = true := by
      decide +kernel
    rw [h] at hfails
    cases hfails
  | error e =>
    exact ⟨e, rfl, compile_error_cases hquery (.inr ⟨[], rfl⟩) (.inr ⟨.write, rfl⟩) h⟩

/-- A query that skips rows. -/
def skipping (n : Int) : Value :=
  .list [.clause (.skip (.int n))]

/-- A number of rows that has too many digits is refused by none of the errors about a query. -/
theorem compile_skipping_tooLong :
    WellTyped (skipping Numeral.tooLong) ∧
      compile (skipping Numeral.tooLong) .null .null = .error (.misuse .unwritable) := by
  constructor
  · have hskip := WellTyped.intro (v := .clause (.skip (.int Numeral.tooLong))) rfl
      (by simp [Value.parts, Value.clauseParts, WellTyped.atom])
    exact .intro rfl (by simpa [skipping, Value.parts] using hskip)
  · have hcount : readCount (.clause (.skip (.int Numeral.tooLong))) (.int Numeral.tooLong) =
        .fail (.misuse .unwritable) := by
      have hpos : ¬ Numeral.tooLong < 0 := Int.not_lt.2 (Int.natCast_nonneg _)
      rw [readCount, if_neg hpos, Draft.integer, Numeral.isWritable_tooLong]
      rfl
    have hrun : Registry.empty.run (readClauses [.clause (.skip (.int Numeral.tooLong))]) =
        (.error (.misuse .unwritable), Registry.empty) := by
      simp only [readClauses, readEachClause, readClause, readPlain, hcount]
      rfl
    show ofClauses [_] .null .null = _
    rw [ofClauses, hrun]
    rfl

end Statement

end CypherCompose
