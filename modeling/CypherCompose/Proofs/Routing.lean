import CypherCompose.Connection
import CypherCompose.Proofs.AccessModes

/-!
# Statements are routed once, unchanged and by mode

A call on a connection asks for a job: a statement, its parameters and the access mode (`Call.job`).
A call that asks for none has failed before the driver sees anything of it.  Any other hands the driver
one session, on the connection's database if that is named, around one transaction of the job's mode
(`step_call`).  Of the driver it is assumed that its sessions are context managers
(`Driver.ManagesSessions`) and that its transactions do their work once (`Driver.CallsWorkOnce`).  Then
its log of any sequence of calls is made of the traces of their jobs, in order (`log_eq`).
-/

namespace CypherCompose

/-! ## Drivers -/

namespace Driver

/-- Sessions are context managers: the body runs between entering and leaving, and its error is seen on
leaving. -/
def ManagesSessions (d : Driver) : Prop :=
  ∀ database body, (d.session database body).events =
    [Event.session database, .enter] ++ body.events ++ [Event.exit body.error?]

/-- Transactions do their work once. -/
def CallsWorkOnce (d : Driver) : Prop :=
  ∀ mode work, (d.transaction mode work).events = .transaction mode :: work.events

/-- Neither a session nor a transaction changes what its body comes to. -/
def HandsOn (d : Driver) : Prop :=
  (∀ database body, (d.session database body).result = body.result) ∧
    ∀ mode work, (d.transaction mode work).result = work.result

theorem managesSessions_fixed (rows : List Value) (fail : Option String) :
    (fixed rows fail).ManagesSessions :=
  fun _ _ => rfl

theorem callsWorkOnce_fixed (rows : List Value) (fail : Option String) :
    (fixed rows fail).CallsWorkOnce :=
  fun _ _ => rfl

end Driver

namespace Connection

/-! ## Calls and their jobs -/

/-- A call that runs one statement. -/
inductive Call where
  | run (query parameters override : Value)
  /-- A statement with its parameters and its mode. -/
  | runStatement (text : Value) (parameters : List (Value × Value)) (mode : AccessMode)
  | executeCypher (cypher parameters mode : Value)

/-- The call as a step on a connection. -/
def Call.step : Call → Step
  | .run query parameters override => .run query parameters override
  | .runStatement text parameters mode =>
      .runStatement (.statement text (.map parameters) (.atom (.mode mode)))
  | .executeCypher cypher parameters mode => .executeCypher cypher parameters mode

/-- What a driver is to do: run a statement with its parameters in a transaction of a mode. -/
structure Job where
  cypher : Value
  parameters : List (Value × Value)
  mode : AccessMode

/-- The job of a compiled statement. -/
def Job.ofStatement (s : Statement) : Job :=
  ⟨.text s.text, s.parameters.map fun p => (p.1.toValue, p.2), s.mode⟩

/-- The job that a call asks for, or why it asks for none: the query does not compile, the mode is
not one, or the parameters are no table. -/
def Call.job : Call → Except Error Job
  | .run query parameters override =>
      (Statement.compile query parameters override).map Job.ofStatement
  | .runStatement text parameters mode => .ok ⟨text, parameters, mode⟩
  | .executeCypher cypher parameters mode =>
      match Query.accessModeOf mode, Mutation.propsOf parameters with
      | .error m, _ => .error (.misuse m)
      | .ok _, .error m => .error (.misuse m)
      | .ok mode, .ok es => .ok ⟨cypher, es, mode⟩

/-- The database that sessions are opened on: the one given, unless it is empty. -/
def target (database : Value) : Option Value :=
  match database.truth with
  | .ok true => some database
  | _ => none

/-- What the transaction of a job comes to. -/
def Job.transaction (d : Driver) (job : Job) : Outcome (List Value) :=
  d.transaction job.mode (work d job.cypher job.parameters)

/-- What a driver sees of a job. -/
def Job.trace (database : Value) (d : Driver) (job : Job) : List Event :=
  [.session (target database), .enter, .transaction job.mode, .run job.cypher job.parameters,
    .exit (job.transaction d).error?]

/-- What is seen of some calls, each with the driver as it is then. -/
def log (c : Connection) (calls : List (Driver × Call)) : List Event :=
  calls.flatMap fun call => (c.step call.1 call.2.step).events

/-- The jobs that some calls ask for. -/
def jobs (calls : List (Driver × Call)) : List (Driver × Job) :=
  calls.filterMap fun call => call.2.job.toOption.map (call.1, ·)

/-- The database of a session that is opened. -/
def sessionOf? : Event → Option (Option Value)
  | .session database => some database
  | _ => none

/-- The statement that is run, and its parameters. -/
def statementOf? : Event → Option (Value × List (Value × Value))
  | .run cypher parameters => some (cypher, parameters)
  | _ => none

/-- The mode of a transaction that is begun. -/
def modeOf? : Event → Option AccessMode
  | .transaction mode => some mode
  | _ => none

/-! ## One call -/

variable {c : Connection} {d : Driver} {hasDriver : Bool} {uri auth database : Value}

theorem result_connect (h : (connect hasDriver uri auth database).result = .ok c) :
    c.database = database ∧ ∃ named, database.truth = .ok named := by
  unfold connect at h
  split at h
  · cases h
  · split at h
    · rename_i named hnamed
      cases h
      exact ⟨rfl, named, hnamed⟩
    · cases h

theorem execute_eq {named : Bool} (h : c.database.truth = .ok named) (d : Driver) (job : Job) :
    c.execute d job.cypher job.parameters job.mode =
      d.session (target c.database) (job.transaction d) := by
  have htarget : (if named then some c.database else none) = target c.database := by
    cases named <;> simp [target, h]
  rw [← htarget, execute, h]
  rfl

/-- A call hands its job to the driver and does nothing else. -/
theorem step_call {named : Bool} (h : c.database.truth = .ok named) (d : Driver) (call : Call) :
    c.step d call.step =
      match call.job with
      | .error e => ⟨.error e, []⟩
      | .ok job => rows (d.session (target c.database) (job.transaction d)) := by
  cases call with
  | run query parameters override =>
    show rows (c.run d query parameters override) = _
    rw [Connection.run, Call.job]
    cases Statement.compile query parameters override with
    | error e => rfl
    | ok s => exact congrArg rows (execute_eq h d (Job.ofStatement s))
  | runStatement text parameters mode => exact congrArg rows (execute_eq h d ⟨text, parameters, mode⟩)
  | executeCypher cypher parameters mode =>
    show rows (c.executeCypher d cypher parameters mode) = _
    rw [Connection.executeCypher, Call.job]
    cases Query.accessModeOf mode with
    | error m => rfl
    | ok mode =>
      cases Mutation.propsOf parameters with
      | error m => rfl
      | ok es => exact congrArg rows (execute_eq h d ⟨cypher, es, mode⟩)

theorem events_session (hsessions : d.ManagesSessions) (hwork : d.CallsWorkOnce) (database : Value)
    (job : Job) :
    (d.session (target database) (job.transaction d)).events = job.trace database d := by
  have htransaction : (job.transaction d).events =
      [.transaction job.mode, .run job.cypher job.parameters] := hwork _ _
  rw [hsessions, htransaction]
  rfl

/-- What a driver that hands on results makes of a job is its answer to the job's statement. -/
theorem result_session (h : d.HandsOn) (target : Option Value) (job : Job) :
    (d.session target (job.transaction d)).result = d.answer job.cypher job.parameters ∧
      (job.transaction d).error? = (work d job.cypher job.parameters).error? := by
  have htransaction : (job.transaction d).result = d.answer job.cypher job.parameters := h.2 _ _
  refine ⟨(h.1 _ _).trans htransaction, ?_⟩
  rw [Outcome.error?, htransaction]
  rfl

/-- Neither no parameters nor a map of them keep a statement from its job. -/
theorem job_executeCypher {cypher parameters mode : Value} {es : List (Value × Value)}
    (h : parameters = .null ∧ es = [] ∨ parameters = .map es) :
    (Call.executeCypher cypher parameters mode).job =
      match Query.accessModeOf mode with
      | .error m => .error (.misuse m)
      | .ok mode => .ok ⟨cypher, es, mode⟩ := by
  have hes : Mutation.propsOf parameters = .ok es := by
    obtain ⟨rfl, rfl⟩ | rfl := h
    · rfl
    · cases es <;> rfl
  rw [Call.job, hes]
  cases Query.accessModeOf mode <;> rfl

theorem job_run_of_mutation {query parameters : Value} {s : Statement} {clauses : List Value}
    (hs : Statement.compile query parameters .null = .ok s)
    (hclauses : Query.clausesOf query = .ok clauses)
    (hchange : ∃ cl ∈ Value.everyClause clauses, cl.typeName ∈ Query.mutationKinds) :
    (Call.run query parameters .null).job =
      .ok ⟨.text s.text, s.parameters.map fun p => (p.1.toValue, p.2), .write⟩ := by
  obtain ⟨clauses', -, -, -, hclauses', hcheck, -, -, -, hmode, -⟩ := Statement.compile_eq_ok.1 hs
  obtain rfl : clauses' = clauses := Except.ok.inj (hclauses'.symm.trans hclauses)
  have hany : (Value.everyClause clauses').any Query.writes = true := by
    simpa [Query.writes] using hchange
  rw [Query.inferMode_eq (Query.checkClauses_eq_ok.1 hcheck).bodies, Query.modeOf, if_pos hany]
    at hmode
  rw [Call.job, hs, Except.ok.inj hmode]
  rfl

/-! ## Sequences of calls -/

theorem log_cons (call : Driver × Call) (calls : List (Driver × Call)) :
    c.log (call :: calls) = (c.step call.1 call.2.step).events ++ c.log calls := by
  simp [log]

theorem jobs_cons_ok {call : Call} {job : Job} (h : call.job = .ok job)
    (calls : List (Driver × Call)) : jobs ((d, call) :: calls) = (d, job) :: jobs calls := by
  simp [jobs, h, Except.toOption]

theorem jobs_cons_error {call : Call} {e : Error} (h : call.job = .error e)
    (calls : List (Driver × Call)) : jobs ((d, call) :: calls) = jobs calls := by
  simp [jobs, h, Except.toOption]

/-- The log of some calls is the log of their jobs. -/
theorem log_eq {named : Bool} (h : c.database.truth = .ok named) {calls : List (Driver × Call)}
    (hsessions : ∀ call ∈ calls, call.1.ManagesSessions)
    (hwork : ∀ call ∈ calls, call.1.CallsWorkOnce) :
    c.log calls = (jobs calls).flatMap fun job => job.2.trace c.database job.1 := by
  induction calls with
  | nil => rfl
  | cons call calls ih =>
    obtain ⟨d, call⟩ := call
    obtain ⟨hsession, hsessions⟩ := List.forall_mem_cons.1 hsessions
    obtain ⟨honce, hwork⟩ := List.forall_mem_cons.1 hwork
    rw [log_cons, step_call h, ih hsessions hwork]
    cases hjob : call.job with
    | error e => rw [jobs_cons_error hjob, List.nil_append]
    | ok job =>
      rw [jobs_cons_ok hjob, List.flatMap_cons]
      exact congrArg (· ++ _) (events_session hsession honce c.database job)

theorem filterMap_traces {α : Type} (f : Event → Option α) (g : Job → α)
    (hg : ∀ (job : Job) (d : Driver), (job.trace database d).filterMap f = [g job])
    (js : List (Driver × Job)) :
    (js.flatMap fun job => job.2.trace database job.1).filterMap f = js.map fun job => g job.2 := by
  induction js with
  | nil => rfl
  | cons j js ih => rw [List.flatMap_cons, List.filterMap_append, hg, ih, List.map_cons]; rfl

/-- Over any sequence of calls on an open connection, with drivers whose sessions are context managers
and whose transactions do their work once, a call that asks for a job has one session with one
transaction of the job's mode, which runs the job's statement with its parameters, once and unchanged,
and comes to the driver's answer if the driver hands that on; any other call fails and opens no session.
The log shows nothing else.  A job is asked for by each query that compiles, each statement, and each
text whose mode is one and whose parameters are none or a map; a query that changes the database, at
whatever depth, is written. -/
theorem log_calls (hconnect : (connect hasDriver uri auth database).result = .ok c)
    (calls : List (Driver × Call)) (hsessions : ∀ call ∈ calls, call.1.ManagesSessions)
    (hwork : ∀ call ∈ calls, call.1.CallsWorkOnce) :
    (∀ d call, (d, call) ∈ calls →
      (∀ e, call.job = .error e → c.step d call.step = ⟨.error e, []⟩) ∧
      ∀ job, call.job = .ok job →
        (c.step d call.step).events =
          [.session (target database), .enter, .transaction job.mode,
            .run job.cypher job.parameters, .exit (job.transaction d).error?] ∧
        (d.HandsOn →
          (c.step d call.step).result = (d.answer job.cypher job.parameters).map some ∧
          (job.transaction d).error? = (work d job.cypher job.parameters).error?)) ∧
    c.log calls = ((jobs calls).flatMap fun job => job.2.trace database job.1) ∧
    (c.log calls).filterMap sessionOf? = ((jobs calls).map fun _ => target database) ∧
    (c.log calls).filterMap modeOf? = ((jobs calls).map fun job => job.2.mode) ∧
    (c.log calls).filterMap statementOf? =
      ((jobs calls).map fun job => (job.2.cypher, job.2.parameters)) ∧
    (∀ query parameters override s, Statement.compile query parameters override = .ok s →
      (Call.run query parameters override).job = .ok (Job.ofStatement s)) ∧
    (∀ cypher parameters mode es m, Query.accessModeOf mode = .ok m →
      (parameters = .null ∧ es = [] ∨ parameters = .map es) →
        (Call.executeCypher cypher parameters mode).job = .ok ⟨cypher, es, m⟩) ∧
    ∀ d query parameters s clauses, (d, .run query parameters .null) ∈ calls →
      Statement.compile query parameters .null = .ok s → Query.clausesOf query = .ok clauses →
      (∃ cl ∈ Value.everyClause clauses, cl.typeName ∈ Query.mutationKinds) →
        (c.step d (.run query parameters .null)).events =
          Job.trace database d
            ⟨.text s.text, s.parameters.map fun p => (p.1.toValue, p.2), .write⟩ := by
  obtain ⟨rfl, named, hnamed⟩ := result_connect hconnect
  have hevents : ∀ {d call job}, (d, call) ∈ calls → call.job = .ok job →
      (c.step d call.step).events = job.trace c.database d := by
    intro d call job hcall hjob
    rw [step_call hnamed, hjob]
    exact events_session (hsessions _ hcall) (hwork _ hcall) c.database job
  rw [log_eq hnamed hsessions hwork]
  refine ⟨?_, rfl, ?_, ?_, ?_, ?_, ?_, ?_⟩
  · intro d call hcall
    constructor
    · intro e he
      rw [step_call hnamed, he]
    · intro job hjob
      refine ⟨hevents hcall hjob, fun hhands => ?_⟩
      obtain ⟨hresult, herror⟩ := result_session hhands (target c.database) job
      rw [step_call hnamed, hjob]
      exact ⟨congrArg (Except.map some) hresult, herror⟩
  · exact filterMap_traces sessionOf? (fun _ => target c.database) (fun _ _ => rfl) _
  · exact filterMap_traces modeOf? Job.mode (fun _ _ => rfl) _
  · exact filterMap_traces statementOf? (fun job => (job.cypher, job.parameters))
      (fun _ _ => rfl) _
  · intro query parameters override s hs
    rw [Call.job, hs]
    rfl
  · intro cypher parameters mode es m hm hes
    rw [job_executeCypher hes, hm]
  · intro d query parameters s clauses hcall hs hclauses hchange
    exact hevents hcall (job_run_of_mutation hs hclauses hchange)

/-- A reading text, a text whose mode is none, and a query with a change in a FOREACH of a FOREACH of a
subquery. -/
def mixedCalls : List (Driver × Call) := [
  (.fixed [] none, .executeCypher (.text "RETURN 1") .null (.text "READ")),
  (.fixed [] none, .executeCypher (.text "RETURN 2") .null (.text "append")),
  (.fixed [] none, .run (.list Statement.buriedChange) .null .null)]

theorem driver_of_mem_mixedCalls {call : Driver × Call} (h : call ∈ mixedCalls) :
    call.1 = .fixed [] none := by
  simp only [mixedCalls, List.mem_cons, List.not_mem_nil, or_false] at h
  obtain rfl | rfl | rfl := h <;> rfl

theorem log_calls_mixedCalls :
    ∃ c s, (connect true (.text "bolt://host") .null (.text "films")).result = .ok c ∧
      Statement.compile (.list Statement.buriedChange) .null .null = .ok s ∧
      (c.log mixedCalls).filterMap sessionOf? = [some (.text "films"), some (.text "films")] ∧
      (c.log mixedCalls).filterMap statementOf? =
        [(.text "RETURN 1", []), (.text s.text, s.parameters.map fun p => (p.1.toValue, p.2))] ∧
      (c.step (.fixed [] none) (.run (.list Statement.buriedChange) .null .null)).events =
        Job.trace (.text "films") (.fixed [] none)
          ⟨.text s.text, s.parameters.map fun p => (p.1.toValue, p.2), .write⟩ := by
  have hcompiles : (Statement.compile (.list Statement.buriedChange) .null .null).toOption.isSome =
      true := by decide +kernel
  obtain ⟨s, hs⟩ := Option.isSome_iff_exists.1 hcompiles
  have hs := eq_ok_of_toOption hs
  have hjobs : jobs mixedCalls =
      [(.fixed [] none, ⟨.text "RETURN 1", [], .read⟩), (.fixed [] none, .ofStatement s)] := by
    unfold mixedCalls
    rw [jobs_cons_ok rfl, jobs_cons_error rfl, jobs_cons_ok (by rw [Call.job, hs]; rfl)]
    rfl
  have hconnect : (connect true (.text "bolt://host") .null (.text "films")).result =
      .ok ⟨.text "films"⟩ := rfl
  obtain ⟨-, -, hsessions, -, hstatements, -, -, hwrites⟩ := log_calls hconnect mixedCalls
    (fun _ h => driver_of_mem_mixedCalls h ▸ Driver.managesSessions_fixed [] none)
    (fun _ h => driver_of_mem_mixedCalls h ▸ Driver.callsWorkOnce_fixed [] none)
  refine ⟨⟨.text "films"⟩, s, hconnect, hs, ?_, ?_, ?_⟩
  · rw [hsessions, hjobs]
    rfl
  · rw [hstatements, hjobs]
    rfl
  · apply hwrites (.fixed [] none) (.list Statement.buriedChange) .null s Statement.buriedChange
      (by simp [mixedCalls]) hs rfl
    refine ⟨.clause (.create (.text "m")), ?_, by decide⟩
    simp [Statement.buriedChange, Value.everyClause, Value.inside, Value.insideBody]

end Connection

end CypherCompose
