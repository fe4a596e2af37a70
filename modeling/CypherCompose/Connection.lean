import CypherCompose.Mutation
import CypherCompose.Settings
import CypherCompose.Text.Occurrence

/-!
# Connections

A connection compiles queries and runs statements, each in one session and one transaction of its
access mode.  A driver sees a connection as a sequence of events; what it does with a session, with a
transaction and with a statement is up to the `Driver`.
-/

namespace CypherCompose

/-- What a driver sees. -/
inductive Event where
  | driver (uri auth : Value)
  /-- A session on a database, or on the default one. -/
  | session (database : Option Value)
  | enter
  | transaction (mode : AccessMode)
  | run (cypher : Value) (parameters : List (Value × Value))
  | exit (error : Option Error)
  | close

/-- What a step comes to, and what the driver sees of it. -/
structure Outcome (α : Type) where
  result : Except Error α
  events : List Event

/-- The error that a step ends with, if it does. -/
def Outcome.error? {α : Type} (o : Outcome α) : Option Error :=
  match o.result with
  | .ok _ => none
  | .error e => some e

/-- A driver: what a session on a database comes to around its body, what a transaction of a mode
comes to with its work, and how a statement with its parameters is answered. -/
structure Driver where
  session : Option Value → Outcome (List Value) → Outcome (List Value)
  transaction : AccessMode → Outcome (List Value) → Outcome (List Value)
  answer : Value → List (Value × Value) → Except Error (List Value)

/-- The driver that gives the same rows to every statement, and fails those that hold a text.  A
session is left when its body ends, and the work of a transaction is done once. -/
def Driver.fixed (rows : List Value) (fail : Option String) : Driver where
  session database body :=
    ⟨body.result, [Event.session database, .enter] ++ body.events ++ [Event.exit body.error?]⟩
  transaction mode work := ⟨work.result, .transaction mode :: work.events⟩
  answer cypher _ :=
    if fail.any fun f => cypher.text?.any (occursIn f ·) then .error .queryFailed else .ok rows

/-- An open connection. -/
structure Connection where
  database : Value

namespace Connection

/-- A step that fails before the driver sees anything. -/
def refused {α : Type} (e : Error) : Outcome α :=
  ⟨.error e, []⟩

/-- Opens a connection; without a driver there is none. -/
def connect (hasDriver : Bool) (uri auth database : Value) : Outcome Connection :=
  if !hasDriver then refused .noDriver
  else
    ⟨match database.truth with
      | .ok _ => .ok ⟨database⟩
      | .error m => .error (.misuse m), [.driver uri auth]⟩

/-- Opens a connection by settings, or by those of the environment. -/
def fromSettings (hasDriver : Bool) (e : Environment) (settings : Value) : Outcome Connection :=
  match settings.truth with
  | .error m => refused (.misuse m)
  | .ok given =>
      let chosen := if given then .ok settings
        else (Settings.fromEnvironment e Settings.defaultPath Settings.defaultStart).1
      match chosen with
      | .error e => refused e
      | .ok (.settings uri username password database) =>
          connect hasDriver uri (Settings.auth username password) database
      | .ok v => refused (.misuse (.noPart v))

/-- The work of a transaction: a statement is run. -/
def work (d : Driver) (cypher : Value) (parameters : List (Value × Value)) : Outcome (List Value) :=
  ⟨d.answer cypher parameters, [.run cypher parameters]⟩

/-- Runs a statement in a session of its own. -/
def execute (c : Connection) (d : Driver) (cypher : Value) (parameters : List (Value × Value))
    (mode : AccessMode) : Outcome (List Value) :=
  match c.database.truth with
  | .error m => refused (.misuse m)
  | .ok named =>
      d.session (if named then some c.database else none)
        (d.transaction mode (work d cypher parameters))

/-- The entries of a map, or those of a list of pairs. -/
def entriesOf : Value → Except Misuse (List (Value × Value))
  | .map es => .ok es
  | v => do
      let pairs ← v.itemsOf
      Mutation.entriesFrom [] 0 pairs

/-- The mode of a statement given as a value: whatever has a value of its own will do, and all but
one read. -/
def symbolMode : Value → Except Misuse AccessMode
  | .atom (.mode m) => .ok m
  | .atom (.direction _) | .param .. | .literal _ | .assign .. => .ok .read
  | .clause (.skip _) | .clause (.limit _) => .ok .read
  | v => .error (.noPart v)

/-- Runs a statement given as a value. -/
def runStatement (c : Connection) (d : Driver) (v : Value) : Outcome (List Value) :=
  match v with
  | .statement cypher parameters mode =>
      match entriesOf parameters, symbolMode mode with
      | .error m, _ => refused (.misuse m)
      | .ok _, .error m => refused (.misuse m)
      | .ok es, .ok mode => c.execute d cypher es mode
  | v => refused (.misuse (.noPart v))

/-- Compiles a query and runs its statement. -/
def run (c : Connection) (d : Driver) (query parameters override : Value) :
    Outcome (List Value) :=
  match Statement.compile query parameters override with
  | .error e => refused e
  | .ok s => c.runStatement d s.toValue

/-- Runs a statement given as text, with its mode. -/
def executeCypher (c : Connection) (d : Driver) (cypher parameters mode : Value) :
    Outcome (List Value) :=
  match Query.accessModeOf mode with
  | .error m => refused (.misuse m)
  | .ok mode =>
      match Mutation.propsOf parameters with
      | .error m => refused (.misuse m)
      | .ok es => c.execute d cypher es mode

/-- One step on a connection. -/
inductive Step where
  | run (query parameters override : Value)
  | runStatement (statement : Value)
  | executeCypher (cypher parameters mode : Value)
  | close
  /-- A step after which the connection is closed, whatever it comes to. -/
  | within (inner : Step)

/-- The rows of an outcome as those of a step that gives rows. -/
def rows (o : Outcome (List Value)) : Outcome (Option (List Value)) :=
  ⟨o.result.map some, o.events⟩

/-- What a step on a connection comes to. -/
def step (c : Connection) (d : Driver) : Step → Outcome (Option (List Value))
  | .run query parameters override => rows (c.run d query parameters override)
  | .runStatement statement => rows (c.runStatement d statement)
  | .executeCypher cypher parameters mode => rows (c.executeCypher d cypher parameters mode)
  | .close => ⟨.ok none, [.close]⟩
  | .within inner =>
      let o := c.step d inner
      { o with events := o.events ++ [.close] }

end Connection

end CypherCompose
