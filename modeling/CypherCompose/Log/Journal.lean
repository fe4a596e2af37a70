import CypherCompose.Log.Archive
import CypherCompose.Log.Level
import CypherCompose.Log.Template
import CypherCompose.Log.Tree
import CypherCompose.Settings
import CypherCompose.Statement
import CypherCompose.Text.Occurrence

/-!
# Logging

A record made on one logger passes up the tree of loggers to the topmost.  A `Journal` attaches its
outputs to one of them, its root: a console with coloured lines, and a log file for every logger.
Outputs are attached when a logger is first asked for after a change of the configuration.  A record
that meets no output goes to the console as its bare message if it is at least a warning.
-/

namespace CypherCompose

namespace Log

/-! ## Configuration -/

/-- What a journal is set up from. -/
structure Config where
  root : Value
  level : Value
  directory : Value
  maxBytes : Value
  backupCount : Value
  layout : Value
  dateLayout : Value
  console : Value

namespace Config

/-- The configuration under some variables of the environment. -/
def ofEnvironment (e : Environment) : Config where
  root := .text "graphquery"
  level := .text ((e.get? "GRAPHQUERY_LOG_LEVEL").getD "WARNING")
  directory := (e.given? "GRAPHQUERY_LOG_DIR").elim .null .text
  maxBytes := .int (5 * 1024 * 1024)
  backupCount := .int 10
  layout := .text "[%(asctime)s] [%(threadName)s] [%(levelname)s] %(name)s: %(message)s"
  dateLayout := .text "%Y-%m-%d %H:%M:%S"
  console := .bool true

/-- The entries of a configuration by their names. -/
def entries (c : Config) : List (String × Value) :=
  [("root", c.root), ("level", c.level), ("log_dir", c.directory), ("max_bytes", c.maxBytes),
    ("backup_count", c.backupCount), ("fmt", c.layout), ("datefmt", c.dateLayout),
    ("console", c.console)]

/-- The configuration with the entry of a name changed; other names have no effect. -/
def set (c : Config) (name : String) (v : Value) : Config :=
  match name with
  | "root" => { c with root := v }
  | "level" => { c with level := v }
  | "log_dir" => { c with directory := v }
  | "max_bytes" => { c with maxBytes := v }
  | "backup_count" => { c with backupCount := v }
  | "fmt" => { c with layout := v }
  | "datefmt" => { c with dateLayout := v }
  | "console" => { c with console := v }
  | _ => c

end Config

/-! ## Records and their lines -/

/-- One thing that is logged; the name of its level is found first. -/
structure Record where
  logger : String
  level : Level
  levelName : String
  message : Value
  args : List Value

/-- How an output writes records: the template of a line, and what stands for the time if it can be
written. -/
structure LineLayout where
  template : String
  time : Option String

/-- Whether lines show the time. -/
def LineLayout.showsTime (l : LineLayout) : Bool :=
  occursIn "%(asctime)" l.template

namespace Record

/-- What the message is filled from: a single map that is not empty gives its entries. -/
def supply (r : Record) : Template.Supply :=
  match r.args with
  | [.map (e :: es)] => .ofMap (e :: es)
  | args => .row args

/-- The arguments as a value. -/
def argsValue (r : Record) : Value :=
  match r.args with
  | [.map (e :: es)] => .map (e :: es)
  | args => .tuple args

/-- The message with its arguments; without any it is taken as it is. -/
def text? (r : Record) : Option String := do
  let message ← r.message.display?
  if r.args.isEmpty then some message else Template.fill? message r.supply

/-- The fields of a record that a layout can name, with the time if it is shown. -/
def fields (r : Record) (text : String) (time : Option String) : List (Value × Value) :=
  let time := time.toList.map fun t => ("asctime", Value.text t)
  let all := [("name", .text r.logger), ("msg", r.message), ("args", r.argsValue),
    ("levelname", .text r.levelName), ("levelno", r.level.toValue), ("exc_info", .null),
    ("exc_text", .null), ("stack_info", .null), ("threadName", .text "MainThread"),
    ("processName", .text "MainProcess"), ("message", .text text)] ++ time
  all.map fun f => (.text f.1, f.2)

/-- The line of a record, unless the record or the layout cannot be filled. -/
def line? (r : Record) (l : LineLayout) : Option String := do
  let text ← r.text?
  let time ← if l.showsTime then l.time.map some else some none
  Template.fill? l.template (.ofMap (r.fields text time))

end Record

/-- A text with its doubled percent signs written once. -/
def undoubled : List Char → List Char
  | '%' :: '%' :: cs => '%' :: undoubled cs
  | c :: cs => c :: undoubled cs
  | [] => []

/-- The layout of lines that two values describe.  Nothing stands for the bare message. -/
def LineLayout.ofValues (layout date : Value) : Except Misuse LineLayout := do
  let time := date.text?.map fun s => String.ofList (undoubled s.toList)
  if !(← layout.truth) then .ok ⟨"%(message)s", time⟩
  else
    match layout.text? with
    | none => .error (.notText layout)
    | some s =>
        if Template.hasKeyedDirective s.toList then .ok ⟨s, time⟩ else .error (.badLayout s)

/-! ## Outputs -/

/-- The outputs attached to the root. -/
structure Outputs where
  root : String
  console : Option LineLayout
  files : Option (LineLayout × Keeping)

namespace Outputs

/-- Whether there is no output. -/
def isEmpty (o : Outputs) : Bool :=
  o.console.isNone && o.files.isNone

end Outputs

/-- The state of logging: the configuration, the outputs once attached, the loggers in use, the
levels they were given, those that know verbose records by no method of their own, and the log
files. -/
structure Journal where
  config : Config
  outputs : Option Outputs
  tree : Tree
  levels : List (String × Level)
  basic : List String
  archive : Archive

namespace Journal

/-- The journal before anything is logged; the library's own loggers are in use. -/
def start : Journal where
  config := .ofEnvironment ⟨[], []⟩
  outputs := none
  tree := ["graphquery", "graphquery.compiler", "graphquery.schema", "graphquery.neo4j"].foldl
    Tree.join []
  levels := [(topName, .warning)]
  basic := [topName]
  archive := .empty

/-- The level a logger was given. -/
def ownLevel (j : Journal) (name : String) : Level :=
  (j.levels.lookup name).getD (.number 0)

/-- The level that decides for a logger: the first on the way up that is not zero. -/
def effectiveLevel (j : Journal) (name : String) : Level :=
  (((j.tree.way name).map j.ownLevel).find? fun l => l.rank ≠ 0).getD (.number 0)

/-- Whether a logger takes records of a level. -/
def isEnabled (j : Journal) (name : String) (l : Level) : Bool :=
  0 < l.rank && (j.effectiveLevel name).rank ≤ l.rank

/-- Changes the configuration and detaches the outputs. -/
def configure (j : Journal) (changes : List (String × Value)) : Journal :=
  { j with
    config := changes.foldl (fun c e => c.set e.1 e.2) j.config
    outputs := none }

/-- Takes a logger into use. -/
def join (j : Journal) (name : String) : Journal :=
  { j with tree := j.tree.join name }

/-- Makes a logger one that has the method for verbose records. -/
def upgrade (j : Journal) (name : String) : Journal :=
  { j.join name with basic := j.basic.filter (· != name) }

/-- Makes a logger one that lacks the method for verbose records. -/
def downgrade (j : Journal) (name : String) : Journal :=
  { j.join (loggerName name) with basic := loggerName name :: j.basic }

/-- The name of the root that a value stands for. -/
def rootName (v : Value) : Except Misuse String := do
  if !(← v.truth) then .ok topName
  else match v.text? with
    | some s => .ok (loggerName s)
    | none => .error (.notText v)

/-- The outputs that a configuration describes. -/
def outputsOf (c : Config) (root : String) : Except Misuse Outputs := do
  let console ← if ← c.console.truth then some <$> LineLayout.ofValues c.layout c.dateLayout
    else pure none
  let files ← if ← c.directory.truth then do
      let layout ← LineLayout.ofValues c.layout c.dateLayout
      pure (some (layout, ⟨c.directory.text?.getD "", c.maxBytes, c.backupCount⟩))
    else pure none
  .ok ⟨root, console, files⟩

/-- Attaches the outputs unless they are.  The level of the root is set first, and stays set even
when the outputs cannot be made. -/
def setUp (j : Journal) : Except Misuse Outputs × Journal :=
  match j.outputs with
  | some o => (.ok o, j)
  | none =>
      match rootName j.config.root with
      | .error m => (.error m, j)
      | .ok root =>
          let j := j.upgrade root
          match Level.ofValue? j.config.level with
          | none => (.error .unwritable, j)
          | some level =>
              let j := { j with levels := (root, level) :: j.levels }
              match outputsOf j.config root with
              | .error m => (.error m, j)
              | .ok o => (.ok o, { j with outputs := some o })

/-- Asks for a logger: the outputs are attached, and the logger can log verbose records. -/
def get (j : Journal) (name : String) : Except Misuse Outputs × Journal :=
  match j.setUp with
  | (.ok o, j) => (.ok o, j.upgrade (loggerName name))
  | (.error m, j) => (.error m, j)

/-! ## Logging -/

/-- The text of a line with its end, if there is a line. -/
def ended : Option String → String
  | some s => s ++ "\n"
  | none => ""

/-- Hands a record to the outputs on its way: what the console shows, and the journal after it.  Log
files take verbose records and those above. -/
def record (j : Journal) (r : Record) : String × Journal :=
  match j.outputs.filter fun o => (j.tree.way r.logger).contains o.root && !o.isEmpty with
  | none => (if Level.warning.rank ≤ r.level.rank then ended r.text? else "", j)
  | some o =>
      let shown := o.console.elim "" fun l => ended ((r.line? l).map r.level.paint)
      match o.files with
      | none => (shown, j)
      | some (l, k) =>
          if r.level.rank < Level.verbose.rank then (shown, j)
          else (shown, { j with archive := j.archive.write k r.logger (r.line? l) })

/-- Logs a message at a level: whether the logger takes it, what the console shows, and the journal
after it. -/
def log (j : Journal) (name : String) (l : Level) (message : Value) (args : List Value) :
    Except Misuse Bool × String × Journal :=
  let name := loggerName name
  let j := j.join name
  if j.isEnabled name l then
    match l.name? with
    | some levelName => (.ok true, j.record ⟨name, l, levelName, message, args⟩)
    | none => (.error .unwritable, "", j)
  else (.ok false, "", j)

/-- The levels that a logger has methods for. -/
def methodLevel? (method : String) : Option Level :=
  if method == "verbose" then some .verbose
  else if ["debug", "info", "warning", "error", "critical"].contains method then
    some (.ofName method)
  else none

/-- Logs a message by the method of a level. -/
def announce (j : Journal) (name method : String) (message : Value) (args : List Value) :
    Except Misuse Unit × String × Journal :=
  let j := j.join (loggerName name)
  match methodLevel? method with
  | none => (.error (.noPart (.text name)), "", j)
  | some l =>
      if method == "verbose" && j.basic.contains (loggerName name) then
        (.error (.noPart (.text name)), "", j)
      else
        let (taken, shown, j) := j.log name l message args
        (taken.map fun _ => (), shown, j)

/-- Compiles a query and logs its statement: the text as a verbose record, the names of the
parameters for debugging. -/
def compile (j : Journal) (query parameters override : Value) :
    Except Error Statement × String × Journal :=
  match Statement.compile query parameters override with
  | .error e => (.error e, "", j)
  | .ok s =>
      let logger := "graphquery.compiler"
      let names := s.parameters.map fun p => p.1.text
      match j.announce logger "verbose" (.text "compiled (%s): %s")
          [.text s.mode.text, .text s.text] with
      | (.error m, shown, j) => (.error (.misuse m), shown, j)
      | (.ok (), first, j) =>
          let (_, second, j) := j.announce logger "debug" (.text "%d parameter(s): %s")
            [.int s.parameters.length, .text (", ".intercalate names)]
          (.ok s, first ++ second, j)

/-- Puts an empty file in the way of a directory of its name. -/
def block (j : Journal) (name : String) : Journal :=
  { j with archive := j.archive.put (Path.ofText name) "" }

/-- The log files with their contents, in the order of their names. -/
def files (j : Journal) : List (String × String) :=
  (j.archive.files.map fun f => (Path.text f.1, f.2)).mergeSort fun f g => f.1 ≤ g.1

end Journal

end Log

end CypherCompose
