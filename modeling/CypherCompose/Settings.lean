import CypherCompose.Text.Blank
import CypherCompose.Value.Membership

/-!
# Connection settings

The settings of a connection come from variables of the environment: an address, a user, a password
and a database.  A file of `KEY=VALUE` lines can supply variables that are not set yet
(`VariableFile.parse`); a variable that is set, even to nothing, is left alone.
-/

namespace CypherCompose

namespace VariableFile

/-- Blanks inside a line. -/
def isLineBlank (c : Char) : Bool :=
  isBlank c && c != '\n' && c != '\r'

/-- The lines of a text; a carriage return ends a line too. -/
def lines (cs : List Char) : List (List Char) :=
  (cs.map fun c => if c == '\r' then '\n' else c).splitOnP (· == '\n')

/-- Whether only blanks, and perhaps a comment, are left of a line. -/
def isLineEnd (cs : List Char) : Bool :=
  match cs.dropWhile isLineBlank with
  | [] => true
  | c :: _ => c == '#'

/-- The text up to the closing quote, if nothing else follows on the line. -/
def quotedValue? (quote : Char) (cs : List Char) : Option String :=
  match cs.dropWhile (· != quote) with
  | [] => none
  | _ :: rest => if isLineEnd rest then some (String.ofList (cs.takeWhile (· != quote))) else none

/-- The text up to a comment, which stands behind a blank. -/
def beforeComment : List Char → List Char
  | [] => []
  | c :: cs => if isBlank c && (cs.dropWhile isBlank).head? == some '#' then []
      else c :: beforeComment cs

/-- The value behind the equals sign. -/
def value? (cs : List Char) : Option String :=
  match cs.dropWhile isLineBlank with
  | '\'' :: rest => quotedValue? '\'' rest
  | '"' :: rest => quotedValue? '"' rest
  | rest => some (String.ofList (trimRight (beforeComment rest)))

/-- The characters of a key. -/
def isKeyChar (c : Char) : Bool :=
  c != '=' && c != '#' && !isBlank c

/-- The line without the word `export` in front. -/
def dropExport (cs : List Char) : List Char :=
  let word := "export".toList
  if word.isPrefixOf cs && ((cs.drop word.length).head?.any isLineBlank) then
    (cs.drop word.length).dropWhile isLineBlank
  else cs

/-- The variable that a line sets. -/
def entry? (line : List Char) : Option (String × String) :=
  let cs := dropExport (line.dropWhile isBlank)
  let key := cs.takeWhile isKeyChar
  match (cs.dropWhile isKeyChar).dropWhile isLineBlank with
  | '=' :: rest => if key.isEmpty then none else (value? rest).map fun v => (String.ofList key, v)
  | _ => none

/-- The variables that a file sets, in the order of its lines. -/
def parse (s : String) : List (String × String) :=
  (lines s.toList).filterMap entry?

end VariableFile

/-- The variables that are set, and the files at hand. -/
structure Environment where
  entries : List (String × String)
  files : List (String × String)

namespace Environment

/-- The value of a variable. -/
def get? (e : Environment) (key : String) : Option String :=
  e.entries.lookup key

/-- Sets a variable. -/
def set (e : Environment) (key value : String) : Environment :=
  { e with entries := (key, value) :: e.entries.filter fun v => v.1 != key }

/-- The name that a path gives to a file at hand: steps to the same place count for nothing. -/
def fileName (path : String) : String :=
  "/".intercalate ((path.splitOn "/").dropWhile (· == "."))

/-- The variables of a file, as far as they are not set; of several lines for a key the last
counts. -/
def load (e : Environment) (file : String) : Environment :=
  match e.files.lookup (fileName file) with
  | none => e
  | some s =>
      let fresh := (VariableFile.parse s).filter fun v => (e.get? v.1).isNone
      fresh.foldl (fun e v => e.set v.1 v.2) e

/-- The value of a variable that is set to something. -/
def given? (e : Environment) (key : String) : Option String :=
  (e.get? key).filter (· != "")

end Environment

namespace Settings

/-- The names of the settings that have to be given. -/
def required : List String :=
  ["URI", "USERNAME", "PASSWORD"]

/-- The settings given by variables with the given start of their names. -/
def ofVariables (e : Environment) (start : String) : Except Error Value :=
  let uri := e.given? (start ++ "URI")
  let username := (e.given? (start ++ "USERNAME")).or (e.given? (start ++ "USER"))
  let password := e.given? (start ++ "PASSWORD")
  match uri, username, password with
  | some u, some n, some p =>
      .ok (.settings (.text u) (.text n) (.text p)
        (.text ((e.given? (start ++ "DATABASE")).getD "neo4j")))
  | _, _, _ =>
      let missing := (required.zip [uri, username, password]).filter (·.2.isNone)
      .error (.missingSettings (missing.map fun m => start ++ m.1))

/-- The environment once the file at a path is loaded; what counts as false stands for no file, and
a number for one that is not there. -/
def loaded (e : Environment) (path : Value) : Except Misuse Environment := do
  if ← path.truth then
    match path, path.text?, path.int? with
    | _, some s, _ => .ok (e.load s)
    | _, none, some _ => .ok e
    | .atom (.bytes bs), none, none =>
        .ok (e.load (String.ofList (bs.map fun b => Char.ofNat b.toNat)))
    | _, none, none => .error (.notText path)
  else .ok e

/-- The settings from the environment, and the environment they leave. -/
def fromEnvironment (e : Environment) (path start : Value) :
    Except Error Value × Environment :=
  match loaded e path with
  | .error m => (.error (.misuse m), e)
  | .ok e =>
      match start.text? with
      | none => (.error (.misuse (.notText start)), e)
      | some s => (ofVariables e s, e)

/-- The file settings are read from unless another is named. -/
def defaultPath : Value := .text ".env"

/-- What the names of the variables start with unless told otherwise. -/
def defaultStart : Value := .text "NEO4J_"

/-- The user and the password of settings. -/
def auth (username password : Value) : Value :=
  .tuple [username, password]

end Settings

end CypherCompose
