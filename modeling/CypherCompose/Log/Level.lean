import CypherCompose.Text.Blank
import CypherCompose.Value.Outline

/-!
# Levels

How much a log record matters, as a number: from 5 for verbose records to 50 for critical ones, with
any other number in between.  Level zero leaves the choice to the logger above.
-/

namespace CypherCompose

namespace Log

/-- A level.  A truth value serves as the number one or zero, and is shown as itself. -/
inductive Level where
  | number (n : Int)
  | flag (b : Bool)
  deriving DecidableEq, Repr

namespace Level

/-- The number of a level. -/
def rank : Level → Int
  | number n => n
  | flag b => if b then 1 else 0

/-- The level as a value. -/
def toValue : Level → Value
  | number n => .int n
  | flag b => .bool b

/-- The lowest level with a name. -/
def verbose : Level := number 5

/-- The level of a record that counts as a warning, and of a name that is not known. -/
def warning : Level := number 30

/-- The levels that have a name; where two names share a level the first one is shown. -/
def names : List (String × Int) :=
  [("VERBOSE", 5), ("DEBUG", 10), ("INFO", 20), ("WARNING", 30), ("WARN", 30), ("ERROR", 40),
    ("CRITICAL", 50), ("FATAL", 50), ("NOTSET", 0)]

/-- The capital form of a letter; outside ASCII, of the two letters whose capital is in ASCII. -/
def capital (c : Char) : Char :=
  if c == 'ı' then 'I' else if c == 'ſ' then 'S' else c.toUpper

/-- The level of a name in any case, with blanks around it; a name that is not known warns. -/
def ofName (s : String) : Level :=
  match names.lookup (String.ofList ((trim s).toList.map capital)) with
  | some n => number n
  | none => warning

/-- The level that a value stands for; other values than numbers do by how they are written. -/
def ofValue? : Value → Option Level
  | .int n => some (number n)
  | .bool b => some (flag b)
  | v => v.display?.map ofName

/-- The name of a level in a log line, if it can be written. -/
def name? (l : Level) : Option String :=
  match names.find? fun n => n.2 == l.rank with
  | some n => some n.1
  | none => l.toValue.display?.map ("Level " ++ ·)

/-- The control sequence that sets a terminal's style. -/
def sequence (code : String) : String :=
  "\x1b[" ++ code ++ "m"

/-- What a terminal is told before a line of a level that has a colour. -/
def colour? (l : Level) : Option String :=
  if l.rank = 5 then some (sequence "2" ++ sequence "37")
  else if l.rank = 10 then some (sequence "37")
  else if l.rank = 20 then some (sequence "34")
  else if l.rank = 30 then some (sequence "33")
  else if l.rank = 40 then some (sequence "31")
  else if l.rank = 50 then some (sequence "41" ++ sequence "37")
  else none

/-- A line in the colour of its level. -/
def paint (l : Level) (line : String) : String :=
  match l.colour? with
  | some c => c ++ line ++ sequence "0"
  | none => line

end Level

end Log

end CypherCompose
