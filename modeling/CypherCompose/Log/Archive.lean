import CypherCompose.Value.Basic

/-!
# Log files

An `Archive` holds directories and the files in them.  `Archive.write` adds a line to a log file and
keeps the file below a size: a file that the line would fill up is first moved aside, `x.log` to
`x.log.1`, that one to `x.log.2` and so on, and the oldest of a given number is dropped.
-/

namespace CypherCompose

namespace Log

/-- A place in the archive, by the names on the way to it. -/
abbrev Path := List String

/-- The path that a text with slashes names. -/
def Path.ofText (s : String) : Path :=
  (s.splitOn "/").filter fun part => part != "" && part != "."

/-- The path once its steps to the place above are taken; there is none above the top. -/
def Path.resolve? (p : Path) : Option Path :=
  p.foldlM (fun done part =>
    if part != ".." then some (done ++ [part])
    else if done.isEmpty then none
    else some done.dropLast) []

/-- Whether every name of a path can be given to a file: it is not too long and has no NUL. -/
def Path.isNameable (p : Path) : Bool :=
  p.all fun part => part.utf8ByteSize ≤ 255 && !part.toList.contains '\x00'

/-- The text that names a path. -/
def Path.text (p : Path) : String :=
  "/".intercalate p

/-- The places on the way to a path, from the top to the path itself. -/
def Path.way (p : Path) : List Path :=
  (List.range (p.length + 1)).map p.take

/-- A path with something behind its last name. -/
def Path.extend (p : Path) (suffix : String) : Path :=
  p.dropLast ++ [p.getLast?.getD "" ++ suffix]

/-- Directories and files. -/
structure Archive where
  directories : List Path
  files : List (Path × String)

namespace Archive

/-- The archive with nothing in it. -/
def empty : Archive :=
  ⟨[[]], []⟩

/-- The contents of a file. -/
def file? (a : Archive) (p : Path) : Option String :=
  a.files.lookup p

/-- The archive without a file. -/
def erase (a : Archive) (p : Path) : Archive :=
  { a with files := a.files.filter fun f => f.1 != p }

/-- The archive with a file of the given contents. -/
def put (a : Archive) (p : Path) (contents : String) : Archive :=
  { a with files := (p, contents) :: (a.erase p).files }

/-- The archive with the directory at a path and those on the way to it; a file in their place
prevents it. -/
def makeDirectory? (a : Archive) (p : Path) : Option Archive :=
  let needed := p.way
  if !p.isNameable || needed.any fun q => (a.file? q).isSome then none
  else
    let fresh := needed.filter fun q => !a.directories.contains q
    some { a with directories := a.directories ++ fresh }

/-- The archive with the file at a path, empty if it is new; there has to be a directory for it. -/
def open? (a : Archive) (p : Path) : Option Archive :=
  if !p.isNameable || a.directories.contains p || !a.directories.contains p.dropLast then none
  else if (a.file? p).isSome then some a
  else some (a.put p "")

/-- The archive with a text at the end of a file. -/
def append (a : Archive) (p : Path) (s : String) : Archive :=
  a.put p ((a.file? p).getD "" ++ s)

/-- The archive with a file under another name, if there is such a file. -/
def rename (a : Archive) (p q : Path) : Archive :=
  match a.file? p with
  | none => a
  | some s => (a.erase p).put q s

/-- The archive with the older files of a log moved up by one, from number `n` down. -/
def shift (a : Archive) (p : Path) : Nat → Archive
  | 0 => a.rename p (p.extend ".1")
  | n + 1 =>
      (a.rename (p.extend s!".{n + 1}") (p.extend s!".{n + 2}")).shift p n

/-- The archive with a log moved aside and at most `backups` older files kept.  With none to keep
the log stays where it is. -/
def rollOver (a : Archive) (p : Path) (backups : Nat) : Archive :=
  if backups == 0 then a else a.shift p (backups - 1)

/-- The number of bytes in a file. -/
def size (a : Archive) (p : Path) : Nat :=
  (a.file? p).elim 0 String.utf8ByteSize

end Archive

/-! ## The size of a log -/

/-- How large a log may grow: not at all limited, or up to a number of bytes. -/
abbrev Limit := Option Nat

/-- The limit that a value stands for; what is not above zero is no limit. -/
def Limit.ofValue? : Value → Option Limit
  | .float (.finite x) =>
      let scaled := Binary64.inUnits x.mantissa 1 (-x.exponent)
      some (if x.negative || x.isZero then none else some ((scaled.1 + scaled.2 - 1) / scaled.2))
  | .float _ => some none
  | v => v.int?.map fun n => if n ≤ 0 then none else some n.toNat

/-- The number of older files that a value stands for. -/
def backups? : Value → Option Nat
  | .float (.finite x) => if x.negative || x.isZero then some 0 else none
  | .float (.infinite false) => none
  | .float _ => some 0
  | v => v.int?.map Int.toNat

/-- Whether a line fills a log up. -/
def Limit.isReached (l : Limit) (size : Nat) (line : String) : Bool :=
  l.any fun n => n ≤ size + line.length + 1

/-- Where and how logs are kept. -/
structure Keeping where
  directory : String
  limit : Value
  backups : Value

/-- The directory of the logs. -/
def Keeping.place? (k : Keeping) : Option Path :=
  (Path.ofText k.directory).resolve?

/-- The path of the log of a name; a name that starts at the top of all files has none. -/
def Keeping.log? (k : Keeping) (log : String) : Option Path :=
  if log.toList.head? == some '/' then none
  else (Path.ofText (k.directory ++ "/" ++ log ++ ".log")).resolve?

/-- The archive once the log at a path has taken a line. -/
def Archive.addLine (a : Archive) (k : Keeping) (limit : Limit) (p : Path) (line : String) :
    Archive :=
  if limit.isReached (a.size p) line then
    match backups? k.backups with
    | none => a
    | some n => (a.rollOver p n).append p (line ++ "\n")
  else a.append p (line ++ "\n")

/-- The archive once a log has taken a line.  What stands in the way of the line is passed over: a
directory that cannot be made, a log that cannot be opened, a line that could not be laid out. -/
def Archive.write (a : Archive) (k : Keeping) (log : String) (line : Option String) : Archive :=
  match k.place?.bind a.makeDirectory?, Limit.ofValue? k.limit with
  | none, _ => a
  | some a, none => a
  | some a, some limit =>
      match k.log? log with
      | none => a
      | some p =>
          match a.open? p, line with
          | none, _ => a
          | some a, none => a
          | some a, some line => a.addLine k limit p line

end Log

end CypherCompose
