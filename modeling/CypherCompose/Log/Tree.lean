/-!
# The tree of loggers

Loggers have dotted names, and each hangs below another one, the topmost below none.  A `Tree` holds
the loggers in use; one that joins it hangs below the nearest logger whose name stands in front of a
dot of its own name.
-/

namespace CypherCompose

namespace Log

/-- The name of the logger above all others. -/
def topName : String := "root"

/-- The name a logger goes by; the empty name is that of the top logger. -/
def loggerName (s : String) : String :=
  if s == "" then topName else s

/-- The characters in front of the last dot, unless the dot comes first. -/
def beforeDot? (cs : List Char) : Option (List Char) :=
  let rest := cs.reverse.dropWhile (· != '.')
  if rest.length ≤ 1 then none else some (rest.drop 1).reverse

/-- The names in front of the dots of a name, the longest first; of two dots in a row only the
second counts. -/
def cuts : Nat → List Char → List String
  | 0, _ => []
  | fuel + 1, cs =>
      match beforeDot? cs with
      | none => []
      | some above =>
          let cut := if above.getLast? == some '.' then above.dropLast else above
          String.ofList above :: cuts fuel cut

/-- The names that may stand above a name, the nearest first. -/
def namesAbove (name : String) : List String :=
  (cuts name.length name.toList).filter (· != topName)

/-- The loggers in use, each with the name of the one it hangs below. -/
abbrev Tree := List (String × String)

namespace Tree

/-- Whether a logger is in use. -/
def has (t : Tree) (name : String) : Bool :=
  t.any fun l => l.1 == name

/-- The nearest logger in use above a name. -/
def nearest (t : Tree) (name : String) : String :=
  ((namesAbove name).find? t.has).getD topName

/-- Whether a logger that hangs below `above` is taken over by one that joins: its name has to be
below, and what it hangs below may not begin with the name that joins. -/
def isTakenOver (joining name above : String) : Bool :=
  (namesAbove name).contains joining && !joining.toList.isPrefixOf above.toList

/-- The tree with a logger in use. -/
def join (t : Tree) (name : String) : Tree :=
  if name == topName || t.has name then t
  else (name, t.nearest name)
    :: t.map fun l => if isTakenOver name l.1 l.2 then (l.1, name) else l

/-- The loggers above a name, by steps of at most a number. -/
def climb (t : Tree) : Nat → String → List String
  | 0, _ => []
  | steps + 1, name =>
      match t.lookup name with
      | none => []
      | some above => above :: t.climb steps above

/-- The loggers that a record passes, from its own to the top. -/
def way (t : Tree) (name : String) : List String :=
  name :: t.climb t.length name

end Tree

end Log

end CypherCompose
