import CypherCompose.Decimal.Shortest

/-!
# Atoms

The values without parts: what a caller may bind to a parameter or hand in as a name, a count or a
flag.  Directions and access modes are symbols that also read as text.
-/

namespace CypherCompose

/-- Which way a relationship points, seen from the node before it. -/
inductive Direction where
  | forward
  | backward
  | undirected
  deriving DecidableEq, Repr

/-- How a statement uses the database. -/
inductive AccessMode where
  | read
  | write
  deriving DecidableEq, Repr

namespace Direction

/-- The text a direction reads as. -/
def text : Direction → String
  | .forward => "forward"
  | .backward => "backward"
  | .undirected => "undirected"

/-- The qualified name of a direction. -/
def symbol : Direction → String
  | .forward => "Direction.FORWARD"
  | .backward => "Direction.BACKWARD"
  | .undirected => "Direction.UNDIRECTED"

/-- The direction that reads as a text. -/
def ofText? (s : String) : Option Direction :=
  [forward, backward, undirected].find? (·.text == s)

end Direction

namespace AccessMode

/-- The text an access mode reads as. -/
def text : AccessMode → String
  | .read => "read"
  | .write => "write"

/-- The qualified name of an access mode. -/
def symbol : AccessMode → String
  | .read => "AccessMode.READ"
  | .write => "AccessMode.WRITE"

/-- The access mode that reads as a text. -/
def ofText? (s : String) : Option AccessMode :=
  [read, write].find? (·.text == s)

end AccessMode

/-- A value without parts.  `unset` marks a parameter that has no value yet.  `ambiguous` is
array-like data whose comparison with anything but itself has no single answer. -/
inductive Atom where
  | null
  | bool (b : Bool)
  | int (n : Int)
  | float (x : Binary64)
  | text (s : String)
  | bytes (bs : List UInt8)
  | date (year month day : Nat)
  | unset
  | direction (d : Direction)
  | mode (m : AccessMode)
  | ambiguous (id : String)
  deriving DecidableEq, Repr

namespace Atom

/-- The name of an atom's type. -/
def typeName : Atom → String
  | null => "NoneType"
  | bool _ => "bool"
  | int _ => "int"
  | float _ => "float"
  | text _ => "str"
  | bytes _ => "bytes"
  | date .. => "date"
  | unset => "_Unset"
  | direction _ => "Direction"
  | mode _ => "AccessMode"
  | ambiguous _ => "Ambiguous"

/-- The text an atom reads as; symbols read as text too. -/
def text? : Atom → Option String
  | text s => some s
  | direction d => some d.text
  | mode m => some m.text
  | _ => none

/-- The integer an atom reads as; a truth value reads as zero or one. -/
def int? : Atom → Option Int
  | int n => some n
  | bool b => some (if b then 1 else 0)
  | _ => none

/-- Whether an atom counts as true; array-like data has no answer. -/
def truth? : Atom → Option Bool
  | null => some false
  | bool b => some b
  | int n => some (n != 0)
  | float (.finite x) => some !x.isZero
  | float _ => some true
  | text s => some (s != "")
  | bytes bs => some !bs.isEmpty
  | date .. => some true
  | unset => some false
  | direction _ => some true
  | mode _ => some true
  | ambiguous _ => none

/-- Whether two atoms are one and the same thing although comparing them does not say so. -/
def identical : Atom → Atom → Bool
  | float (.nan a), float (.nan b) => a == b
  | ambiguous a, ambiguous b => a == b
  | _, _ => false

/-- The number an atom stands for, when it has an exact finite value. -/
def number? : Atom → Option Binary64.Finite
  | bool b => some (.ofInt (if b then 1 else 0))
  | int n => some (.ofInt n)
  | float (.finite x) => some x
  | _ => none

/-- Whether two atoms are equal.  Numbers compare by exact value, truth values among them, and
symbols compare as their text; array-like data has no answer. -/
def equal? (a b : Atom) : Option Bool :=
  match a, b with
  | ambiguous _, _ => none
  | _, ambiguous _ => none
  | float (.nan _), _ => some false
  | a, b =>
      match a.number?, b.number? with
      | some x, some y => some (x.sameValue y)
      | _, _ =>
          match a.text?, b.text? with
          | some s, some t => some (s == t)
          | _, _ => some (decide (a = b))

/-- Whether two atoms are identical or equal. -/
def same? (a b : Atom) : Option Bool :=
  if a.identical b then some true else a.equal? b

end Atom

end CypherCompose
