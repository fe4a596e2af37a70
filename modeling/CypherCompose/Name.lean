import CypherCompose.Text.Identifier
import CypherCompose.Value.Basic

/-!
# Names

A `Word` is a text in the way it was given: plain characters, or a symbol that reads as characters.
Joined to other text a symbol counts as its characters; filled into a template it stands under its
qualified name.

`Name`, `ParamName` and `FunctionName` are the words that may stand for a variable, label or key,
for a parameter, and for a function.
-/

namespace CypherCompose

/-- A text as it was given. -/
inductive Word where
  | plain (s : String)
  | direction (d : Direction)
  | mode (m : AccessMode)
  deriving DecidableEq, Repr

namespace Word

/-- The characters of a word. -/
def text : Word → String
  | plain s => s
  | direction d => d.text
  | mode m => m.text

/-- The qualified name of a word that is a symbol. -/
def symbol? : Word → Option String
  | plain _ => none
  | direction d => some d.symbol
  | mode m => some m.symbol

/-- The word as a value. -/
def toValue : Word → Value
  | plain s => .text s
  | direction d => .atom (.direction d)
  | mode m => .atom (.mode m)

/-- The word filled into a template. -/
def filled (w : Word) : String :=
  w.symbol?.getD w.text

/-- The word that a value is. -/
def ofValue? : Value → Option Word
  | .text s => some (plain s)
  | .atom (.direction d) => some (direction d)
  | .atom (.mode m) => some (mode m)
  | _ => none

end Word

/-- A word that may name a variable, a label, a type or a key. -/
structure Name where
  word : Word
  nonempty : word.text ≠ ""
  deriving DecidableEq, Repr

namespace Name

/-- The name that a word is. -/
def ofWord? (w : Word) : Option Name :=
  if h : w.text ≠ "" then some ⟨w, h⟩ else none

/-- The name that a value is. -/
def ofValue? (v : Value) : Option Name :=
  (Word.ofValue? v).bind ofWord?

/-- The characters of a name. -/
def text (n : Name) : String :=
  n.word.text

/-- The written form of a name. -/
def spelling (n : Name) : String :=
  Identifier.quote n.text

/-- The written form of a name that is filled into a template. -/
def filled (n : Name) : String :=
  n.word.symbol?.getD n.spelling

end Name

/-- A word that may name a parameter. -/
structure ParamName where
  word : Word
  plain : Identifier.isPlain word.text = true
  deriving DecidableEq, Repr

namespace ParamName

/-- The parameter name that a word is. -/
def ofWord? (w : Word) : Option ParamName :=
  if h : Identifier.isPlain w.text = true then some ⟨w, h⟩ else none

/-- The parameter name that a value is. -/
def ofValue? (v : Value) : Option ParamName :=
  (Word.ofValue? v).bind ofWord?

/-- The characters of a parameter name. -/
def text (n : ParamName) : String :=
  n.word.text

/-- A parameter name as a value. -/
def toValue (n : ParamName) : Value :=
  n.word.toValue

/-- The mention of a parameter in a statement. -/
def token (n : ParamName) : String :=
  "$" ++ n.word.filled

end ParamName

/-- A word that may name a function. -/
structure FunctionName where
  word : Word
  dotted : Identifier.isDotted word.text = true
  deriving DecidableEq, Repr

namespace FunctionName

/-- The function name that a value is. -/
def ofValue? (v : Value) : Option FunctionName :=
  (Word.ofValue? v).bind fun w =>
    if h : Identifier.isDotted w.text = true then some ⟨w, h⟩ else none

/-- The written form of a function name. -/
def spelling (n : FunctionName) : String :=
  n.word.filled

end FunctionName

end CypherCompose
