import CypherCompose.Name
import CypherCompose.Text.Literal

/-!
# Tokens

A statement is written as a list of tokens: keywords and signs, blanks, names, parameters, strings
and numbers.  Its text is their spellings in a row (`Token.spell`).
-/

namespace CypherCompose

/-- A piece of a statement's text. -/
inductive Token where
  /-- A keyword, an operator or a sign, spelled as it is. -/
  | sym (s : String)
  | blank
  | name (n : Name)
  /-- A name filled into a template. -/
  | filledName (n : Name)
  | function (f : FunctionName)
  | param (p : ParamName)
  | string (s : String)
  /-- A number; those with too many digits to be written are refused on reading. -/
  | numeral (n : Nat)
  /-- The magnitude of a double. -/
  | decimal (x : Binary64.Finite)
  deriving DecidableEq, Repr

namespace Token

/-- The text of one token. -/
def spelling : Token → String
  | sym s => s
  | blank => " "
  | name n => n.spelling
  | filledName n => n.filled
  | function f => f.spelling
  | param p => p.token
  | string s => Literal.quote s
  | numeral n => toString n
  | decimal x => x.magnitude

/-- The text of a list of tokens. -/
def spell : List Token → String
  | [] => ""
  | t :: ts => t.spelling ++ spell ts

@[simp] theorem spell_nil : spell [] = "" := rfl

@[simp] theorem spell_cons (t : Token) (ts : List Token) :
    spell (t :: ts) = t.spelling ++ spell ts := rfl

@[simp] theorem spell_append (ts us : List Token) : spell (ts ++ us) = spell ts ++ spell us := by
  induction ts with
  | nil => simp
  | cons t ts ih => simp [ih, String.append_assoc]

/-- Lists of tokens with a comma and a blank between them. -/
def commas (parts : List (List Token)) : List Token :=
  List.intercalate [sym ",", blank] parts

/-- Lists of tokens with a blank between them. -/
def blanks (parts : List (List Token)) : List Token :=
  List.intercalate [blank] parts

/-- Tokens filled into a template: a lone name takes its filled form. -/
def fill : List Token → List Token
  | [name n] => [filledName n]
  | ts => ts

/-- Tokens between parentheses. -/
def parens (ts : List Token) : List Token :=
  sym "(" :: (fill ts ++ [sym ")"])

/-- The keyword and what follows it. -/
def after (keyword : String) (ts : List Token) : List Token :=
  sym keyword :: blank :: ts

/-- Whether the text starts with a minus sign. -/
def startsWithMinus : List Token → Bool
  | sym s :: _ => s == "-"
  | _ => false

end Token

end CypherCompose
