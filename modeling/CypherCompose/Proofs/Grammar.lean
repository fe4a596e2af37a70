import CypherCompose.Expr.Operator
import CypherCompose.Proofs.Lexeme

/-!
# The grammar of expressions

`parse` reads the text of an expression as its grammar has it.  The levels are, from the loosest to
the tightest,

  OR, XOR, AND, NOT, comparisons and null tests, `+` and `-`, `*`, `/` and `%`, `^`, unary minus

over atoms.  Operators of one level group to the left; comparisons and null tests do not chain.  A
reader of one level is made from the reader of the next (`disjunction` down to `negation`), and the
atoms in turn from a reader of whole expressions, for what stands between brackets; the number that
`expression` takes bounds how deep brackets may nest.

Keywords may be in any letter case.  Where an operand may start, a word with a point behind it is the
first of a dotted name and no keyword.
-/

namespace CypherCompose

/-- What the text of an expression says. -/
inductive Term where
  | null
  | bool (b : Bool)
  | numeral (n : Nat)
  | string (s : String)
  | star
  | var (name : String)
  | property (owner key : String)
  | param (name : String)
  | list (items : List Term)
  | map (entries : List (String × Term))
  | binary (op : BinaryOp) (left right : Term)
  | unary (op : UnaryOp) (operand : Term)
  | call (name : String) (distinct : Bool) (args : List Term)
  | case (branches : List (Term × Term)) (default : Option Term)

namespace Term

/-- Whether a term applies the operator at its top. -/
def applies (op : BinaryOp) : Term → Bool
  | binary o _ _ => o == op
  | _ => false

/-- `t` and `u` under an operator, regrouped to the left: `t` goes in front of the first operand of
`u`, if `u` is a chain of operators of that level. -/
def graft (op : BinaryOp) (t : Term) : Term → Term
  | binary o l r =>
      if o.prec = op.prec then binary o (graft op t l) r else binary op t (binary o l r)
  | u => binary op t u

end Term

/-- Reads something off the front of the lexemes. -/
abbrev Reader (α : Type) :=
  List Lexeme → Option (α × List Lexeme)

namespace Grammar

/-! ## Words -/

/-- A word in lower case. -/
def folded (w : String) : String :=
  String.ofList (w.toList.map Char.toLower)

/-- The words that the grammar keeps for itself. -/
def reserved : List String :=
  ["or", "xor", "and", "not", "is", "null", "starts", "ends", "with", "contains", "in", "case", "when",
    "then", "else", "end", "true", "false", "distinct"]

/-- Words that are reserved in some letter case. -/
def isReserved (w : String) : Bool :=
  reserved.contains (folded w)

/-- Whether a point comes next. -/
def atPoint : List Lexeme → Bool
  | .sign s :: _ => s == "."
  | _ => false

/-- Takes a word, in any letter case. -/
def word? (k : String) : List Lexeme → Option (List Lexeme)
  | .word w :: ts => if folded w = k then some ts else none
  | _ => none

/-- Takes a keyword where an operand may start. -/
def keyword? (k : String) (ts : List Lexeme) : Option (List Lexeme) :=
  (word? k ts).filter fun rest => !atPoint rest

/-- Takes a sign. -/
def sign? (s : String) : List Lexeme → Option (List Lexeme)
  | .sign s' :: ts => if s' = s then some ts else none
  | _ => none

/-- Takes a name. -/
def name? : Reader String
  | .word w :: ts => some (w, ts)
  | .quoted s :: ts => some (s, ts)
  | _ => none

/-- Operators that are signs. -/
def signs : List (String × BinaryOp) :=
  [("=", .eq), ("<>", .ne), ("<", .lt), (">", .gt), ("<=", .le), (">=", .ge), ("=~", .regex),
    ("+", .add), ("-", .sub), ("*", .mul), ("/", .div), ("%", .mod), ("^", .pow)]

/-- Operators that are words. -/
def words : List (String × BinaryOp) :=
  [("or", .or), ("xor", .xor), ("and", .and), ("contains", .contains), ("in", .isIn)]

/-- Takes a binary operator. -/
def operator? : Reader BinaryOp
  | .sign s :: ts => (signs.lookup s).map (·, ts)
  | .word w :: ts =>
      if folded w = "starts" then (word? "with" ts).map (.startsWith, ·)
      else if folded w = "ends" then (word? "with" ts).map (.endsWith, ·)
      else (words.lookup (folded w)).map (·, ts)
  | _ => none

/-- Takes a null test. -/
def nullTest? (ts : List Lexeme) : Option (UnaryOp × List Lexeme) := do
  let ts ← word? "is" ts
  match word? "not" ts with
  | some ts => (word? "null" ts).map (.isNotNull, ·)
  | none => (word? "null" ts).map (.isNull, ·)

/-! ## Levels -/

/-- The operators of a level and their operands behind a first one. -/
def chainFrom (p : Prec) (operand : Reader Term) (t : Term) (ts : List Lexeme) :
    Option (Term × List Lexeme) :=
  match operator? ts with
  | some (op, rest) =>
      if op.prec = p then
        match operand rest with
        | some (u, rest) =>
            if rest.length < ts.length then chainFrom p operand (.binary op t u) rest else none
        | none => none
      else some (t, ts)
  | none => some (t, ts)
termination_by ts.length

/-- Operands with operators of a level between them. -/
def chain (p : Prec) (operand : Reader Term) : Reader Term := fun ts => do
  let (t, rest) ← operand ts
  chainFrom p operand t rest

section Levels

variable (atom : Reader Term)

/-- An atom behind any number of minus signs. -/
def negation : Reader Term
  | [] => atom []
  | t :: ts =>
      if (sign? "-" [t]).isSome then (negation ts).map fun r => (.unary .neg r.1, r.2)
      else atom (t :: ts)

def power : Reader Term :=
  chain .power (negation atom)

def product : Reader Term :=
  chain .product (power atom)

def sum : Reader Term :=
  chain .sum (product atom)

/-- What may follow the first operand of a comparison: an operator and a second one, or a test. -/
def comparisonFrom (t : Term) (ts : List Lexeme) : Option (Term × List Lexeme) :=
  match operator? ts with
  | some (op, rest) =>
      if op.prec = .comparison then (sum atom rest).map fun r => (.binary op t r.1, r.2)
      else some (t, ts)
  | none =>
      match nullTest? ts with
      | some (op, rest) => some (.unary op t, rest)
      | none => some (t, ts)

def comparison : Reader Term := fun ts => do
  let (t, rest) ← sum atom ts
  comparisonFrom atom t rest

/-- A comparison behind any number of NOTs. -/
def denial : Reader Term
  | [] => comparison atom []
  | t :: ts =>
      if (keyword? "not" (t :: ts)).isSome then
        (denial ts).map fun r => (.unary .not r.1, r.2)
      else comparison atom (t :: ts)

def conjunction : Reader Term :=
  chain .and (denial atom)

def exclusion : Reader Term :=
  chain .xor (conjunction atom)

def disjunction : Reader Term :=
  chain .or (exclusion atom)

/-- The reader of a level. -/
def level : Prec → Reader Term
  | .or => disjunction atom
  | .xor => exclusion atom
  | .and => conjunction atom
  | .not => denial atom
  | .comparison => comparison atom
  | .sum => sum atom
  | .product => product atom
  | .power => power atom
  | .negation => negation atom
  | .atom => atom

end Levels

/-! ## Atoms -/

/-- One item or more with commas between them, up to a closing sign. -/
def itemsFrom {α : Type} (item : Reader α) (close : String) (ts : List Lexeme) :
    Option (List α × List Lexeme) := do
  let (a, rest) ← item ts
  match sign? "," rest with
  | some rest =>
      if rest.length < ts.length then
        (itemsFrom item close rest).map fun r => (a :: r.1, r.2)
      else none
  | none => (sign? close rest).map ([a], ·)
termination_by ts.length

/-- Items with commas between them, up to a closing sign. -/
def items {α : Type} (item : Reader α) (close : String) : Reader (List α) := fun ts =>
  match sign? close ts with
  | some rest => some ([], rest)
  | none => itemsFrom item close ts

/-- The names behind points that follow a name. -/
def points : List Lexeme → List String × List Lexeme
  | .sign s :: t :: ts =>
      match if s = "." then name? [t] else none with
      | some (w, _) => (w :: (points ts).1, (points ts).2)
      | none => ([], .sign s :: t :: ts)
  | ts => ([], ts)

section Atoms

variable (expr : Reader Term)

/-- An argument of a call: an expression, or the star. -/
def argument : Reader Term := fun ts =>
  match sign? "*" ts with
  | some rest => some (.star, rest)
  | none => expr ts

/-- What follows the name and the opening parenthesis of a call. -/
def callFrom (name : String) (ts : List Lexeme) : Option (Term × List Lexeme) :=
  match keyword? "distinct" ts with
  | some ts => (items (argument expr) ")" ts).map fun r => (.call name true r.1, r.2)
  | none => (items (argument expr) ")" ts).map fun r => (.call name false r.1, r.2)

/-- What starts with a name: a call, a property or a variable. -/
def namedFrom (name : String) (ts : List Lexeme) : Option (Term × List Lexeme) :=
  let (keys, rest) := points ts
  match sign? "(" rest with
  | some rest => callFrom expr (".".intercalate (name :: keys)) rest
  | none =>
      match keys with
      | [] => some (.var name, rest)
      | [key] => some (.property name key, rest)
      | _ => none

/-- An entry of a map. -/
def entry : Reader (String × Term) := fun ts => do
  let (k, rest) ← name? ts
  let rest ← sign? ":" rest
  let (t, rest) ← expr rest
  some ((k, t), rest)

/-- The branches of a CASE and what follows them. -/
def branchesFrom (ts : List Lexeme) : Option (List (Term × Term) × List Lexeme) :=
  match word? "when" ts with
  | some rest => do
      let (c, rest) ← expr rest
      let rest ← word? "then" rest
      let (v, rest) ← expr rest
      if rest.length < ts.length then
        (branchesFrom rest).map fun r => ((c, v) :: r.1, r.2)
      else none
  | none => some ([], ts)
termination_by ts.length

/-- What follows the branches of a CASE. -/
def otherwise (ts : List Lexeme) : Option (Option Term × List Lexeme) :=
  match word? "else" ts with
  | some rest => (expr rest).map fun r => (some r.1, r.2)
  | none => some (none, ts)

/-- What follows the word CASE. -/
def caseFrom (ts : List Lexeme) : Option (Term × List Lexeme) := do
  let (branches, rest) ← branchesFrom expr ts
  let (default, rest) ← otherwise expr rest
  let rest ← word? "end" rest
  if branches = [] then none else some (.case branches default, rest)

/-- What a reserved word starts. -/
def reservedFrom (w : String) (ts : List Lexeme) : Option (Term × List Lexeme) :=
  if folded w = "null" then some (.null, ts)
  else if folded w = "true" then some (.bool true, ts)
  else if folded w = "false" then some (.bool false, ts)
  else if folded w = "case" then caseFrom expr ts
  else none

/-- What a bracket opens. -/
def bracketFrom (s : String) (ts : List Lexeme) : Option (Term × List Lexeme) :=
  if s = "(" then do
    let (t, rest) ← expr ts
    (sign? ")" rest).map (t, ·)
  else if s = "[" then (items expr "]" ts).map fun r => (.list r.1, r.2)
  else if s = "\x7b" then (items (entry expr) "\x7d" ts).map fun r => (.map r.1, r.2)
  else none

def atom : Reader Term
  | .numeral n :: ts => some (.numeral n, ts)
  | .string s :: ts => some (.string s, ts)
  | .param s :: ts => some (.param s, ts)
  | .quoted s :: ts => namedFrom expr s ts
  | .word w :: ts =>
      if isReserved w ∧ atPoint ts = false then reservedFrom expr w ts else namedFrom expr w ts
  | .sign s :: ts => bracketFrom expr s ts
  | [] => none

end Atoms

/-- An expression whose brackets nest at most so deep. -/
def expression : Nat → Reader Term
  | 0 => fun _ => none
  | n + 1 => disjunction (atom (expression n))

end Grammar

/-- What a text says as an expression, all of it. -/
def parse (s : String) : Option Term := do
  let ts ← lex s
  let (t, rest) ← Grammar.expression ts.length ts
  if rest = [] then some t else none

end CypherCompose
