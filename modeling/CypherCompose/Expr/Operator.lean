import CypherCompose.Text.Lowercase

/-!
# Operators

The operators of expressions, their signs and their precedence.  An operator may be spelled in
several ways and in any letter case.
-/

namespace CypherCompose

/-- The levels of expressions, from the loosest to the tightest. -/
inductive Prec where
  | or
  | xor
  | and
  | not
  | comparison
  | sum
  | product
  | power
  | negation
  | atom
  deriving DecidableEq, Repr

namespace Prec

/-- The place of a level. -/
def rank : Prec → Nat
  | or => 1
  | xor => 2
  | and => 3
  | not => 4
  | comparison => 5
  | sum => 6
  | product => 7
  | power => 8
  | negation => 9
  | atom => 10

instance : LT Prec := ⟨fun p q => p.rank < q.rank⟩
instance : LE Prec := ⟨fun p q => p.rank ≤ q.rank⟩
instance (p q : Prec) : Decidable (p < q) := inferInstanceAs (Decidable (p.rank < q.rank))
instance (p q : Prec) : Decidable (p ≤ q) := inferInstanceAs (Decidable (p.rank ≤ q.rank))

theorem rank_injective {p q : Prec} (h : p.rank = q.rank) : p = q := by
  cases p <;> cases q <;> simp_all [rank]

end Prec

/-- Operators between two operands. -/
inductive BinaryOp where
  | or
  | xor
  | and
  | eq
  | ne
  | lt
  | gt
  | le
  | ge
  | regex
  | startsWith
  | endsWith
  | contains
  | isIn
  | add
  | sub
  | mul
  | div
  | mod
  | pow
  deriving DecidableEq, Repr

namespace BinaryOp

/-- The sign of an operator in a statement. -/
def token : BinaryOp → String
  | or => "OR"
  | xor => "XOR"
  | and => "AND"
  | eq => "="
  | ne => "<>"
  | lt => "<"
  | gt => ">"
  | le => "<="
  | ge => ">="
  | regex => "=~"
  | startsWith => "STARTS WITH"
  | endsWith => "ENDS WITH"
  | contains => "CONTAINS"
  | isIn => "IN"
  | add => "+"
  | sub => "-"
  | mul => "*"
  | div => "/"
  | mod => "%"
  | pow => "^"

/-- The level of an operator. -/
def prec : BinaryOp → Prec
  | or => .or
  | xor => .xor
  | and => .and
  | eq | ne | lt | gt | le | ge | regex | startsWith | endsWith | contains | isIn => .comparison
  | add | sub => .sum
  | mul | div | mod => .product
  | pow => .power

/-- Operators whose grouping does not matter. -/
def isAssociative : BinaryOp → Bool
  | and | or | xor | add | mul => true
  | _ => false

/-- The spellings of the operators, in lower case. -/
def spellings : List (String × BinaryOp) :=
  [("or", or), ("xor", xor), ("and", and), ("=", eq), ("==", eq), ("<>", ne), ("!=", ne),
    ("<", lt), (">", gt), ("<=", le), (">=", ge), ("=~", regex), ("matches", regex),
    ("starts_with", startsWith), ("startswith", startsWith), ("ends_with", endsWith),
    ("endswith", endsWith), ("contains", contains), ("in", isIn), ("+", add), ("-", sub),
    ("*", mul), ("/", div), ("%", mod), ("^", pow)]

/-- The operator of a spelling. -/
def ofSpelling? (s : String) : Option BinaryOp :=
  spellings.lookup (lowercase s)

end BinaryOp

/-- Operators on one operand. -/
inductive UnaryOp where
  | not
  | neg
  | isNull
  | isNotNull
  deriving DecidableEq, Repr

namespace UnaryOp

/-- The sign of an operator in a statement. -/
def token : UnaryOp → String
  | not => "NOT"
  | neg => "-"
  | isNull => "IS NULL"
  | isNotNull => "IS NOT NULL"

/-- The spellings of the operators, in lower case. -/
def spellings : List (String × UnaryOp) :=
  [("not", not), ("!", not), ("-", neg), ("neg", neg), ("is_null", isNull), ("isnull", isNull),
    ("isnothing", isNull), ("is_not_null", isNotNull), ("isnotnull", isNotNull)]

/-- The operator of a spelling. -/
def ofSpelling? (s : String) : Option UnaryOp :=
  spellings.lookup (lowercase s)

end UnaryOp

end CypherCompose
