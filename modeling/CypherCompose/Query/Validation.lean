import CypherCompose.Error

/-!
# Validation

Which lists of clauses make a statement, a subquery or the body of a FOREACH.  Validation looks at
the kinds of clauses and at their order, at every depth, and at no other argument; it runs before
anything is written.
-/

namespace CypherCompose

namespace Value

/-- Clauses of a kind that statements can hold. -/
def isKnownClause : Value → Bool
  | assign .. => true
  | clause c => c.isKnown
  | _ => false

/-- Clauses a FOREACH body may hold. -/
def isForEachBody : Value → Bool
  | assign .. => true
  | clause c => c.isForEachBody
  | _ => false

/-- Clauses that define or drop an index or a constraint. -/
def isDefinition : Value → Bool
  | clause c => c.isDefinition
  | _ => false

/-- Assignments that belong to the MERGE before them. -/
def isOnMerge : Value → Bool
  | clause c => c.isOnMerge
  | _ => false

/-- Clauses that assignments of a merge may follow. -/
def admitsOnMerge : Value → Bool
  | clause c => c.admitsOnMerge
  | _ => false

/-- The separators of queries. -/
def isUnion : Value → Bool
  | clause c => c.isUnion
  | _ => false

/-- Clauses whose kind has no answer: a clause of another kind is asked whether it has a name, and
array-like data does not say. -/
def isKindless : Value → Bool
  | clause (.unknown k) => k.truth?.isNone
  | _ => false

/-- Separators that keep repeated rows. -/
def isUnionAll : Value → Bool
  | clause (.union true) => true
  | _ => false

end Value

namespace Query

/-- The rules for the clause at position `i` of `count`, after the clause `before`. -/
def checkClause (scope : Scope) (count i : Nat) (before : Option Value) (c : Value) :
    Except Error Unit :=
  if c.isKindless then .error (.misuse .noTruth)
  else if !c.isKnownClause then .error (Error.clause (.unknownClause i c)).raised
  else if scope = .forEach && !c.isForEachBody then .error (Error.clause (.notMutation i c)).raised
  else if c.isDefinition && scope ≠ .statement then
    .error (Error.clause (.misplacedDefinition scope c)).raised
  else if c.isDefinition && 1 < count then .error (Error.clause (.sharedDefinition c)).raised
  else if c.isOnMerge && !before.any Value.admitsOnMerge then
    .error (Error.clause (.noMerge i c)).raised
  else if c.isUnion && (i == 0 || i + 1 == count) then .error (Error.clause (.openUnion i c)).raised
  else if c.isUnion && before.any Value.isUnion then .error (Error.clause (.doubleUnion i c)).raised
  else .ok ()

/-- The rules for a list as a whole, around those for its clauses: it may not be empty, and its
separators are all of one kind. -/
def checkList (scope : Scope) (shown : Value) (clauses : List Value)
    (each : Except Error Unit) : Except Error Unit :=
  if clauses.isEmpty then .error (Error.clause (.emptyClauseList scope shown)).raised
  else do
    each
    if clauses.any Value.isUnionAll && clauses.any (fun c => c.isUnion && !c.isUnionAll) then
      .error (Error.clause (.mixedUnions scope shown)).raised
    else .ok ()

mutual

/-- Checks the clauses from position `i` on. -/
def checkFrom (scope : Scope) (count : Nat) :
    Nat → Option Value → List Value → Except Error Unit
  | _, _, [] => .ok ()
  | i, before, c :: cs => do
      checkClause scope count i before c
      checkNested c
      checkFrom scope count (i + 1) (some c) cs

/-- Checks the body of a clause that has one. -/
def checkNested : Value → Except Error Unit
  | .clause (.subquery body) => checkBody .subquery (.clause (.subquery body)) body
  | .clause (.forEach source binding body) =>
      checkBody .forEach (.clause (.forEach source binding body)) body
  | _ => .ok ()

/-- Checks a body; `owner` is the clause it belongs to. -/
def checkBody (scope : Scope) (owner : Value) : Value → Except Error Unit
  | .list xs => checkList scope (.list xs) xs (checkFrom scope xs.length 0 none xs)
  | .tuple xs => checkList scope (.list xs) xs (checkFrom scope xs.length 0 none xs)
  | .builder _ xs => checkList scope (.list xs) xs (checkFrom scope xs.length 0 none xs)
  | v => .error (Error.clause (.badBody v owner)).raised

end

/-- Checks clauses that stand in a scope; `shown` is how messages show them. -/
def checkClauses (scope : Scope) (shown : Value) (clauses : List Value) :
    Except Error Unit :=
  checkList scope shown clauses (checkFrom scope clauses.length 0 none clauses)

/-- Checks a value that has to be a list of clauses. -/
def validate (scope : Scope) (clauses : Value) : Except Error Unit :=
  match clauses with
  | .list xs => checkClauses scope clauses xs
  | .tuple xs => checkClauses scope clauses xs
  | v => .error (Error.clause (.notClauseList scope v)).raised

end Query

end CypherCompose
