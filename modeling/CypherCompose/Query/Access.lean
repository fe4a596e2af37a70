import CypherCompose.Text.Lowercase
import CypherCompose.Value.Membership

/-!
# Access modes

A statement writes if one of its clauses changes the database, at the top or inside a subquery.  A
FOREACH counts without a look at its body, which holds nothing else.  The caller may override the
mode.
-/

namespace CypherCompose

namespace Query

mutual

/-- Whether a clause changes the database. -/
def mutates : Value → Except Misuse Bool
  | .assign .. => .ok true
  | .clause (.subquery body) => bodyMutates body
  | .clause c => .ok c.isMutation
  | _ => .ok false

/-- Whether the body of a subquery changes the database; what counts as false stands for no
clauses. -/
def bodyMutates : Value → Except Misuse Bool
  | .list xs => anyMutates xs
  | .tuple xs => anyMutates xs
  | .builder _ xs => anyMutates xs
  | .map es => anyKeyMutates es
  | v => do
      if (← v.truth) && v.items?.isNone then .error (.notIterable v) else .ok false

/-- Whether one of the clauses changes the database. -/
def anyMutates : List Value → Except Misuse Bool
  | [] => .ok false
  | c :: cs => do
      if ← mutates c then .ok true else anyMutates cs

/-- Whether one of the keys is a clause that changes the database. -/
def anyKeyMutates : List (Value × Value) → Except Misuse Bool
  | [] => .ok false
  | (c, _) :: es => do
      if ← mutates c then .ok true else anyKeyMutates es

end

/-- Whether one of the clauses that walking through a value visits changes the database. -/
def hasMutations (clauses : Value) : Except Misuse Bool :=
  match clauses.items? with
  | some cs => anyMutates cs
  | none => .error (.notIterable clauses)

/-- The access mode that a caller names, in any letter case. -/
def accessModeOf (v : Value) : Except Misuse AccessMode :=
  match v.text? with
  | some s =>
      match AccessMode.ofText? (lowercase s) with
      | some m => .ok m
      | none => .error (.notAccessMode (.text (lowercase s)))
  | none => .error (if v.isWritable then .notAccessMode v else .unwritable)

/-- The access mode of clauses; an override always wins. -/
def inferMode (clauses override : Value) : Except Misuse AccessMode :=
  if override.isNull then
    (hasMutations clauses).map fun b => if b then .write else .read
  else accessModeOf override

end Query

end CypherCompose
