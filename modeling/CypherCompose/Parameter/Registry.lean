import CypherCompose.Parameter.Draft
import CypherCompose.Value.Membership

/-!
# The table of parameters

A `Registry` belongs to one statement.  It lists the parameters in the order of their first mention,
each with its value or `unset`; a second value for a name has to be the same as the first.
`finalize` fills the gaps from the caller's map and closes the table.

`Registry.run` grants the requests of a draft one by one.  What was entered before a refusal stays.
-/

namespace CypherCompose

/-- The parameters of one statement. -/
structure Registry where
  entries : List (ParamName × Value)
  closed : Bool

namespace Registry

/-- The table of a statement not yet read. -/
def empty : Registry :=
  ⟨[], false⟩

/-- The names, in the order of their first mention. -/
def names (r : Registry) : List ParamName :=
  r.entries.map (·.1)

/-- The value entered for a name. -/
def find? (r : Registry) (name : String) : Option Value :=
  (r.entries.find? fun e => e.1.text == name).map (·.2)

/-- The entries with another value under a name. -/
def withValue (name : String) (value : Value) (entries : List (ParamName × Value)) :
    List (ParamName × Value) :=
  entries.map fun e => if e.1.text == name then (e.1, value) else e

/-- Whether a value stands for no value yet. -/
def isUnset : Value → Bool
  | .unset => true
  | _ => false

/-- Enters a parameter.  A closed table refuses every name and an open one names that are not plain;
a name that has a value already keeps it, and refuses any other. -/
def register (r : Registry) (q : Request) : Except Error Registry :=
  if r.closed then .error (Error.lateParameter q.name).raised
  else
    match ParamName.ofValue? q.name with
    | none => .error (Error.expr (.badParameterName q.name)).raised
    | some n =>
        match r.find? n.text with
        | none => .ok { r with entries := r.entries ++ [(n, q.value)] }
        | some current =>
            if isUnset q.value then .ok r
            else if isUnset current then
              .ok { r with entries := withValue n.text q.value r.entries }
            else if current.same q.value then .ok r
            else .error (Error.expr (.twoValues q.name current q.value)).raised

/-- Enters the parameters one by one, up to the first refusal. -/
def enterAll (r : Registry) : List Request → Registry × Option Error
  | [] => (r, none)
  | q :: qs =>
      match r.register q with
      | .ok r' => enterAll r' qs
      | .error e => (r, some e)

/-- What a draft comes to with this table, and the table it leaves. -/
def run {α : Type} (r : Registry) (d : Draft α) : Except Error α × Registry :=
  match r.enterAll d.requests with
  | (r', none) => (d.outcome, r')
  | (r', some e) => (.error e, r')

/-- Whether a name is in the table. -/
def contains (r : Registry) (name : Value) : Except Misuse Bool :=
  if name.isKey then
    .ok (r.entries.any fun e => name.same e.1.toValue)
  else .error (.notKey name)

/-- The caller's value for a name. -/
def boundValue? (bound : Value) (name : ParamName) : Except Misuse (Option Value) := do
  match bound with
  | .map es => .ok (Value.lookup name.toValue es)
  | _ =>
      if ← bound.contains name.toValue then .error (.notIndexed bound)
      else .ok none

/-- The final value of each parameter, `none` for those that have no value anywhere. -/
def resolve (bound : Value) :
    List (ParamName × Value) → Except Misuse (List (ParamName × Option Value))
  | [] => .ok []
  | (n, v) :: es => do
      let value ← if isUnset v then boundValue? bound n else .ok (some v)
      let rest ← resolve bound es
      .ok ((n, value) :: rest)

/-- Settles every parameter and closes the table.  Values met in the query win over the caller's;
names without any value are an error and leave the table open. -/
def finalize (r : Registry) (bound : Value) :
    Except Error (List (ParamName × Value)) × Registry :=
  match bound.truth with
  | .error m => (.error (.misuse m), r)
  | .ok given =>
      match resolve (if given then bound else .map []) r.entries with
      | .error m => (.error (.misuse m), r)
      | .ok settled =>
          match settled.filter (·.2.isNone) with
          | [] =>
              (.ok (settled.filterMap fun e => e.2.map fun v => (e.1, v)),
                { r with closed := true })
          | missing => (.error (.unbound (missing.map (·.1.toValue))), r)

end Registry

end CypherCompose
