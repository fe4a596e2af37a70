import CypherCompose.Clause.Reading
import CypherCompose.Clause.Render
import CypherCompose.Parameter.Registry
import CypherCompose.Query.Access
import CypherCompose.Query.Clauses
import CypherCompose.Query.Validation

/-!
# Statements

`compile` takes a query to its statement: the clauses are found and validated, read and written over
a fresh table of parameters, the table is settled with the caller's values, and the access mode is
inferred.  The first step that fails decides the error.
-/

namespace CypherCompose

/-- A statement ready to run. -/
structure Statement where
  text : String
  parameters : List (ParamName × Value)
  mode : AccessMode

namespace Statement

/-- The parameters as a map. -/
def parameterMap (s : Statement) : Value :=
  .map (s.parameters.map fun p => (p.1.toValue, p.2))

/-- The statement as a value. -/
def toValue (s : Statement) : Value :=
  .statement (.text s.text) s.parameterMap (.atom (.mode s.mode))

/-- The statement of some clauses with the caller's values. -/
def ofClauses (clauses : List Value) (parameters override : Value) : Except Error Statement := do
  Query.checkClauses .statement (.list clauses) clauses
  let (cs, registry) := Registry.empty.run (readClauses clauses)
  let cs ← cs
  let table ← (registry.finalize parameters).1
  match Query.inferMode (.list clauses) override with
  | .error m => .error (.misuse m)
  | .ok mode => .ok ⟨Token.spell (Clause.renderAll cs), table, mode⟩

/-- The statement of a query. -/
def compile (query parameters override : Value) : Except Error Statement :=
  match Query.clausesOf query with
  | .error e => .error e
  | .ok clauses => ofClauses clauses parameters override

end Statement

end CypherCompose
