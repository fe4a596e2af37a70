import CypherCompose.Clause.Form
import CypherCompose.Expr.Assignment

/-!
# Clauses

Clauses that can be written, with their arguments read.  `Clause.render` gives their tokens; a body
inside a clause is written like a statement, clause after clause.
-/

namespace CypherCompose

/-- Ascending or descending. -/
inductive SortOrder where
  | asc
  | desc
  deriving DecidableEq, Repr

/-- The keyword of a sort order. -/
def SortOrder.keyword : SortOrder → String
  | asc => "ASC"
  | desc => "DESC"

/-- An expression to sort by. -/
structure SortKey where
  expr : Expr
  order : Option SortOrder

/-- A projected expression, with a name of its own or without. -/
structure Projection where
  expr : Expr
  name : Option Name

/-- What a REMOVE takes away. -/
inductive Removal where
  | property (e : Expr)
  | label (name label : Name)

/-- A number of rows. -/
inductive RowCount where
  | number (n : Nat)
  | param (p : ParamName)

/-- Where a file is loaded from. -/
inductive CsvSource where
  | url (s : String)
  | param (p : ParamName)

/-- What a constraint demands of its properties. -/
inductive Constraint where
  | unique
  | notNull
  deriving DecidableEq, Repr

/-- A clause of a statement. -/
inductive Clause where
  | matching (optional : Bool) (paths : List (Path Expr))
  | filter (condition : Expr)
  /-- No items stand for all variables. -/
  | returning (distinct : Bool) (items : List Projection)
  | passing (distinct : Bool) (items : List Projection)
  | unwind (source : Expr) (name : Name)
  | create (paths : List (Path Expr))
  | merge (paths : List (Path Expr))
  | set (assignments : List Assignment)
  | onMerge (event : MergeEvent) (assignments : List Assignment)
  | remove (items : List Removal)
  | delete (detach : Bool) (items : List Expr)
  | orderBy (keys : List SortKey)
  | skip (count : RowCount)
  | limit (count : RowCount)
  | union (all : Bool)
  | subquery (body : List Clause)
  | loadCsv (headers : Bool) (source : CsvSource) (name : Name) (terminator : Option String)
  | forEach (binding : Name) (source : Expr) (body : List Clause)
  | createIndex (label : Name) (properties : List Name) (name : Option Name) (ifNotExists : Bool)
  | dropIndex (name : Name)
  | createConstraint (kind : Constraint) (label : Name) (properties : List Name)
      (name : Option Name) (ifNotExists : Bool)
  | dropConstraint (name : Name)

end CypherCompose
