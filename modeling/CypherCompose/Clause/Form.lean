/-!
# Clause forms

A clause as a caller gives it: its kind and its arguments, of whatever type `α` arguments have.
Nothing is checked here; `ClauseForm.kind` is the name by which messages call a clause.
-/

namespace CypherCompose

/-- The two outcomes of a MERGE that can carry assignments. -/
inductive MergeEvent where
  | onCreate
  | onMatch
  deriving DecidableEq, Repr

/-- A clause with arguments of type `α`. -/
inductive ClauseForm (α : Type) where
  | matching (optional : Bool) (patterns : α)
  | filter (conditions : α)
  | returning (items distinct : α)
  | passing (items distinct : α)
  | unwind (source name : α)
  | create (patterns : α)
  | merge (pattern : α)
  | set (assignments : α)
  | onMerge (event : MergeEvent) (assignments : α)
  | remove (items : α)
  | delete (detach : Bool) (items : α)
  | orderBy (items : α)
  | skip (value : α)
  | limit (value : α)
  | union (all : Bool)
  | subquery (body : α)
  | loadCsv (headers : Bool) (source name terminator : α)
  | forEach (source binding body : α)
  | createIndex (label properties name ifNotExists : α)
  | dropIndex (name : α)
  | createConstraint (label properties constraint name ifNotExists : α)
  | dropConstraint (name : α)
  | unknown (kind : α)
  deriving DecidableEq, Repr

namespace ClauseForm

variable {α : Type}

/-- The name of a clause's kind. -/
def kindName : ClauseForm α → String
  | matching false _ => "Match"
  | matching true _ => "OptionalMatch"
  | filter _ => "Where"
  | returning .. => "Return"
  | passing .. => "With"
  | unwind .. => "Unwind"
  | create _ => "Create"
  | merge _ => "Merge"
  | set _ => "Set"
  | onMerge .onCreate _ => "OnCreateSet"
  | onMerge .onMatch _ => "OnMatchSet"
  | remove _ => "Remove"
  | delete false _ => "Delete"
  | delete true _ => "DetachDelete"
  | orderBy _ => "OrderBy"
  | skip _ => "Skip"
  | limit _ => "Limit"
  | union false => "Union"
  | union true => "UnionAll"
  | subquery _ => "CallSubquery"
  | loadCsv false .. => "LoadCsv"
  | loadCsv true .. => "LoadCsvHeaders"
  | forEach .. => "Foreach"
  | createIndex .. => "CreateIndex"
  | dropIndex _ => "DropIndex"
  | createConstraint .. => "CreateConstraint"
  | dropConstraint _ => "DropConstraint"
  | unknown _ => "UnknownClause"

/-- Clauses of a kind that statements can hold. -/
def isKnown : ClauseForm α → Bool
  | unknown _ => false
  | _ => true

/-- Clauses that define or drop an index or a constraint, each a statement of its own. -/
def isDefinition : ClauseForm α → Bool
  | createIndex .. | dropIndex _ | createConstraint .. | dropConstraint _ => true
  | _ => false

/-- Clauses a FOREACH body may hold. -/
def isForEachBody : ClauseForm α → Bool
  | create _ | merge _ | set _ | delete .. | remove _ | forEach .. => true
  | _ => false

/-- Clauses that change the database.  A FOREACH body holds only such clauses. -/
def isMutation : ClauseForm α → Bool
  | create _ | merge _ | set _ | onMerge .. | remove _ | delete .. | forEach .. => true
  | c => c.isDefinition

/-- The separators of queries. -/
def isUnion : ClauseForm α → Bool
  | union _ => true
  | _ => false

/-- Assignments that belong to the MERGE before them. -/
def isOnMerge : ClauseForm α → Bool
  | onMerge .. => true
  | _ => false

/-- Clauses that assignments of a merge may follow. -/
def admitsOnMerge : ClauseForm α → Bool
  | merge _ | onMerge .. => true
  | _ => false

end ClauseForm

end CypherCompose
