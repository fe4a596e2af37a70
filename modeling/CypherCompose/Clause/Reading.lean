import CypherCompose.Clause.Basic
import CypherCompose.Piece

/-!
# Reading clauses

`readPlain` reads the clauses without a body.  `readClause` reads any clause; SET clauses and bare
assignments come out as assignments, and `groupRuns` joins every run of them into one SET.
-/

namespace CypherCompose

/-- A name that a clause needs. -/
def readAlias (c name : Value) : Draft Name :=
  Draft.ofOption (.clause (.badName name c)) (Name.ofValue? name)

/-- A name that a clause may have. -/
def readOptionalAlias (c name : Value) : Draft (Option Name) :=
  if name.isNull then .done none else some <$> readAlias c name

/-- An expression where a bare text names a variable. -/
def readOperand (v : Value) : Draft Expr :=
  if v.isText then readVar v else Expr.ofValue v

/-- The items of a clause, which needs at least one. -/
def readItems (none : ClauseError) (items : Value) : Draft (List Value) :=
  if items.asList.isEmpty then .fail (.clause none) else .done items.asList

/-- The patterns of a clause. -/
def readClausePatterns (c patterns : Value) : Draft (List (Path Expr)) := do
  let items ← readItems (.noPatterns c) patterns
  readEachPattern items

/-- Values read one after the other. -/
def readEachWith {α : Type} (read : Value → Draft α) : List Value → Draft (List α)
  | [] => .done []
  | v :: vs => do
      let a ← read v
      let as ← readEachWith read vs
      pure (a :: as)

/-- The one pattern of a MERGE. -/
def readMergePattern (c pattern : Value) : Draft (List (Path Expr)) :=
  match pattern.asList with
  | [v] => pathsOf v
  | vs => .fail (.clause (.mergeCount vs.length c))

/-- An item of a projection. -/
def readProjection (c : Value) : Value → Draft Projection
  | .aliased expr name => do
      let e ← readOperand expr
      let n ← readAlias c name
      pure ⟨e, some n⟩
  | v => do
      let e ← readOperand v
      pure ⟨e, none⟩

/-- An item of a SET: an assignment, or a pair of its two sides. -/
def readSetItem (c : Value) : Value → Draft Assignment
  | .assign target value => readAssign target value
  | .tuple [target, value] => readAssign target value
  | v => .fail (.clause (.badAssignment v c))

/-- The assignments of a clause. -/
def readAssignments (c assignments : Value) : Draft (List Assignment) := do
  let items ← readItems (.noAssignments c) assignments
  readEachWith (readSetItem c) items

/-- The words for the sort orders. -/
def SortOrder.spellings : List (String × SortOrder) :=
  [("asc", asc), ("ascending", asc), ("desc", desc), ("descending", desc)]

/-- The sort order that a value marks. -/
def SortOrder.ofValue? (v : Value) : Option SortOrder :=
  v.text?.bind fun s => spellings.lookup (lowercase s)

/-- The keys of an ORDER BY from position `i` on.  A marker belongs to the expression before it. -/
def readSortKeys (c : Value) : Nat → List Value → Draft (List SortKey)
  | _, [] => .done []
  | i, item :: rest =>
      if (SortOrder.ofValue? item).isSome then .fail (.clause (.strayMarker item i c))
      else
        match item with
        | .orderItem expr direction => do
            let o ← Draft.ofOption (.clause (.badSortDirection direction item c))
              (SortOrder.ofValue? direction)
            let e ← readOperand expr
            let keys ← readSortKeys c (i + 1) rest
            pure (⟨e, some o⟩ :: keys)
        | _ => do
            let e ← readOperand item
            match rest with
            | [] => pure [⟨e, none⟩]
            | next :: rest' =>
                match SortOrder.ofValue? next with
                | some o => do
                    let keys ← readSortKeys c (i + 2) rest'
                    pure (⟨e, some o⟩ :: keys)
                | none => do
                    let keys ← readSortKeys c (i + 1) (next :: rest')
                    pure (⟨e, none⟩ :: keys)

/-- The number of a SKIP or a LIMIT. -/
def readCount (c : Value) : Value → Draft RowCount
  | .int n =>
      if n < 0 then .fail (.clause (.negativeCount n c))
      else do
        let n ← Draft.integer n
        pure (.number n.toNat)
  | .param name value => do
      let p ← Draft.parameter name value
      pure (.param p)
  | v => .fail (.clause (.badCount v c))

/-- Where a LOAD CSV loads from. -/
def readSource (c : Value) : Value → Draft CsvSource
  | .param name value => do
      let p ← Draft.parameter name value
      pure (.param p)
  | v =>
      match v.text? with
      | some s => .done (.url s)
      | none => .fail (.clause (.badCsvSource v c))

/-- The field terminator of a LOAD CSV. -/
def readTerminator (c v : Value) : Draft (Option String) :=
  if v.isNull then .done none
  else
    match v.text? with
    | some s => if s.length == 1 then .done (some s) else .fail (.clause (.badTerminator v c))
    | none => .fail (.clause (.badTerminator v c))

/-- A name taken from a value that counts as true. -/
def readTrueName (v : Value) : Draft Name :=
  Draft.ofOption (.misuse (.notText v)) (Name.ofValue? v)

/-- An item of a REMOVE: a property, or a node with a name and a label. -/
def readRemoval (c : Value) : Value → Draft Removal
  | .property owner key => do
      let e ← readProperty owner key
      pure (.property e)
  | .nodeRef name label props => do
      let bad := Draft.fail (.clause (.badRemoval (.nodeRef name label props) c))
      if ← Draft.ofMisuse name.truth then
        if ← Draft.ofMisuse label.truth then
          let n ← readTrueName name
          let l ← readTrueName label
          pure (.label n l)
        else bad
      else bad
  | v => .fail (.clause (.badRemoval v c))

/-- A property of a definition. -/
def readPropertyName (c v : Value) : Draft Name :=
  Draft.ofOption (.clause (.badPropertyName v c)) (Name.ofValue? v)

/-- The properties of a definition. -/
def readPropertyNames (c properties : Value) : Draft (List Name) := do
  let items ← readItems (.noProperties c) properties
  readEachWith (readPropertyName c) items

/-- The words for the constraints. -/
def Constraint.spellings : List (String × Constraint) :=
  [("unique", unique), ("not_null", notNull), ("notnull", notNull)]

/-- The constraint that a value names. -/
def Constraint.ofValue? (v : Value) : Option Constraint :=
  v.display?.bind fun s => spellings.lookup (lowercase s)

/-- A clause without a body that is not a SET; `i` is its position. -/
def readPlain (i : Nat) (v : Value) : Draft Clause :=
  match v with
  | .clause (.matching optional patterns) => do
      let ps ← readClausePatterns v patterns
      pure (.matching optional ps)
  | .clause (.filter conditions) => do
      let items ← readItems (.noConditions v) conditions
      let es ← readEachWith Expr.ofValue items
      match es with
      | [] => .fail (.clause (.noConditions v))
      | e :: es => pure (.filter (Expr.join .and e es))
  | .clause (.returning items distinct) => do
      let ps ← readEachWith (readProjection v) items.asList
      let d ← Draft.ofMisuse distinct.truth
      pure (.returning d ps)
  | .clause (.passing items distinct) => do
      let vs ← readItems (.noProjection v) items
      let d ← Draft.ofMisuse distinct.truth
      let ps ← readEachWith (readProjection v) vs
      pure (.passing d ps)
  | .clause (.unwind source name) => do
      let e ← Expr.ofValue source
      let n ← readAlias v name
      pure (.unwind e n)
  | .clause (.create patterns) => do
      let ps ← readClausePatterns v patterns
      pure (.create ps)
  | .clause (.merge pattern) => do
      let ps ← readMergePattern v pattern
      pure (.merge ps)
  | .clause (.onMerge event assignments) => do
      let as ← readAssignments v assignments
      pure (.onMerge event as)
  | .clause (.remove items) => do
      let vs ← readItems (.noRemovals v) items
      let rs ← readEachWith (readRemoval v) vs
      pure (.remove rs)
  | .clause (.delete detach items) => do
      let vs ← readItems (.noItems v) items
      let es ← readEachWith readOperand vs
      pure (.delete detach es)
  | .clause (.orderBy items) => do
      let vs ← readItems (.noSortKeys v) items
      let keys ← readSortKeys v 0 vs
      pure (.orderBy keys)
  | .clause (.skip count) => do
      let n ← readCount v count
      pure (.skip n)
  | .clause (.limit count) => do
      let n ← readCount v count
      pure (.limit n)
  | .clause (.union all) => pure (.union all)
  | .clause (.loadCsv headers source name terminator) => do
      let s ← readSource v source
      let n ← readAlias v name
      let t ← readTerminator v terminator
      pure (.loadCsv headers s n t)
  | .clause (.createIndex label properties name ifNotExists) => do
      let l ← readAlias v label
      let ks ← readPropertyNames v properties
      let n ← readOptionalAlias v name
      let guard ← Draft.ofMisuse ifNotExists.truth
      pure (.createIndex l ks n guard)
  | .clause (.dropIndex name) => do
      let n ← readAlias v name
      pure (.dropIndex n)
  | .clause (.createConstraint label properties constraint name ifNotExists) => do
      let kind ← Draft.ofOption (.clause (.badConstraint constraint v))
        (Constraint.ofValue? constraint)
      let l ← readAlias v label
      let ks ← readPropertyNames v properties
      let n ← readOptionalAlias v name
      let guard ← Draft.ofMisuse ifNotExists.truth
      if kind = .notNull && ks.length != 1 then .fail (.clause (.notNullCount v))
      else pure (.createConstraint kind l ks n guard)
  | .clause (.dropConstraint name) => do
      let n ← readAlias v name
      pure (.dropConstraint n)
  | v => .fail (.clause (.unknownClause i v))

/-- A clause read: assignments of a SET, or a clause that stands for itself. -/
inductive ClauseReading where
  | assignments (as : List Assignment)
  | clause (c : Clause)

/-- Assignments as a clause, if there are any. -/
def setOf (as : List Assignment) : List Clause :=
  if as.isEmpty then [] else [.set as]

/-- The clauses that were read after `pending` assignments: every run of assignments is one SET. -/
def groupFrom (pending : List Assignment) : List ClauseReading → List Clause
  | [] => setOf pending
  | .assignments as :: rs => groupFrom (pending ++ as) rs
  | .clause c :: rs => setOf pending ++ c :: groupFrom [] rs

/-- The clauses that were read. -/
def groupRuns (rs : List ClauseReading) : List Clause :=
  groupFrom [] rs

mutual

/-- The clause at position `i`. -/
def readClause (i : Nat) : Value → Draft ClauseReading
  | .assign target value => do
      let a ← readAssign target value
      pure (.assignments [a])
  | .clause (.set assignments) => do
      let as ← readAssignments (.clause (.set assignments)) assignments
      pure (.assignments as)
  | .clause (.subquery body) => do
      let cs ← readBody (.clause (.subquery body)) body
      pure (.clause (.subquery cs))
  | .clause (.forEach source binding body) => do
      let v := Value.clause (.forEach source binding body)
      let e ← Expr.ofValue source
      let cs ← readBody v body
      let n ← readAlias v binding
      pure (.clause (.forEach n e cs))
  | v => do
      let c ← readPlain i v
      pure (.clause c)

/-- The clauses of a body; `owner` is the clause it belongs to. -/
def readBody (owner : Value) : Value → Draft (List Clause)
  | .list xs => do
      let rs ← readEachClause 0 xs
      pure (groupRuns rs)
  | .tuple xs => do
      let rs ← readEachClause 0 xs
      pure (groupRuns rs)
  | .builder _ xs => do
      let rs ← readEachClause 0 xs
      pure (groupRuns rs)
  | v => .fail (.clause (.badBody v owner))

/-- The clauses from position `i` on, one by one. -/
def readEachClause (i : Nat) : List Value → Draft (List ClauseReading)
  | [] => .done []
  | v :: vs => do
      let r ← readClause i v
      let rs ← readEachClause (i + 1) vs
      pure (r :: rs)

end

/-- The clauses of a statement. -/
def readClauses (clauses : List Value) : Draft (List Clause) := do
  let rs ← readEachClause 0 clauses
  pure (groupRuns rs)

end CypherCompose
