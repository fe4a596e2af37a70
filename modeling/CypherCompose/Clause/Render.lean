import CypherCompose.Clause.Basic

/-!
# The text of clauses

A clause is its keyword and its arguments; clauses stand in a row with blanks between them.
-/

namespace CypherCompose

open Token

/-- A key to sort by. -/
def SortKey.render (k : SortKey) : List Token :=
  match k.order with
  | some o => fill k.expr.render ++ [blank, sym o.keyword]
  | none => k.expr.render

/-- A projected expression. -/
def Projection.render (p : Projection) : List Token :=
  match p.name with
  | some n => fill p.expr.render ++ [blank, sym "AS", blank, filledName n]
  | none => p.expr.render

/-- The projected expressions; none stand for all variables. -/
def renderProjections (ps : List Projection) : List Token :=
  if ps.isEmpty then [sym "*"] else commas (ps.map Projection.render)

/-- What is taken away. -/
def Removal.render : Removal → List Token
  | property e => e.render
  | label n l => [filledName n, sym ":", filledName l]

/-- A number of rows. -/
def RowCount.render : RowCount → List Token
  | number n => [numeral n]
  | param p => [Token.param p]

/-- Where a file is loaded from. -/
def CsvSource.render : CsvSource → List Token
  | url s => [string s]
  | param p => [Token.param p]

/-- Assignments with commas between them. -/
def renderAssignments (as : List Assignment) : List Token :=
  commas (as.map Assignment.render)

/-- A word that stands only if the flag is set. -/
def flagged (flag : Bool) (keyword : String) : List Token :=
  if flag then [sym keyword, blank] else []

/-- The start of a definition: what is created, its name if it has one, and the guard. -/
def renderHead (what : String) (n : Option Name) (ifNotExists : Bool) : List Token :=
  [sym "CREATE", blank, sym what] ++ (match n with
    | some n => [blank, name n]
    | none => []) ++ (if ifNotExists then [blank, sym "IF NOT EXISTS"] else [])

/-- The nodes of a label. -/
def renderFor (label : Name) : List Token :=
  [blank, sym "FOR", blank, sym "(", sym "n", sym ":", filledName label, sym ")", blank]

/-- A property of such a node. -/
def renderKey (key : Name) : List Token :=
  [sym "n", sym ".", filledName key]

/-- What a constraint covers and demands; one property to be unique needs no parentheses. -/
def renderDemand (kind : Constraint) (properties : List Name) : List Token :=
  let keys := properties.map renderKey
  let covered := match keys with
    | [k] => k
    | ks => sym "(" :: (commas ks ++ [sym ")"])
  match kind with
  | .notNull => covered ++ [blank, sym "IS NOT NULL"]
  | .unique => covered ++ [blank, sym "IS UNIQUE"]

/-- Dropping a definition. -/
def renderDrop (what : String) (n : Name) : List Token :=
  [sym "DROP", blank, sym what, blank, filledName n, blank, sym "IF EXISTS"]

namespace Clause

mutual

/-- The tokens of a clause. -/
def render : Clause → List Token
  | matching optional paths => flagged optional "OPTIONAL" ++ after "MATCH" (pathTokens paths)
  | filter condition => after "WHERE" condition.render
  | returning distinct items =>
      after "RETURN" (flagged distinct "DISTINCT" ++ renderProjections items)
  | passing distinct items =>
      after "WITH" (flagged distinct "DISTINCT" ++ renderProjections items)
  | unwind source n =>
      after "UNWIND" (fill source.render ++ [blank, sym "AS", blank, filledName n])
  | create paths => after "CREATE" (pathTokens paths)
  | merge paths => after "MERGE" (pathTokens paths)
  | set assignments => after "SET" (renderAssignments assignments)
  | onMerge .onCreate assignments => after "ON CREATE SET" (renderAssignments assignments)
  | onMerge .onMatch assignments => after "ON MATCH SET" (renderAssignments assignments)
  | remove items => after "REMOVE" (commas (items.map Removal.render))
  | delete detach items =>
      flagged detach "DETACH" ++ after "DELETE" (commas (items.map Expr.render))
  | orderBy keys => after "ORDER BY" (commas (keys.map SortKey.render))
  | skip count => after "SKIP" count.render
  | limit count => after "LIMIT" count.render
  | union all => [sym (if all then "UNION ALL" else "UNION")]
  | subquery body =>
      [sym "CALL", blank, sym "\x7b", blank] ++ blanks (renderEach body)
        ++ [blank, sym "\x7d"]
  | loadCsv headers source n terminator =>
      after "LOAD CSV" (flagged headers "WITH HEADERS" ++ after "FROM" source.render)
        ++ [blank, sym "AS", blank, filledName n]
        ++ (match terminator with
          | some t => [blank, sym "FIELDTERMINATOR", blank, string t]
          | none => [])
  | forEach binding source body =>
      [sym "FOREACH", blank, sym "(", filledName binding, blank, sym "IN", blank]
        ++ fill source.render ++ [blank, sym "|", blank] ++ blanks (renderEach body) ++ [sym ")"]
  | createIndex label properties n ifNotExists =>
      renderHead "INDEX" n ifNotExists ++ renderFor label
        ++ [sym "ON", blank, sym "("] ++ commas (properties.map renderKey) ++ [sym ")"]
  | dropIndex n => renderDrop "INDEX" n
  | createConstraint kind label properties n ifNotExists =>
      renderHead "CONSTRAINT" n ifNotExists ++ renderFor label
        ++ after "REQUIRE" (renderDemand kind properties)
  | dropConstraint n => renderDrop "CONSTRAINT" n

/-- The tokens of clauses, one by one. -/
def renderEach : List Clause → List (List Token)
  | [] => []
  | c :: cs => c.render :: renderEach cs

end

/-- The tokens of clauses in a row. -/
def renderAll (cs : List Clause) : List Token :=
  blanks (renderEach cs)

end Clause

end CypherCompose
