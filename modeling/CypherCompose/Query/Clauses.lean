import CypherCompose.Error

/-!
# The clauses of a query

A query is given as a list of clauses, as a builder, as a single clause, or as a comprehension,
which stands for a MATCH, a WHERE if it has a filter, and a RETURN.
-/

namespace CypherCompose

namespace Query

/-- Whether a value is a text that is not empty. -/
def isNamed (v : Value) : Bool :=
  v.text?.any (· != "")

/-- The clauses that a comprehension stands for. -/
def desugar (v : Value) : Except Error (List Value) :=
  match v with
  | .comprehension projection binding label filter =>
      if !isNamed binding then .error (Error.clause (.noBinding v)).raised
      else if !isNamed label then .error (Error.clause (.noLabel v)).raised
      else if projection.isNull then .error (Error.clause (.nothingProjected v)).raised
      else
        let filters := if filter.isNull then [] else [.clause (.filter filter)]
        .ok (.clause (.matching false (.nodeRef binding label .null)) :: filters
          ++ [.clause (.returning (.list [projection]) (.bool false))])
  | v => .error (Error.clause (.notComprehension v)).raised

/-- The clauses of a query. -/
def clausesOf (query : Value) : Except Error (List Value) :=
  match query with
  | .comprehension .. => desugar query
  | .builder _ cs => .ok cs
  | .list xs => .ok xs
  | .tuple xs => .ok xs
  | .clause _ => .ok [query]
  | .assign .. => .ok [query]
  | v => .error (Error.clause (.notQuery v)).raised

end Query

end CypherCompose
