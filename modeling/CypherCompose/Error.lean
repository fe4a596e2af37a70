import CypherCompose.Message

/-!
# Errors

Every way in which the library refuses a request, as the cause and the values it concerns.  The
wording is in the `wording` functions, and `fragment` is the piece of the query a message points at.

* `PatternError`, `ExprError`, `ClauseError`: a query that cannot be written as a statement.
* `Misuse`: a value used in a way its type does not allow, found before the query's own rules apply.
* `Error`: all of them, with the errors of parameters, schemas, settings and connections.

An error is raised with its message.  Where the message cannot be written, because it would show an
integer of too many digits, that misuse is raised in its place (`Error.raised`).
-/

namespace CypherCompose

/-- The kind of clause that a value is, as messages call it. -/
def Value.kind : Value → Phrase
  | .assign .. => "Set"
  | .clause (.unknown k) => if k.truth? == some false then "UnknownClause" else .bare k
  | v => v.typeName

/-! ## Patterns -/

/-- What a name in a pattern stands for. -/
inductive NameRole where
  | nodeName
  | label
  | relName
  | relType
  deriving DecidableEq, Repr

/-- The words for a role. -/
def NameRole.words : NameRole → String
  | nodeName => "node name"
  | label => "label"
  | relName => "relationship name"
  | relType => "relationship type"

/-- Why a pattern was refused. -/
inductive PatternError where
  | loneRelationship (pattern : Value)
  | notPattern (pattern : Value)
  | emptyList (patterns : Value)
  | notNode (node : Value)
  | notRelationship (rel : Value)
  | badName (role : NameRole) (name owner : Value)
  | negativeHops (rel : Value)
  | badHopBound (rel : Value)
  | hopRange (rel : Value)
  | badHops (rel : Value)
  | emptyChain (chain : Value)
  | stepCount (elements steps : Nat) (chain : Value)
  | evenChain (elements : Nat) (chain : Value)
  | nodeExpected (position : Nat) (element chain : Value)
  | relationshipExpected (position : Nat) (element chain : Value)
  | directions (position : Nat) (before after element : Value)
  | unknownDirection (direction : Value) (position : Nat) (chain : Value)

namespace PatternError

/-- A step's direction inside a message. -/
def directionName : Value → Phrase
  | .atom (.direction d) => d.text
  | v => .bare v

/-- The wording. -/
def wording : PatternError → Message
  | loneRelationship p => ["A relationship needs a node on each side: ", .shown p]
  | notPattern p =>
      ["Cannot parse pattern: ", .shown p, ". Expected NodeRef, Chain or a binding name"]
  | emptyList _ => ["Empty pattern list"]
  | notNode n => ["Expected a node, got: ", .shown n]
  | notRelationship r => ["Expected a relationship, got: ", .shown r]
  | badName role name owner => [s!"Invalid {role.words} ", .shown name, " in ", .shown owner]
  | negativeHops r => ["Negative hop count in ", .shown r]
  | badHopBound r => ["Hop bounds must be non-negative integers or None: ", .shown r]
  | hopRange r => ["Hop range min > max in ", .shown r]
  | badHops r => ["Hops must be an int or a (min, max) pair: ", .shown r]
  | emptyChain _ => ["Empty chain pattern"]
  | stepCount elements steps _ => [s!"Chain has {elements} elements but {steps} steps"]
  | evenChain elements _ =>
      ["Chain pattern must have odd number of elements (node, rel, node, ...), got "
        ++ toString elements]
  | nodeExpected i e _ => [s!"Expected a node at chain position {i}, got: ", .shown e]
  | relationshipExpected i e _ =>
      [s!"Expected a relationship at chain position {i}, got: ", .shown e]
  | directions i before after _ =>
      [s!"Inconsistent direction around relationship at chain position {i}: ",
        directionName before, " vs ", directionName after,
        ". Use `>> rel >>` for forward or `<< rel <<` for backward."]
  | unknownDirection d i _ => ["Unknown direction ", .shown d, s!" at chain position {i}"]

/-- The piece of the pattern the message is about. -/
def fragment : PatternError → Value
  | loneRelationship v | notPattern v | emptyList v | notNode v | notRelationship v => v
  | badName _ _ owner => owner
  | negativeHops v | badHopBound v | hopRange v | badHops v | emptyChain v => v
  | stepCount _ _ c | evenChain _ c | nodeExpected _ _ c | relationshipExpected _ _ c => c
  | directions _ _ _ e => e
  | unknownDirection _ _ c => c

end PatternError

/-! ## Expressions -/

/-- Why an expression was refused. -/
inductive ExprError where
  | notAssignment (value : Value)
  | badTarget (target assignment : Value)
  | noOwner (expr : Value)
  | noKey (expr : Value)
  | unnamedVariable (expr : Value)
  | unknownExpr (expr : Value)
  | notFinite (value : Value)
  | unsupportedLiteral (value : Value)
  | badMapKey (key map : Value)
  | unknownBinary (op expr : Value)
  | unknownUnary (op expr : Value)
  | badFunctionName (name expr : Value)
  | noBranches (expr : Value)
  | badBranch (branch expr : Value)
  | badParameterName (name : Value)
  | twoValues (name current value : Value)

namespace ExprError

/-- The wording. -/
def wording : ExprError → Message
  | notAssignment a => ["Expected a property assignment, got: ", .shown a]
  | badTarget t _ => ["Assignment target must be a property access: ", .shown t]
  | noOwner e => ["Property access without owner: ", .shown e]
  | noKey e => ["Expected property name in dot access: ", .shown e]
  | unnamedVariable e => ["Variable without a name: ", .shown e]
  | unknownExpr e => ["Cannot compile expression to Cypher: ", .shown e, s!" ({e.typeName})"]
  | notFinite v =>
      ["Non-finite float has no Cypher literal, pass it as a parameter: ", .shown v]
  | unsupportedLiteral v =>
      [s!"Unsupported literal of type {v.typeName}: ", .shown v,
        ". Pass it as a parameter instead."]
  | badMapKey k _ => ["Map keys must be non-empty strings, got: ", .shown k]
  | unknownBinary op e => ["Unknown binary operator ", .shown op, " in ", .shown e]
  | unknownUnary op e => ["Unknown unary operator ", .shown op, " in ", .shown e]
  | badFunctionName n _ => ["Invalid function name: ", .shown n]
  | noBranches e => ["CASE needs at least one WHEN branch: ", .shown e]
  | badBranch b _ => ["CASE branch must be a (condition, value) pair: ", .shown b]
  | badParameterName n => ["Invalid parameter name: ", .shown n]
  | twoValues n c v =>
      ["Parameter $", .bare n, " bound to two different values: ", .shown c, " and ", .shown v]

/-- The piece of the expression the message is about. -/
def fragment : ExprError → Value
  | notAssignment v => v
  | badTarget _ a => a
  | noOwner e | noKey e | unnamedVariable e | unknownExpr e => e
  | notFinite v | unsupportedLiteral v => v
  | badMapKey _ m => m
  | unknownBinary _ e | unknownUnary _ e | badFunctionName _ e => e
  | noBranches e | badBranch _ e => e
  | badParameterName n | twoValues n _ _ => n

end ExprError

/-! ## Clauses -/

/-- Where a list of clauses stands. -/
inductive Scope where
  | statement
  | subquery
  | forEach
  | other (name : String)
  deriving DecidableEq, Repr

namespace Scope

/-- The name of a scope. -/
def name : Scope → String
  | statement => "statement"
  | subquery => "subquery"
  | forEach => "foreach"
  | other s => s

/-- The scope of a name. -/
def ofName (s : String) : Scope :=
  if s == "statement" then statement
  else if s == "subquery" then subquery
  else if s == "foreach" then forEach
  else other s

end Scope

/-- Why a list of clauses, or a clause, was refused. -/
inductive ClauseError where
  | notQuery (query : Value)
  | notClauseList (scope : Scope) (clauses : Value)
  | emptyClauseList (scope : Scope) (clauses : Value)
  | unknownClause (position : Nat) (clause : Value)
  | notMutation (position : Nat) (clause : Value)
  | misplacedDefinition (scope : Scope) (clause : Value)
  | sharedDefinition (clause : Value)
  | noMerge (position : Nat) (clause : Value)
  | openUnion (position : Nat) (clause : Value)
  | doubleUnion (position : Nat) (clause : Value)
  | mixedUnions (scope : Scope) (clauses : Value)
  | badBody (body clause : Value)
  | noAssignments (clause : Value)
  | badAssignment (item clause : Value)
  | noConditions (clause : Value)
  | noProjection (clause : Value)
  | noSortKeys (clause : Value)
  | strayMarker (item : Value) (position : Nat) (clause : Value)
  | badSortDirection (direction item clause : Value)
  | badCsvSource (source clause : Value)
  | badTerminator (terminator clause : Value)
  | mergeCount (count : Nat) (clause : Value)
  | noRemovals (clause : Value)
  | badRemoval (item clause : Value)
  | noPatterns (clause : Value)
  | noItems (clause : Value)
  | negativeCount (count : Int) (clause : Value)
  | badCount (value clause : Value)
  | badName (name clause : Value)
  | noProperties (clause : Value)
  | badPropertyName (name clause : Value)
  | badConstraint (constraint clause : Value)
  | notNullCount (clause : Value)
  | notComprehension (value : Value)
  | noBinding (comprehension : Value)
  | noLabel (comprehension : Value)
  | nothingProjected (comprehension : Value)

namespace ClauseError

/-- The wording. -/
def wording : ClauseError → Message
  | notQuery q =>
      [s!"Cannot compile {q.typeName}: expected a clause list, a Cypher builder or a Comprehension"]
  | notClauseList scope cs => [s!"Expected a list of clauses in {scope.name}, got: ", .shown cs]
  | emptyClauseList scope _ => [s!"Empty clause list in {scope.name}"]
  | unknownClause i c => [s!"Unknown clause kind at position {i}: ", c.kind]
  | notMutation i c =>
      ["Only mutation clauses allowed in FOREACH body "
        ++ "(Create, Merge, Set, Delete, DetachDelete, Remove, Foreach), got ",
        c.kind, s!" at position {i}"]
  | misplacedDefinition scope c => [c.kind, s!" is not allowed inside a {scope.name}"]
  | sharedDefinition c => [c.kind, " must be compiled as a statement of its own"]
  | noMerge i c => [c.kind, s!" at position {i} must directly follow a Merge"]
  | openUnion i c => [c.kind, s!" at position {i} needs a query on both sides"]
  | doubleUnion i _ => [s!"Two set operations in a row at position {i}"]
  | mixedUnions scope _ => [s!"Cannot mix UNION and UNION ALL in one {scope.name}"]
  | badBody b c => [c.kind, " body must be a list of clauses, got: ", .shown b]
  | noAssignments c => [c.kind, " needs at least one property assignment"]
  | badAssignment a c =>
      ["Expected property assignment (Assign or (property, value) pair) in ", c.kind, ", got: ",
        .shown a]
  | noConditions _ => ["Where needs at least one condition"]
  | noProjection _ => ["With needs at least one projection item"]
  | noSortKeys _ => ["OrderBy needs at least one expression"]
  | strayMarker item i _ =>
      ["Direction marker ", .shown item, s!" at position {i} does not follow an expression"]
  | badSortDirection d item _ => ["Unknown sort direction ", .shown d, " in ", .shown item]
  | badCsvSource s c => [c.kind, " source must be a URL string or a Param, got: ", .shown s]
  | badTerminator t _ => ["FIELDTERMINATOR must be one character, got: ", .shown t]
  | mergeCount n _ => [s!"Merge takes exactly one pattern, got {n}"]
  | noRemovals _ => ["Remove needs at least one item"]
  | badRemoval item _ => ["Remove expects properties or NodeRef(name, label), got: ", .shown item]
  | noPatterns c => [c.kind, " needs at least one pattern"]
  | noItems c => [c.kind, " needs at least one item"]
  | negativeCount n c => [c.kind, " must not be negative, got ", .bare (.int n)]
  | badCount v c => [c.typeName.toUpper, " expects an integer or a Param, got: ", .shown v]
  | badName n c => [c.kind, " expects a non-empty name, got: ", .shown n]
  | noProperties c => [c.kind, " needs at least one property"]
  | badPropertyName n c => [c.kind, " property names must be strings, got: ", .shown n]
  | badConstraint k _ =>
      ["Unsupported constraint type: ", .shown k, ". Expected 'unique' or 'not_null'"]
  | notNullCount _ => ["A not_null constraint covers exactly one property"]
  | notComprehension v => ["Expected a Comprehension, got: ", .shown v]
  | noBinding c => ["Comprehension needs a binding name: ", .shown c]
  | noLabel c => ["Comprehension needs a label to iterate: ", .shown c]
  | nothingProjected c => ["Comprehension needs a projection: ", .shown c]

/-- The piece of the query the message is about. -/
def fragment : ClauseError → Value
  | notQuery v | notClauseList _ v | emptyClauseList _ v | mixedUnions _ v => v
  | unknownClause _ c | notMutation _ c | misplacedDefinition _ c | sharedDefinition c => c
  | noMerge _ c | openUnion _ c | doubleUnion _ c | badBody _ c => c
  | noAssignments c | badAssignment _ c | noConditions c | noProjection c | noSortKeys c => c
  | strayMarker _ _ c | badSortDirection _ _ c | badCsvSource _ c | badTerminator _ c => c
  | mergeCount _ c | noRemovals c | badRemoval _ c | noPatterns c | noItems c => c
  | negativeCount _ c | badCount _ c | badName _ c | noProperties c | badPropertyName _ c => c
  | badConstraint _ c | notNullCount c => c
  | notComprehension v | noBinding v | noLabel v | nothingProjected v => v

end ClauseError

/-! ## Values used against their type -/

/-- The two ways of joining conditions into one. -/
inductive Junction where
  | all
  | any
  deriving DecidableEq, Repr

/-- The parts of a date. -/
inductive DatePart where
  | year
  | month
  | day
  deriving DecidableEq, Repr

/-- A value used in a way its type does not allow. -/
inductive Misuse where
  /-- A value that may change, used as a key. -/
  | notKey (value : Value)
  /-- A value without items, walked through. -/
  | notIterable (value : Value)
  /-- A value that is no text, where one is scanned. -/
  | notText (value : Value)
  /-- A value without entries, used as a map. -/
  | notMap (value : Value)
  /-- A value used as a map because of its items, which are not entries. -/
  | notEntries (value : Value)
  /-- A value asked for a part that its type does not have. -/
  | noPart (value : Value)
  /-- A value looked into by a name although it is no map. -/
  | notIndexed (value : Value)
  /-- Two values that cannot be joined by a step. -/
  | notSteps (left right : Value)
  /-- Arguments that an operation does not take. -/
  | badArguments
  | wrongSchema (expected : String) (value : Value)
  | noTruth
  | noConditions (junction : Junction)
  | notAccessMode (value : Value)
  | notDirection (value : Value)
  | notDate (part : DatePart) (year : Int)
  /-- A number looked for in a byte string although no byte holds it. -/
  | notByte
  | notPair (index length : Nat)
  | negativeShift
  /-- A text that is no numeral of an integer. -/
  | notInteger (text : String)
  /-- A numeral with more digits than are read. -/
  | tooManyDigits (limit digits : Nat)
  /-- An integer with more digits than are written. -/
  | unwritable
  /-- A text that is no numeral of a double. -/
  | notDouble (text : String)
  /-- A layout of log lines that no field of a record goes into. -/
  | badLayout (layout : String)

/-- Why a value is no map.  Clauses that list items are taken for maps until their items show. -/
def Misuse.ofNoMap (v : Value) : Misuse :=
  match v with
  | .clause (.returning ..) | .clause (.passing ..) | .clause (.remove _) | .clause (.delete ..)
  | .clause (.orderBy _) => notEntries v
  | v => notMap v

/-- The wording, for a misuse that has one. -/
def Misuse.wording? : Misuse → Option Message
  | wrongSchema expected v => some [s!"Expected {expected}, got {v.typeName}"]
  | noTruth => some ["ambiguous"]
  | noConditions .all => some ["all_of() needs at least one expression"]
  | noConditions .any => some ["any_of() needs at least one expression"]
  | notAccessMode v => some [.shown v, " is not a valid AccessMode"]
  | notDirection v => some [.shown v, " is not a valid Direction"]
  | notDate .year y => some [s!"year {y} is out of range"]
  | notDate .month _ => some ["month must be in 1..12"]
  | notDate .day _ => some ["day is out of range for month"]
  | notByte => some ["byte must be in range(0, 256)"]
  | notPair i n =>
      some [s!"dictionary update sequence element #{i} has length {n}; 2 is required"]
  | negativeShift => some ["negative shift count"]
  | notInteger s => some ["invalid literal for int() with base 10: ", .shown (.text s)]
  | tooManyDigits limit n =>
      some [s!"Exceeds the limit ({limit} digits) for integer string conversion: "
        ++ s!"value has {n} digits; use sys.set_int_max_str_digits() to increase the limit"]
  | unwritable =>
      some [s!"Exceeds the limit ({Numeral.maxDigits} digits) for integer string conversion; "
        ++ "use sys.set_int_max_str_digits() to increase the limit"]
  | notDouble s => some ["could not convert string to float: ", .shown (.text s)]
  | badLayout layout => some [s!"Invalid format '{layout}' for '%' style"]
  | _ => none

/-! ## All errors -/

/-- Why a request was refused. -/
inductive Error where
  | pattern (e : PatternError)
  | expr (e : ExprError)
  | clause (e : ClauseError)
  /-- A parameter met after its table was closed. -/
  | lateParameter (name : Value)
  /-- Parameters that no value was given for. -/
  | unbound (names : List Value)
  | misuse (m : Misuse)
  /-- A required property that a node or relationship lacks. -/
  | missingProperty (name : Value) (place : String)
  /-- Settings that neither the environment nor a file gives. -/
  | missingSettings (names : List String)
  | noDriver
  | queryFailed

namespace Error

/-- The wording, for an error that has one. -/
def wording? : Error → Option Message
  | pattern e => some e.wording
  | expr e => some e.wording
  | clause e => some e.wording
  | lateParameter name =>
      some ["Parameter $", .bare name, " registered after the pass finished"]
  | unbound names =>
      some ("No value bound for parameter(s): "
        :: [Phrase.words ", "].intercalate (names.map fun n => ["$", .bare n]))
  | misuse m => m.wording?
  | missingProperty name place =>
      some ["Missing required property '", .bare name, s!"' for {place}"]
  | missingSettings names =>
      some ["Missing Neo4j connection settings: ", ", ".intercalate names]
  | noDriver => some ["neo4j driver not installed. pip install neo4j"]
  | queryFailed => some ["query failed"]

/-- The message of an error that has one. -/
def message? (e : Error) : Option String :=
  e.wording?.bind Message.text?

/-- Whether the message of an error can be written. -/
def isWritable (e : Error) : Bool :=
  e.wording?.all Message.isWritable

/-- The error that is raised for a cause: the cause itself if its message can be written. -/
def raised (e : Error) : Error :=
  if e.isWritable then e else misuse .unwritable

/-- The piece of the query the message is about, for an error in a query. -/
def fragment? : Error → Option Value
  | pattern e => some e.fragment
  | expr e => some e.fragment
  | clause e => some e.fragment
  | lateParameter name => some name
  | unbound names => some (.list names)
  | _ => none

end Error

end CypherCompose
