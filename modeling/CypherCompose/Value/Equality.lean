import CypherCompose.Value.Outline

/-!
# Equality of values

Two values are equal when their outlines are: atoms as `Atom.equal?` says, collections of one kind
part by part, maps without regard to order, forms of one name field by field, builders only as the
very same one.  The parts of a collection may also be identical instead (`Outline.same?`).  A
comparison that meets array-like data has no answer (`none`).
-/

namespace CypherCompose

namespace Outline

/-- Whether two outlines are one thing although comparing them does not say so. -/
def identical : Outline → Outline → Bool
  | atom a, atom b => a.identical b
  | hidden a, hidden b => identical a b
  | _, _ => false

mutual

/-- Whether two outlines are equal. -/
def equal? : Outline → Outline → Option Bool
  | atom a, atom b => a.equal? b
  | atom (.ambiguous _), _ => none
  | _, atom (.ambiguous _) => none
  | list xs, list ys => if xs.length == ys.length then allSame? xs ys else some false
  | tuple xs, tuple ys => allSame? xs ys
  | map es, map fs => if es.length == fs.length then entriesIn? fs es else some false
  | builder a _, builder b _ => some (a == b)
  | record m fs, record n gs => if m == n then fieldsSame? fs gs else some false
  | hidden a, hidden b => equal? a b
  | _, _ => some false

/-- Whether the items are the same pair by pair, up to the first pair that is not. -/
def allSame? : List Outline → List Outline → Option Bool
  | [], [] => some true
  | x :: xs, y :: ys =>
      match if identical x y then some true else equal? x y with
      | some true => allSame? xs ys
      | answer => answer
  | _, _ => some false

/-- Whether the fields are the same pair by pair. -/
def fieldsSame? : List (String × Outline) → List (String × Outline) → Option Bool
  | [], [] => some true
  | (_, x) :: xs, (_, y) :: ys =>
      match if identical x y then some true else equal? x y with
      | some true => fieldsSame? xs ys
      | answer => answer
  | _, _ => some false

/-- Whether `fs` has a same entry for every given entry. -/
def entriesIn? (fs : List (Outline × Outline)) : List (Outline × Outline) → Option Bool
  | [] => some true
  | (k, v) :: es =>
      match fs.find? fun f => identical k f.1 || equal? k f.1 == some true with
      | none => some false
      | some (_, w) =>
          match if identical v w then some true else equal? v w with
          | some true => entriesIn? fs es
          | answer => answer

end

/-- Whether two outlines are identical or equal. -/
def same? (a b : Outline) : Option Bool :=
  if identical a b then some true else equal? a b

end Outline

namespace Value

/-- Whether two values are equal. -/
def equal? (v w : Value) : Option Bool :=
  v.outline.equal? w.outline

/-- Whether two values are identical or equal. -/
def same? (v w : Value) : Option Bool :=
  v.outline.same? w.outline

/-- Whether two values are known to be identical or equal. -/
def same (v w : Value) : Bool :=
  v.same? w == some true

mutual

/-- Whether a value may be the key of a map: values that cannot change.  Array-like data may be one;
as a key it is only ever the same as itself. -/
def isKey : Value → Bool
  | atom _ => true
  | tuple xs => allKeys xs
  | builder .. => true
  | statement cypher parameters mode => cypher.isKey && parameters.isKey && mode.isKey
  | propertyDef name type required default =>
      name.isKey && type.isKey && required.isKey && default.isKey
  | nodeSchema label properties => label.isKey && properties.isKey
  | relSchema type properties => type.isKey && properties.isKey
  | _ => false

/-- Whether all values may be keys. -/
def allKeys : List Value → Bool
  | [] => true
  | v :: vs => v.isKey && allKeys vs

end

/-- The value under a key. -/
def lookup (key : Value) (entries : List (Value × Value)) : Option Value :=
  (entries.find? fun e => key.same e.1).map (·.2)

/-- The entries with `value` under `key`: in the key's place if it has one, and at the end
otherwise. -/
def put (key value : Value) : List (Value × Value) → List (Value × Value)
  | [] => [(key, value)]
  | (k, v) :: es => if key.same k then (k, value) :: es else (k, v) :: put key value es

end Value

end CypherCompose
