import CypherCompose.Error
import CypherCompose.Text.Occurrence
import CypherCompose.Value.Equality

/-!
# Membership

Whether a value is in another one: a key in a map, an item in a list, a piece in a text.  Comparing
items may have no answer, and some values hold nothing at all.
-/

namespace CypherCompose

namespace Value

/-- Whether the item is the same as one of the given ones, asked in order. -/
def amongItems (item : Value) : List Value → Except Misuse Bool
  | [] => .ok false
  | v :: vs =>
      match v.same? item with
      | some true => .ok true
      | some false => amongItems item vs
      | none => .error .noTruth

/-- Whether `item` is in `container`. -/
def contains (container item : Value) : Except Misuse Bool :=
  match container with
  | map es => if item.isKey then .ok (lookup item es).isSome else .error (.notKey item)
  | list xs => amongItems item xs
  | tuple xs => amongItems item xs
  | builder _ cs => amongItems item cs
  | v =>
      match v.text?, item.text? with
      | some whole, some part => .ok (occursIn part whole)
      | _, _ =>
          match v, item with
          | atom (.bytes whole), atom (.bytes part) => .ok (occursInList part whole)
          | atom (.bytes whole), atom a =>
              match a.int? with
              | some n =>
                  if n < 0 || 255 < n then .error .notByte
                  else .ok (whole.any fun b => (b.toNat : Int) == n)
              | none => .error (.notIterable v)
          | _, _ => .error (.notIterable v)

/-- The truth of a value, or the misuse of asking for it. -/
def truth (v : Value) : Except Misuse Bool :=
  match v.truth? with
  | some b => .ok b
  | none => .error .noTruth

end Value

end CypherCompose
