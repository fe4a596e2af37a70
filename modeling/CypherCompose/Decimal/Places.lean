import CypherCompose.Decimal.Shortest

/-!
# Decimals with a given number of places

A double rounded to a number of places behind the point, or to a number of digits, from its exact
value; a tie goes to the even digit.  `fixed` is positional, `scientific` has one digit before the
point and an exponent, and `general` takes whichever is shorter.
-/

namespace CypherCompose

namespace Binary64

/-- The text of `digits / 10 ^ places`; with no places the point itself is written on demand. -/
def pointed (digits places : Nat) (keepPoint : Bool) : String :=
  let ds := (padded (places + 1) digits).toList
  let behind := ds.drop (ds.length - places)
  String.ofList (ds.take (ds.length - places)
    ++ (if behind.isEmpty && !keepPoint then [] else '.' :: behind))

/-- A positional text without zeros at the end of its places, and without a point in front of
none. -/
def dropPlaces (s : String) : String :=
  if s.contains '.' then
    let cs := (s.toList.reverse.dropWhile (· == '0')).reverse
    String.ofList (if cs.getLast? == some '.' then cs.dropLast else cs)
  else s

/-- The power of ten behind a number. -/
def exponentText (power : Int) : String :=
  "e" ++ (if power < 0 then "-" else "+") ++ padded 2 power.natAbs

namespace Finite

/-- The exact magnitude as a fraction. -/
def fraction (x : Finite) : Nat × Nat :=
  inUnits x.mantissa 1 (-x.exponent)

/-- The magnitude with `places` places. -/
def fixed (x : Finite) (places : Nat) (keepPoint : Bool) : String :=
  let (num, den) := x.fraction
  pointed (roundDiv (num * Nat.pow 10 places) den) places keepPoint

/-- The magnitude to `count` digits; zero is written with as many zeros. -/
def toDigits (x : Finite) (count : Nat) : Decimal :=
  if x.isZero then ⟨0, 1 - (count : Int)⟩
  else
    let (num, den) := x.fraction
    let exponent := floorLog10 num den + 1 - (count : Int)
    let digits :=
      if 0 ≤ exponent then roundDiv num (den * Nat.pow 10 exponent.toNat)
      else roundDiv (num * Nat.pow 10 (-exponent).toNat) den
    if digits == Nat.pow 10 count then ⟨Nat.pow 10 (count - 1), exponent + 1⟩
    else ⟨digits, exponent⟩

/-- The magnitude with one digit before the point and `places` behind it. -/
def scientific (x : Finite) (places : Nat) (keepPoint : Bool) : String :=
  let d := x.toDigits (places + 1)
  pointed d.digits places keepPoint ++ exponentText (d.exponent + places)

/-- The magnitude to `count` digits: positional when the leading digit stands for a power of ten
from `-4` to `count - 1`.  Zeros at the end of the places go unless they are kept. -/
def general (x : Finite) (count : Nat) (keepZeros : Bool) : String :=
  let count := max 1 count
  let d := x.toDigits count
  let power := d.exponent + count - 1
  let trim := fun s => if keepZeros then s else dropPlaces s
  if -4 ≤ power && power < count then trim (pointed d.digits (-d.exponent).toNat keepZeros)
  else trim (pointed d.digits (count - 1) keepZeros) ++ exponentText power

end Finite

end Binary64

end CypherCompose
