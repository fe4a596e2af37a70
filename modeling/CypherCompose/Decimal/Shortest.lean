import CypherCompose.Decimal.Binary64

/-!
# Shortest decimals

The text of a double has the fewest digits that read back as the same double; of two such decimals
the nearer one.  `Finite.shortest` finds them in exact arithmetic: the decimals that round to a
double fill an interval around it, and on the grid of numbers with one, two, … seventeen digits the
double's two neighbours are tried.  `Finite.toText` lays the digits out: positional between
`0.0001` and `10 ^ 16`, with an exponent outside.
-/

namespace CypherCompose

namespace Binary64

/-- A decimal `digits * 10 ^ exponent`. -/
structure Decimal where
  digits : Nat
  exponent : Int
  deriving DecidableEq, Repr

/-- The greatest `e` with `10 ^ e ≤ num / den`, for a positive fraction. -/
def floorLog10 (num den : Nat) : Int :=
  let e : Int := (digitCount num : Int) - (digitCount den : Int)
  let reaches :=
    if 0 ≤ e then den * Nat.pow 10 e.toNat ≤ num else den ≤ num * Nat.pow 10 (-e).toNat
  if reaches then e else e - 1

/-- The decimals that read back as one double, in units of a quarter of its last place: from
`low` to `high`, both ends included when `closed`. -/
structure Interval where
  value : Nat
  low : Nat
  high : Nat
  closed : Bool

/-- Whether the fraction `num / den` lies in the interval. -/
def Interval.contains (i : Interval) (num den : Nat) : Bool :=
  if i.closed then i.low * den ≤ num && num ≤ i.high * den
  else i.low * den < num && num < i.high * den

namespace Finite

/-- The decimals that read back as the double. -/
def interval (x : Finite) : Interval :=
  let m := x.mantissa
  let low := if m == mantissaBound / 2 && minExponent < x.exponent then 4 * m - 1 else 4 * m - 2
  ⟨4 * m, low, 4 * m + 2, m % 2 == 0⟩

/-- `2 ^ (exponent - 2)`, the unit of the interval, as a fraction. -/
def unit (x : Finite) : Nat × Nat :=
  let e := x.exponent - 2
  if 0 ≤ e then (Nat.pow 2 e.toNat, 1) else (1, Nat.pow 2 (-e).toNat)

/-- The multiple of `10 ^ exponent` nearest to the double among those that read back as it. -/
def onGrid? (x : Finite) (exponent : Int) : Option Decimal :=
  let i := x.interval
  let (unitNum, unitDen) := x.unit
  -- the grid's step in units of the interval
  let (num, den) :=
    if 0 ≤ exponent then (Nat.pow 10 exponent.toNat * unitDen, unitNum)
    else (unitDen, unitNum * Nat.pow 10 (-exponent).toNat)
  let below := i.value * den / num
  let above := below + 1
  let belowFits := i.contains (below * num) den
  let aboveFits := i.contains (above * num) den
  let belowOff := i.value * den - below * num
  let aboveOff := above * num - i.value * den
  let belowWins := belowOff < aboveOff || (belowOff == aboveOff && below % 2 == 0)
  if belowFits && (!aboveFits || belowWins) then
    some ⟨below, exponent⟩
  else if aboveFits then some ⟨above, exponent⟩
  else none

/-- The first decimal that reads back, with `count` digits and more; `fuel` bounds their number. -/
def shortestFrom (x : Finite) (top : Int) : Nat → Nat → Decimal
  | 0, count => ⟨0, top - count⟩
  | fuel + 1, count =>
      match x.onGrid? (top - ((count : Int) - 1)) with
      | some d => d
      | none => shortestFrom x top fuel (count + 1)

/-- The shortest decimal that reads back as the magnitude of the double. -/
def shortest (x : Finite) : Decimal :=
  if x.isZero then ⟨0, 0⟩
  else
    let (unitNum, unitDen) := x.unit
    shortestFrom x (floorLog10 (4 * x.mantissa * unitNum) unitDen) 17 1

end Finite

/-- The characters without the zeros at the end. -/
def dropZeros (cs : List Char) : List Char :=
  (cs.reverse.dropWhile (· == '0')).reverse

/-- How a decimal is laid out: positional when its leading digit stands for a power of ten from
`low` to `high`, and with an exponent of at least `width` digits otherwise. -/
structure Layout where
  low : Int
  high : Int
  width : Nat

/-- Numbers in statements and messages. -/
def Layout.standard : Layout := ⟨-4, 15, 2⟩

/-- `n` zeros. -/
def zeros (n : Nat) : String :=
  String.ofList (List.replicate n '0')

/-- A number with at least `width` digits. -/
def padded (width n : Nat) : String :=
  let s := toString n
  zeros (width - s.length) ++ s

namespace Decimal

/-- The text of a decimal under a layout; an integral value keeps one place behind the point when it
is positional. -/
def toText (l : Layout) (d : Decimal) : String :=
  let all := Nat.toDigits 10 d.digits
  let ds := dropZeros all
  let ds := if ds.isEmpty then ['0'] else ds
  let power : Int := if d.digits == 0 then 0 else d.exponent + all.length - 1
  let n : Int := ds.length
  if power < l.low || l.high < power then
    let tail := if ds.length ≤ 1 then "" else "." ++ String.ofList (ds.drop 1)
    let sign := if power < 0 then "-" else "+"
    String.ofList (ds.take 1) ++ tail ++ "e" ++ sign ++ padded l.width power.natAbs
  else if power < 0 then
    "0." ++ zeros (-power - 1).toNat ++ String.ofList ds
  else if n ≤ power + 1 then
    String.ofList ds ++ zeros (power + 1 - n).toNat ++ ".0"
  else
    String.ofList (ds.take (power + 1).toNat) ++ "." ++ String.ofList (ds.drop (power + 1).toNat)

end Decimal

/-- The text of a finite double's magnitude. -/
def Finite.magnitude (x : Finite) : String :=
  x.shortest.toText .standard

/-- The text of a finite double. -/
def Finite.toText (x : Finite) : String :=
  (if x.negative then "-" else "") ++ x.magnitude

/-- The text of a double. -/
def toText : Binary64 → String
  | .finite x => x.toText
  | .infinite negative => if negative then "-inf" else "inf"
  | .nan _ => "nan"

end Binary64

end CypherCompose
