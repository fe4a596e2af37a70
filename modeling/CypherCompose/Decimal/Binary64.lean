/-!
# Double precision numbers

`Binary64` holds a double as data: a finite one is a sign, a mantissa and a power of two, so that
its exact value is at hand and comparing it with an integer loses nothing.  `ofDecimal` reads a
decimal correctly rounded, a tie going to the even mantissa.

A number that is not a number differs from every other one, and each is the same only as itself;
`nan` therefore carries the cell it was made in.
-/

namespace CypherCompose

namespace Binary64

/-- The double `± mantissa * 2 ^ exponent`. -/
structure Finite where
  negative : Bool
  mantissa : Nat
  exponent : Int
  deriving DecidableEq, Repr

end Binary64

/-- A double precision number. -/
inductive Binary64 where
  | finite (x : Binary64.Finite)
  | infinite (negative : Bool)
  | nan (cell : Nat)
  deriving DecidableEq, Repr

namespace Binary64

/-- The least exponent of a double. -/
def minExponent : Int := -1074

/-- The greatest exponent of a double. -/
def maxExponent : Int := 971

/-- The number of values of a mantissa. -/
def mantissaBound : Nat := Nat.pow 2 53

/-- `num / den` to the nearest integer, a tie going to the even one. -/
def roundDiv (num den : Nat) : Nat :=
  let q := num / den
  let r := num % den
  if 2 * r < den || (2 * r == den && q % 2 == 0) then q else q + 1

/-- The fraction `num / den` in units of `2 ^ exponent`. -/
def inUnits (num den : Nat) (exponent : Int) : Nat × Nat :=
  if 0 ≤ exponent then (num, den * Nat.pow 2 exponent.toNat)
  else (num * Nat.pow 2 (-exponent).toNat, den)

/-- The double nearest to the fraction `num / den`. -/
def ofFraction (negative : Bool) (num den : Nat) : Binary64 :=
  if num == 0 then .finite ⟨negative, 0, minExponent⟩
  else
    let low := max ((num.log2 : Int) - (den.log2 : Int) - 53) minExponent
    let scaled := inUnits num den low
    let exponent := if mantissaBound ≤ scaled.1 / scaled.2 then low + 1 else low
    let scaled := inUnits num den exponent
    let mantissa := roundDiv scaled.1 scaled.2
    let (mantissa, exponent) :=
      if mantissa == mantissaBound then (mantissaBound / 2, exponent + 1) else (mantissa, exponent)
    if maxExponent < exponent then .infinite negative else .finite ⟨negative, mantissa, exponent⟩

/-- The number of decimal digits of a positive number. -/
def digitCount (n : Nat) : Nat :=
  (Nat.toDigits 10 n).length

/-- The double nearest to `± digits * 10 ^ exponent`.  A decimal of more than 400 places on either
side of the point is beyond every double, so its power of ten is not worked out. -/
def ofDecimal (negative : Bool) (digits : Nat) (exponent : Int) : Binary64 :=
  if digits == 0 then .finite ⟨negative, 0, minExponent⟩
  else if 400 < exponent + digitCount digits then .infinite negative
  else if exponent + digitCount digits < -400 then .finite ⟨negative, 0, minExponent⟩
  else if 0 ≤ exponent then ofFraction negative (digits * Nat.pow 10 exponent.toNat) 1
  else ofFraction negative digits (Nat.pow 10 (-exponent).toNat)

namespace Finite

/-- Whether the double is a zero of either sign. -/
def isZero (x : Finite) : Bool :=
  x.mantissa == 0

/-- Whether the double is below zero; the negative zero is not. -/
def isBelowZero (x : Finite) : Bool :=
  x.negative && !x.isZero

/-- Whether the double has the same value as `y`. -/
def sameValue (x y : Finite) : Bool :=
  let low := min x.exponent y.exponent
  let a := x.mantissa * Nat.pow 2 (x.exponent - low).toNat
  let b := y.mantissa * Nat.pow 2 (y.exponent - low).toNat
  a == b && (x.negative == y.negative || a == 0)

/-- An integer as an exact sign, mantissa and power of two. -/
def ofInt (n : Int) : Finite :=
  ⟨decide (n < 0), n.natAbs, 0⟩

end Finite

/-! ## Reading a numeral -/

/-- The value of decimal digits read after `acc`. -/
def natOfDigits (acc : Nat) : List Char → Nat
  | [] => acc
  | c :: cs => natOfDigits (10 * acc + (c.toNat - '0'.toNat)) cs

/-- A sign in front of the characters, with what follows it. -/
def splitSign : List Char → Bool × List Char
  | '-' :: cs => (true, cs)
  | '+' :: cs => (false, cs)
  | cs => (false, cs)

/-- The power of ten behind a numeral; nothing at all stands for the zeroth. -/
def exponentOf? : List Char → Option Int
  | [] => some 0
  | c :: cs =>
      if c == 'e' || c == 'E' then
        let (negative, ds) := splitSign cs
        if ds.isEmpty || !ds.all Char.isDigit then none
        else
          let n : Int := natOfDigits 0 ds
          some (if negative then -n else n)
      else none

/-- The double written by a numeral such as `12`, `-0.5` or `1E5`, by `inf` or by `nan`; `cell` is
the cell of a result that is not a number. -/
def ofString? (cell : Nat) (s : String) : Option Binary64 :=
  let (negative, cs) := splitSign s.toList
  let word := String.ofList (cs.map Char.toLower)
  if word == "inf" || word == "infinity" then some (.infinite negative)
  else if word == "nan" then some (.nan cell)
  else
    let whole := cs.takeWhile Char.isDigit
    let rest := cs.dropWhile Char.isDigit
    let afterPoint := match rest with
      | '.' :: r => r
      | _ => []
    let places := afterPoint.takeWhile Char.isDigit
    let rest := match rest with
      | '.' :: _ => afterPoint.dropWhile Char.isDigit
      | _ => rest
    if whole.isEmpty && places.isEmpty then none
    else
      (exponentOf? rest).map fun e =>
        ofDecimal negative (natOfDigits 0 (whole ++ places)) (e - places.length)

end Binary64

end CypherCompose
