import CypherCompose.Decimal.Binary64
import CypherCompose.Text.Blank
import CypherCompose.Text.WordCharacter

/-!
# Numerals

How a number may be written: with blanks around it, in the digits of any script, and with single
underscores between digits.  `Numeral.plain?` brings a numeral to signs and ASCII digits, and
`Numeral.int?` and `Numeral.double?` read it.  An integer of more than `Numeral.maxDigits` digits is
neither read nor written.
-/

namespace CypherCompose

namespace Numeral

/-- A decimal digit of any script as the ASCII digit of its value.  The digits of a script follow
each other from zero to nine. -/
def asciiDigit (c : Char) : Char :=
  match WordCharacter.digits.find? fun r => r.1 ≤ c.toNat && c.toNat ≤ r.2 with
  | some r => Char.ofNat ('0'.toNat + (c.toNat - r.1) % 10)
  | none => c

/-- The characters without the underscores between digits, after a digit or not; an underscore may
stand nowhere else. -/
def closedUp? : Bool → List Char → Option (List Char)
  | _, [] => some []
  | afterDigit, c :: cs =>
      if c != '_' then (closedUp? c.isDigit cs).map (c :: ·)
      else if afterDigit && cs.head?.any Char.isDigit then closedUp? false cs
      else none

/-- A numeral in signs and ASCII digits. -/
def plain? (s : String) : Option (List Char) :=
  closedUp? false ((trim s).toList.map asciiDigit)

/-- The most digits that an integer is read from or written in. -/
def maxDigits : Nat := 4300

/-- Whether a number has at most `d` digits. -/
def fits : Nat → Nat → Bool
  | 0, n => n == 0
  | d + 1, n => n == 0 || fits d (n / 10)

/-- Whether an integer has few enough digits to be written; its sign does not count. -/
def isWritable (n : Int) : Bool :=
  fits maxDigits n.natAbs

/-- Why a text is no integer. -/
inductive IntFault where
  | malformed
  | tooLong (digits : Nat)
  deriving DecidableEq, Repr

/-- The integer that a text writes. -/
def int? (s : String) : Except IntFault Int :=
  match (plain? s).map Binary64.splitSign with
  | none => .error .malformed
  | some (negative, ds) =>
      if ds.isEmpty || !ds.all Char.isDigit then .error .malformed
      else if maxDigits < ds.length then .error (.tooLong ds.length)
      else
        let n : Int := Binary64.natOfDigits 0 ds
        .ok (if negative then -n else n)

/-- The double that a text writes; `cell` is the cell of a result that is not a number. -/
def double? (cell : Nat) (s : String) : Option Binary64 :=
  (plain? s).bind fun cs => Binary64.ofString? cell (String.ofList cs)

end Numeral

end CypherCompose
