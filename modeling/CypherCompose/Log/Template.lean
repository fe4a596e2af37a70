import CypherCompose.Decimal.Places
import CypherCompose.Text.WordCharacter
import CypherCompose.Value.Equality

/-!
# Templates

A template is a text with directives, each a percent sign, options and a letter: `%s`, `%-8d`,
`%(name)s`, `%.3f`; two percent signs in a row stand for one.  `Template.parse?` finds the
directives and `Template.fill?` puts values in their place; both give nothing when the template is
malformed or does not fit its values.

Values come from a `Supply`: a row of values that have to be used up, or a map.
-/

namespace CypherCompose

namespace Template

/-- A number in a directive: none, a given one, or one to be taken from the supply. -/
inductive Amount where
  | absent
  | given (n : Nat)
  | taken
  deriving DecidableEq, Repr

/-- One directive. -/
structure Directive where
  key : Option String
  flags : List Char
  width : Amount
  precision : Amount
  letter : Char
  deriving DecidableEq, Repr

/-- A stretch of a template. -/
inductive Part where
  | plain (c : Char)
  | directive (d : Directive)
  deriving DecidableEq, Repr

/-! ## Finding the directives -/

/-- The characters up to the bracket that closes `depth` open ones, and what follows it. -/
def splitKey? (depth : Nat) : List Char → Option (List Char × List Char)
  | [] => none
  | c :: cs =>
      if c == ')' && depth == 0 then some ([], cs)
      else
        let depth := if c == '(' then depth + 1 else if c == ')' then depth - 1 else depth
        (splitKey? depth cs).map fun r => (c :: r.1, r.2)

/-- A key in brackets, if one is there. -/
def readKey? : List Char → Option (Option String × List Char)
  | '(' :: cs => (splitKey? 0 cs).map fun r => (some (String.ofList r.1), r.2)
  | cs => some (none, cs)

/-- The options in front of the width. -/
def isFlag (c : Char) : Bool :=
  c == '-' || c == '+' || c == ' ' || c == '#' || c == '0'

/-- A number or a star. -/
def readAmount : List Char → Amount × List Char
  | '*' :: cs => (.taken, cs)
  | cs =>
      let ds := cs.takeWhile Char.isDigit
      let amount := if ds.isEmpty then .absent else .given (Binary64.natOfDigits 0 ds)
      (amount, cs.dropWhile Char.isDigit)

/-- The precision behind its point; a point alone means zero. -/
def readPrecision : List Char → Amount × List Char
  | '.' :: cs =>
      match readAmount cs with
      | (.absent, rest) => (.given 0, rest)
      | r => r
  | cs => (.absent, cs)

/-- The characters without a size letter, which has no effect. -/
def dropSize : List Char → List Char
  | 'h' :: cs => cs
  | 'l' :: cs => cs
  | 'L' :: cs => cs
  | cs => cs

/-- The directive behind a percent sign, and what follows it. -/
def readDirective? (cs : List Char) : Option (Directive × List Char) := do
  let (key, cs) ← readKey? cs
  let (width, rest) := readAmount (cs.dropWhile isFlag)
  let (precision, rest) := readPrecision rest
  match dropSize rest with
  | [] => none
  | letter :: rest => some (⟨key, cs.takeWhile isFlag, width, precision, letter⟩, rest)

/-- The parts of a template; every part takes a character, so their number bounds the steps. -/
def parseFrom? : Nat → List Char → Option (List Part)
  | _, [] => some []
  | 0, _ => none
  | fuel + 1, '%' :: '%' :: cs => (parseFrom? fuel cs).map (.plain '%' :: ·)
  | fuel + 1, '%' :: cs => do
      let (d, rest) ← readDirective? cs
      let parts ← parseFrom? fuel rest
      some (.directive d :: parts)
  | fuel + 1, c :: cs => (parseFrom? fuel cs).map (.plain c :: ·)

/-- The parts of a template. -/
def parse? (s : String) : Option (List Part) :=
  parseFrom? s.length s.toList

/-! ## Values for the directives -/

/-- Where the values of a template come from. -/
inductive Supply where
  /-- Values to be taken one after the other. -/
  | row (values : List Value)
  /-- A map, and what a directive without a key takes next. -/
  | keyed (entries : List (Value × Value)) (next : Option Value)

namespace Supply

/-- The supply of a map, which is itself the first value without a key. -/
def ofMap (entries : List (Value × Value)) : Supply :=
  keyed entries (some (.map entries))

/-- The next value. -/
def take? : Supply → Option (Value × Supply)
  | row [] => none
  | row (v :: vs) => some (v, row vs)
  | keyed es next => next.map fun v => (v, keyed es none)

/-- Makes the value under a key the next one. -/
def select? (key : String) : Supply → Option Supply
  | row _ => none
  | keyed es _ => (Value.lookup (.text key) es).map fun v => keyed es (some v)

/-- Whether a supply may be left as it is. -/
def isSpent : Supply → Bool
  | row vs => vs.isEmpty
  | keyed .. => true

end Supply

/-! ## Writing a value -/

/-- The options of a directive with its numbers known. -/
structure Style where
  left : Bool
  plus : Bool
  blank : Bool
  full : Bool
  zero : Bool
  width : Nat
  precision : Option Nat

/-- `n` times the character. -/
def repeated (c : Char) (n : Nat) : String :=
  String.ofList (List.replicate n c)

/-- A text in its width. -/
def Style.pad (s : Style) (t : String) : String :=
  let room := s.width - t.length
  if s.left then t ++ repeated ' ' room else repeated ' ' room ++ t

/-- A number in its width: zeros go between the sign and the digits. -/
def Style.padNumber (s : Style) (negative : Bool) (mark digits : String) : String :=
  let sign := if negative then "-" else if s.plus then "+" else if s.blank then " " else ""
  let room := s.width - (sign.length + mark.length + digits.length)
  if s.zero && !s.left then sign ++ mark ++ repeated '0' room ++ digits
  else s.pad (sign ++ mark ++ digits)

/-- A text cut to the precision. -/
def Style.cut (s : Style) (t : String) : String :=
  match s.precision with
  | none => t
  | some n => String.ofList (t.toList.take n)

/-- A text in ASCII; other characters are written by their number. -/
def ascii (s : String) : String :=
  String.join (s.toList.map fun c =>
    if c.toNat < 0x80 then String.singleton c
    else if c.toNat < 0x100 then "\\x" ++ Shown.hex 2 c.toNat
    else if c.toNat < 0x10000 then "\\u" ++ Shown.hex 4 c.toNat
    else "\\U" ++ Shown.hex 8 c.toNat)

/-- The integer that a double is when its places are dropped. -/
def truncated (x : Binary64.Finite) : Int :=
  let (num, den) := x.fraction
  if x.negative then -((num / den : Nat) : Int) else ((num / den : Nat) : Int)

/-- An integer in a base, with at least as many digits as the precision asks for. -/
def Style.integer (s : Style) (base : Nat) (mark : String) (upper : Bool) (n : Int) : String :=
  let ds := String.ofList (Nat.toDigits base n.natAbs)
  let ds := if upper then ds.toUpper else ds
  let ds := repeated '0' (s.precision.getD 0 - ds.length) ++ ds
  s.padNumber (decide (n < 0)) (if s.full then mark else "") ds

/-- The double that a value is or is rounded to. -/
def double? : Value → Option Binary64
  | .float x => some x
  | v => v.int?.bind fun n =>
      match Binary64.ofFraction (decide (n < 0)) n.natAbs 1 with
      | .infinite _ => none
      | x => some x

/-- The ways to write a double. -/
inductive NumberForm where
  | fixed
  | scientific
  | general

/-- A double written in one of the ways. -/
def Style.double (s : Style) (n : NumberForm) (upper : Bool) (x : Binary64) : String :=
  let places := s.precision.getD 6
  let cased := fun t : String => if upper then t.toUpper else t
  match x with
  | .nan _ => s.padNumber false "" (cased "nan")
  | .infinite negative => s.padNumber negative "" (cased "inf")
  | .finite x =>
      let t := match n with
        | .fixed => x.fixed places s.full
        | .scientific => x.scientific places s.full
        | .general => x.general places s.full
      s.padNumber x.negative "" (cased t)

/-- The character that a value is or has the number of. -/
def character? (v : Value) : Option String :=
  match v.text? with
  | some s => if s.length == 1 then some s else none
  | none => v.int?.bind fun n =>
      if 0 ≤ n && n ≤ 0x10FFFF then some (String.singleton (Char.ofNat n.toNat)) else none

/-- A value as the letter of its directive says. -/
def Style.write? (s : Style) (letter : Char) (v : Value) : Option String :=
  match letter with
  | 's' => v.display?.map fun t => s.pad (s.cut t)
  | 'r' => v.inspect?.map fun t => s.pad (s.cut t)
  | 'a' => v.inspect?.map fun t => s.pad (s.cut (ascii t))
  | 'c' => (character? v).map s.pad
  | 'd' | 'i' | 'u' =>
      match v with
      | .float (.finite x) => some (s.integer 10 "" false (truncated x))
      | v => (v.int?.filter Numeral.isWritable).map (s.integer 10 "" false)
  | 'o' => v.int?.map (s.integer 8 "0o" false)
  | 'x' => v.int?.map (s.integer 16 "0x" false)
  | 'X' => v.int?.map (s.integer 16 "0X" true)
  | 'f' => (double? v).map (s.double .fixed false)
  | 'F' => (double? v).map (s.double .fixed true)
  | 'e' => (double? v).map (s.double .scientific false)
  | 'E' => (double? v).map (s.double .scientific true)
  | 'g' => (double? v).map (s.double .general false)
  | 'G' => (double? v).map (s.double .general true)
  | _ => none

/-! ## Filling a template -/

/-- A number of a directive, taken from the supply if need be. -/
def Amount.resolve? (a : Amount) (s : Supply) : Option (Option Int × Supply) :=
  match a with
  | .absent => some (none, s)
  | .given n => some (some n, s)
  | .taken => do
      let (v, s) ← s.take?
      let n ← v.int?
      some (some n, s)

/-- What a directive stands for.  A width below zero is one to the left. -/
def Directive.fill? (d : Directive) (s : Supply) : Option (String × Supply) := do
  let s ← match d.key with
    | none => some s
    | some key => s.select? key
  let (width, s) ← d.width.resolve? s
  let (precision, s) ← d.precision.resolve? s
  let (v, s) ← s.take?
  let style : Style :=
    { left := d.flags.contains '-' || width.any (· < 0)
      plus := d.flags.contains '+'
      blank := d.flags.contains ' '
      full := d.flags.contains '#'
      zero := d.flags.contains '0'
      width := (width.getD 0).natAbs
      precision := precision.map Int.toNat }
  let t ← style.write? d.letter v
  some (t, s)

/-- The text of some parts, and the supply that is left. -/
def fillParts? : List Part → Supply → Option (List String × Supply)
  | [], s => some ([], s)
  | .plain c :: ps, s => (fillParts? ps s).map fun r => (String.singleton c :: r.1, r.2)
  | .directive d :: ps, s => do
      let (t, s) ← d.fill? s
      let (ts, s) ← fillParts? ps s
      some (t :: ts, s)

/-- A template with the values of a supply in it. -/
def fill? (template : String) (s : Supply) : Option String := do
  let parts ← parse? template
  let (ts, s) ← fillParts? parts s
  if s.isSpent then some (String.join ts) else none

/-! ## Templates over a map -/

/-- The letters of directives and the percent sign, in either case; three letters outside ASCII have
their other case among them. -/
def isDirectiveLetter (c : Char) : Bool :=
  "diouxefgcrsa%".toList.contains c.toLower || c == 'İ' || c == 'ı' || c == 'ſ'

/-- The characters behind a star or a number in the digits of any script. -/
def dropAmount : List Char → List Char
  | '*' :: cs => cs
  | cs => cs.dropWhile isDecimalDigit

/-- The characters behind a precision; a point alone is none. -/
def dropPrecision : List Char → List Char
  | '.' :: cs =>
      let rest := dropAmount cs
      if rest.length == cs.length then '.' :: cs else rest
  | cs => cs

/-- Whether a directive with a key starts here: a word in brackets, the options, and a letter that
writes a value or a percent sign. -/
def isKeyedDirective (cs : List Char) : Bool :=
  match cs with
  | '%' :: '(' :: cs =>
      match cs.dropWhile isWordCharacter with
      | ')' :: rest =>
          cs.head?.any isWordCharacter
            && (dropPrecision (dropAmount (rest.dropWhile isFlag))).head?.any isDirectiveLetter
      | _ => false
  | _ => false

/-- Whether a template has a directive with a key. -/
def hasKeyedDirective : List Char → Bool
  | [] => false
  | c :: cs => isKeyedDirective (c :: cs) || hasKeyedDirective cs

end Template

end CypherCompose
