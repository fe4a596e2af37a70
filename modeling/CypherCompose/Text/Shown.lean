import CypherCompose.Text.Printable

/-!
# Texts as messages show them

A message shows a text between quotes: single ones, unless the text has a single quote and no double
one.  The quote in use and the backslash stand behind a backslash, line ends and tabulators have
their letters, and other characters without a glyph are written by their number.
-/

namespace CypherCompose

namespace Shown

/-- `n` in hexadecimal digits, at least `width` of them. -/
def hex (width n : Nat) : String :=
  let ds := Nat.toDigits 16 n
  String.ofList (List.replicate (width - ds.length) '0' ++ ds)

/-- The quote that a text is shown between. -/
def quoteFor (cs : List Char) : Char :=
  if cs.contains '\'' && !cs.contains '"' then '"' else '\''

/-- One character between the given quotes. -/
def char (quote : Char) (c : Char) : String :=
  if c == quote || c == '\\' then "\\" ++ String.singleton c
  else if c == '\n' then "\\n"
  else if c == '\r' then "\\r"
  else if c == '\t' then "\\t"
  else if isPrintable c then String.singleton c
  else if c.toNat < 0x100 then "\\x" ++ hex 2 c.toNat
  else if c.toNat < 0x10000 then "\\u" ++ hex 4 c.toNat
  else "\\U" ++ hex 8 c.toNat

/-- A text between quotes. -/
def text (s : String) : String :=
  let cs := s.toList
  let q := quoteFor cs
  String.singleton q ++ String.join (cs.map (char q)) ++ String.singleton q

/-- One byte between the given quotes; bytes outside ASCII are written by their number. -/
def byte (quote : Char) (b : UInt8) : String :=
  if b.toNat < 0x80 then char quote (Char.ofNat b.toNat) else "\\x" ++ hex 2 b.toNat

/-- A byte string between quotes. -/
def bytes (bs : List UInt8) : String :=
  let q := quoteFor (bs.map fun b => Char.ofNat b.toNat)
  "b" ++ String.singleton q ++ String.join (bs.map (byte q)) ++ String.singleton q

end Shown

end CypherCompose
