/-!
# String literals

A string literal stands between single quotes; a backslash and a single quote inside are written
behind a backslash, and every other character as it is.
-/

namespace CypherCompose

namespace Literal

/-- The characters of a literal's inside. -/
def escapeChars : List Char → List Char
  | [] => []
  | c :: cs => if c == '\\' || c == '\'' then '\\' :: c :: escapeChars cs else c :: escapeChars cs

/-- The inside of the literal for a text. -/
def escape (s : String) : String :=
  String.ofList (escapeChars s.toList)

/-- The literal for a text. -/
def quote (s : String) : String :=
  "'" ++ escape s ++ "'"

end Literal

end CypherCompose
