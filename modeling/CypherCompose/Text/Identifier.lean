/-!
# Identifiers

A plain identifier is an ASCII letter or underscore followed by letters, digits and underscores; one
line end may close it.  Variables, labels, property keys and relationship types are written as they
are when they are plain and between backticks otherwise, a backtick inside being doubled
(`Identifier.quote`).  Function names are plain words joined by points (`Identifier.isDotted`).

The core of each definition works on `List Char`.
-/

namespace CypherCompose

namespace Identifier

/-- The characters an identifier may start with. -/
def isHead (c : Char) : Bool :=
  c.isAlpha || c == '_'

/-- The characters an identifier may go on with. -/
def isTail (c : Char) : Bool :=
  c.isAlphanum || c == '_'

/-- One word: a head character and any number of tail characters. -/
def isWord : List Char → Bool
  | [] => false
  | c :: cs => isHead c && cs.all isTail

/-- The text without the line end that may close it. -/
def dropLineEnd : List Char → List Char
  | [] => []
  | ['\n'] => []
  | c :: cs => c :: dropLineEnd cs

/-- Words joined by points; `start` says that the next character has to start a word. -/
def isDottedFrom : Bool → List Char → Bool
  | start, [] => !start
  | true, c :: cs => isHead c && isDottedFrom false cs
  | false, c :: cs =>
      if c == '.' then isDottedFrom true cs else isTail c && isDottedFrom false cs

/-- Doubles every backtick. -/
def doubled : List Char → List Char
  | [] => []
  | c :: cs => if c == '`' then '`' :: '`' :: doubled cs else c :: doubled cs

/-- Plain identifiers, which need no quoting and may name a parameter. -/
def isPlain (s : String) : Bool :=
  isWord (dropLineEnd s.toList)

/-- Names a function may be called by. -/
def isDotted (s : String) : Bool :=
  isDottedFrom true (dropLineEnd s.toList)

/-- The written form of a name: as it is when plain, between backticks otherwise. -/
def quote (s : String) : String :=
  if isPlain s then s else String.ofList ('`' :: (doubled s.toList ++ ['`']))

theorem quote_of_isPlain {s : String} (h : isPlain s = true) : quote s = s := by
  simp [quote, h]

theorem isHead_isTail {c : Char} (h : isHead c = true) : isTail c = true := by
  simp only [isHead, isTail, Char.isAlphanum, Bool.or_eq_true] at h ⊢
  exact h.imp Or.inl id

end Identifier

end CypherCompose
