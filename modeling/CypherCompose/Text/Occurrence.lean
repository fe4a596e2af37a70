/-!
# Occurrence

Whether one list, or one text, stands inside another in one piece.
-/

namespace CypherCompose

variable {α : Type}

/-- Whether `part` stands in the list in one piece. -/
def occursInList [BEq α] (part : List α) : List α → Bool
  | [] => part.isEmpty
  | x :: xs => part.isPrefixOf (x :: xs) || occursInList part xs

/-- Whether `part` stands in the text in one piece. -/
def occursIn (part whole : String) : Bool :=
  occursInList part.toList whole.toList

end CypherCompose
