import CypherCompose.Name

/-!
# Patterns

A path is a node followed by links, each a relationship with its direction and the node at its far
end.  Nodes and relationships may carry a property map; `ε` is the type of its values.
-/

namespace CypherCompose

/-- How many steps a relationship stands for: a fixed number, or any between two bounds. -/
inductive Hops where
  | exactly (n : Nat)
  | range (min max : Option Nat)
  deriving DecidableEq, Repr

/-- A node of a pattern. -/
structure Node (ε : Type) where
  name : Option Name
  label : Option Name
  props : List (Name × ε)
  deriving DecidableEq, Repr

/-- A relationship of a pattern. -/
structure Rel (ε : Type) where
  name : Option Name
  type : Option Name
  hops : Option Hops
  props : List (Name × ε)
  deriving DecidableEq, Repr

/-- A relationship, the way it points, and the node it leads to. -/
structure Link (ε : Type) where
  direction : Direction
  rel : Rel ε
  node : Node ε
  deriving DecidableEq, Repr

/-- A pattern of nodes and relationships in turn. -/
structure Path (ε : Type) where
  start : Node ε
  links : List (Link ε)
  deriving DecidableEq, Repr

end CypherCompose
