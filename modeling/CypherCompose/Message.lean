import CypherCompose.Value.Outline

/-!
# Messages

A message is made of words and of values.  One that shows a value that cannot be written cannot be
written either (`Message.isWritable`).
-/

namespace CypherCompose

/-- A stretch of a message. -/
inductive Phrase where
  | words (s : String)
  /-- A value as messages show it. -/
  | shown (v : Value)
  /-- A value as it stands inside a text. -/
  | bare (v : Value)

namespace Phrase

instance : Coe String Phrase := ⟨words⟩

/-- Whether a phrase can be written. -/
def isWritable : Phrase → Bool
  | words _ => true
  | shown v | bare v => v.isWritable

@[simp] theorem isWritable_words (s : String) : (words s).isWritable = true := rfl

@[simp] theorem isWritable_shown (v : Value) : (shown v).isWritable = v.isWritable := rfl

@[simp] theorem isWritable_bare (v : Value) : (bare v).isWritable = v.isWritable := rfl

/-- The text of a phrase that can be written. -/
def text? : Phrase → Option String
  | words s => some s
  | shown v => v.inspect?
  | bare v => v.display?

end Phrase

/-- The wording of a message. -/
abbrev Message := List Phrase

namespace Message

/-- Whether all of a message can be written. -/
def isWritable (m : Message) : Bool :=
  m.all Phrase.isWritable

@[simp] theorem isWritable_nil : isWritable [] = true := rfl

@[simp] theorem isWritable_cons (p : Phrase) (m : Message) :
    isWritable (p :: m) = (p.isWritable && m.isWritable) := rfl

/-- The text of a message that can be written. -/
def text? (m : Message) : Option String :=
  (m.mapM Phrase.text?).map String.join

end Message

end CypherCompose
