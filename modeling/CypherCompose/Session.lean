import CypherCompose.Parameter.Registry
import CypherCompose.Piece

/-!
# Sessions

A session writes pieces of statements one after the other over one table of parameters.  A step that
fails leaves what it entered before the failure.
-/

namespace CypherCompose

namespace Session

/-- One step of a session. -/
inductive Step where
  | write (piece : Piece) (value : Value)
  | register (name value : Value)
  | contains (name : Value)
  | finalize (bound : Value)

/-- What a step comes to. -/
inductive Answer where
  | text (s : String)
  | truth (b : Bool)
  | table (entries : List (ParamName × Value))

/-- The answer to a step, and the table it leaves. -/
def step (r : Registry) : Step → Except Error Answer × Registry
  | .write piece value =>
      match r.run (piece.draft value) with
      | (.ok ts, r') => (.ok (.text (Token.spell ts)), r')
      | (.error e, r') => (.error e, r')
  | .register name value =>
      match r.run (Draft.parameter name value) with
      | (.ok p, r') => (.ok (.text p.token), r')
      | (.error e, r') => (.error e, r')
  | .contains name =>
      match r.contains name with
      | .ok b => (.ok (.truth b), r)
      | .error m => (.error (.misuse m), r)
  | .finalize bound =>
      match r.finalize bound with
      | (.ok entries, r') => (.ok (.table entries), r')
      | (.error e, r') => (.error e, r')

/-- The answers to the steps, each with the table it leaves. -/
def run (r : Registry) : List Step → List (Except Error Answer × Registry)
  | [] => []
  | s :: ss =>
      let answer := step r s
      answer :: run answer.2 ss

end Session

end CypherCompose
