import CypherCompose.Error
import CypherCompose.Name

/-!
# Drafts

Reading a query never looks into the table of parameters: it only asks for names to be entered, and
a request that is refused ends the reading.  A `Draft` therefore keeps the two apart: the requests a
reading makes, in order, and its outcome when all of them are granted.
`Registry.run` (`CypherCompose.Parameter.Registry`) puts them together.
-/

namespace CypherCompose

/-- A parameter that a query mentions, with its value or `unset`. -/
structure Request where
  name : Value
  value : Value

/-- What a reading asks for, and what it comes to if nothing is refused. -/
structure Draft (α : Type) where
  requests : List Request
  outcome : Except Error α

namespace Draft

variable {α β : Type}

@[ext]
theorem ext {d d' : Draft α} (h : d.requests = d'.requests) (h' : d.outcome = d'.outcome) :
    d = d' := by
  cases d
  cases d'
  simp_all

/-- A reading that asks for nothing. -/
def done (a : α) : Draft α :=
  ⟨[], .ok a⟩

/-- A reading that ends in an error. -/
def fail (e : Error) : Draft α :=
  ⟨[], .error e.raised⟩

/-- Reads on from the outcome of a first reading. -/
def andThen (d : Draft α) (f : α → Draft β) : Draft β :=
  match d.outcome with
  | .ok a => ⟨d.requests ++ (f a).requests, (f a).outcome⟩
  | .error e => ⟨d.requests, .error e⟩

instance : Monad Draft where
  pure := done
  bind := andThen

@[simp] theorem pure_eq (a : α) : (pure a : Draft α) = ⟨[], .ok a⟩ := rfl

theorem bind_eq (d : Draft α) (f : α → Draft β) : (d >>= f) = d.andThen f := rfl

@[simp] theorem andThen_ok (rs : List Request) (a : α) (f : α → Draft β) :
    andThen ⟨rs, .ok a⟩ f = ⟨rs ++ (f a).requests, (f a).outcome⟩ := rfl

@[simp] theorem andThen_error (rs : List Request) (e : Error) (f : α → Draft β) :
    andThen ⟨rs, .error e⟩ f = ⟨rs, .error e⟩ := rfl

instance : LawfulMonad Draft := LawfulMonad.mk' _
  (fun d => by rcases d with ⟨rs, e | a⟩ <;> simp [Functor.map, done])
  (fun a f => by simp [bind_eq])
  (fun d f g => by
    rcases d with ⟨rs, e | a⟩
    · simp [bind_eq]
    · rcases h : f a with ⟨rs', e' | b⟩ <;> simp [bind_eq, h])

/-- A value already computed, or the misuse that it ran into. -/
def ofMisuse : Except Misuse α → Draft α
  | .ok a => done a
  | .error m => fail (.misuse m)

/-- A result that has to be there. -/
def ofOption (e : Error) : Option α → Draft α
  | some a => done a
  | none => fail e

/-- An integer that is written where it is read, and so may not have too many digits. -/
def integer (n : Int) : Draft Int :=
  if Numeral.isWritable n then done n else fail (.misuse .unwritable)

/-- Asks for a parameter.  A name that is not plain is refused by every table, so such a reading
ends with the request. -/
def parameter (name value : Value) : Draft ParamName :=
  match ParamName.ofValue? name with
  | some n => ⟨[⟨name, value⟩], .ok n⟩
  | none => ⟨[⟨name, value⟩], .error (Error.expr (.badParameterName name)).raised⟩

/-- The readings one after the other. -/
def all : List (Draft α) → Draft (List α)
  | [] => done []
  | d :: ds => do
      let a ← d
      let as ← all ds
      pure (a :: as)

end Draft

end CypherCompose
