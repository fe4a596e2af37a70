import CypherCompose.Expr.Reading
import CypherCompose.Parameter.Registry
import Mathlib.Tactic.SplitIfs

/-!
# Drafts that come to a result

Readings are taken apart from the end: if a draft made of others comes to a result, each of them did,
and its requests are theirs in a row.  Each lemma says so for one way to make a draft, with the draft
written out as its requests and its outcome.
-/

namespace CypherCompose

namespace Draft

variable {α β : Type} {rs : List Request}

theorem bind_eq_ok {d : Draft α} {f : α → Draft β} {b : β} :
    (d >>= f) = ⟨rs, .ok b⟩ ↔
      ∃ ps a qs, d = ⟨ps, .ok a⟩ ∧ f a = ⟨qs, .ok b⟩ ∧ rs = ps ++ qs := by
  rcases d with ⟨ps, e | a⟩
  · constructor
    · intro h
      cases h
    · rintro ⟨_, _, _, h, -⟩
      cases h
  · constructor
    · intro h
      rcases hf : f a with ⟨qs, o⟩
      rw [bind_eq, andThen_ok, hf, mk.injEq] at h
      obtain ⟨rfl, rfl⟩ := h
      exact ⟨ps, a, qs, rfl, hf, rfl⟩
    · rintro ⟨_, _, qs, h, hf, rfl⟩
      cases h
      rw [bind_eq, andThen_ok, hf]

theorem map_eq_ok {d : Draft α} {f : α → β} {b : β} :
    (f <$> d) = ⟨rs, .ok b⟩ ↔ ∃ a, d = ⟨rs, .ok a⟩ ∧ f a = b := by
  rw [map_eq_pure_bind, bind_eq_ok]
  constructor
  · rintro ⟨ps, a, qs, rfl, h, rfl⟩
    cases h
    exact ⟨a, by rw [List.append_nil], rfl⟩
  · rintro ⟨a, rfl, rfl⟩
    exact ⟨rs, a, [], rfl, rfl, (List.append_nil rs).symm⟩

theorem done_eq_ok {a b : α} : done a = ⟨rs, .ok b⟩ ↔ a = b ∧ rs = [] := by
  constructor
  · intro h
    cases h
    exact ⟨rfl, rfl⟩
  · rintro ⟨rfl, rfl⟩
    rfl

theorem pure_eq_ok {a b : α} : (pure a : Draft α) = ⟨rs, .ok b⟩ ↔ a = b ∧ rs = [] :=
  done_eq_ok

theorem fail_ne_ok {e : Error} {b : α} : fail e ≠ ⟨rs, .ok b⟩ := by
  intro h
  cases h

theorem ofOption_eq_ok {e : Error} {o : Option α} {b : α} :
    ofOption e o = ⟨rs, .ok b⟩ ↔ o = some b ∧ rs = [] := by
  cases o with
  | none => exact ⟨fun h => (fail_ne_ok h).elim, fun h => by cases h.1⟩
  | some a =>
    rw [Option.some.injEq]
    exact done_eq_ok

theorem ofMisuse_eq_ok {m : Except Misuse α} {b : α} :
    ofMisuse m = ⟨rs, .ok b⟩ ↔ m = .ok b ∧ rs = [] := by
  cases m with
  | error e => exact ⟨fun h => (fail_ne_ok h).elim, fun h => by cases h.1⟩
  | ok a =>
    rw [Except.ok.injEq]
    exact done_eq_ok

theorem integer_eq_ok {n m : Int} :
    integer n = ⟨rs, .ok m⟩ ↔ Numeral.isWritable n = true ∧ n = m ∧ rs = [] := by
  unfold integer
  split_ifs with hn
  · simp only [hn, true_and]
    exact done_eq_ok
  · simp only [hn, false_and, iff_false, Bool.false_eq_true]
    exact fail_ne_ok

/-- An integer is read if it can be written. -/
theorem integer_bind_eq_ok {n : Int} {f : Int → α} {a : α} :
    (integer n >>= fun m => pure (f m)) = ⟨rs, .ok a⟩ ↔
      Numeral.isWritable n = true ∧ f n = a ∧ rs = [] := by
  simp only [bind_eq_ok, integer_eq_ok, pure_eq_ok]
  constructor
  · rintro ⟨_, _, _, ⟨hn, rfl, rfl⟩, ⟨ha, rfl⟩, rfl⟩
    exact ⟨hn, ha, rfl⟩
  · rintro ⟨hn, ha, rfl⟩
    exact ⟨[], n, [], ⟨hn, rfl, rfl⟩, ⟨ha, rfl⟩, rfl⟩

theorem parameter_eq_ok {name value : Value} {p : ParamName} :
    parameter name value = ⟨rs, .ok p⟩ ↔ ParamName.ofValue? name = some p ∧ rs = [⟨name, value⟩] := by
  unfold parameter
  cases ParamName.ofValue? name with
  | none => simp
  | some q =>
    simp only [mk.injEq, Except.ok.injEq, Option.some.injEq]
    rw [and_comm, eq_comm (a := rs)]

end Draft

theorem eq_ok_of_toOption {ε α : Type} {x : Except ε α} {a : α} (h : x.toOption = some a) :
    x = .ok a := by
  cases x with
  | error e => cases h
  | ok b => rw [Option.some.inj h]

theorem Word.toValue_of_ofValue? {v : Value} {w : Word} (h : Word.ofValue? v = some w) :
    w.toValue = v := by
  unfold Word.ofValue? at h
  split at h <;> cases h <;> rfl

theorem Word.text?_toValue (w : Word) : w.toValue.text? = some w.text := by
  cases w <;> rfl

theorem Name.text?_of_ofValue? {v : Value} {n : Name} (h : Name.ofValue? v = some n) :
    v.text? = some n.text := by
  obtain ⟨w, hw, hn⟩ := Option.bind_eq_some_iff.1 h
  unfold Name.ofWord? at hn
  split_ifs at hn
  obtain rfl := Option.some.inj hn
  rw [← Word.toValue_of_ofValue? hw]
  exact w.text?_toValue

theorem ParamName.toValue_of_ofValue? {v : Value} {p : ParamName}
    (h : ParamName.ofValue? v = some p) : p.toValue = v := by
  obtain ⟨w, hw, hp⟩ := Option.bind_eq_some_iff.1 h
  unfold ParamName.ofWord? at hp
  split_ifs at hp
  obtain rfl := Option.some.inj hp
  exact Word.toValue_of_ofValue? hw

theorem ParamName.text?_of_ofValue? {v : Value} {p : ParamName}
    (h : ParamName.ofValue? v = some p) : v.text? = some p.text := by
  rw [← ParamName.toValue_of_ofValue? h]
  exact p.word.text?_toValue

theorem Value.equal?_text_iff {v : Value} {s : String} :
    v.equal? (.text s) = some true ↔ v.text? = some s := by
  cases v with
  | atom a =>
    rw [Value.equal?, Value.outline, Value.outline, Outline.equal?, Value.text?]
    cases a with
    | float x => cases x <;> simp [Atom.equal?, Atom.number?, Atom.text?]
    | _ => simp [Atom.equal?, Atom.number?, Atom.text?]
  | _ => simp [Value.equal?, Value.outline, Outline.equal?, Value.text?]

/-- A variable is the star, or has a name. -/
theorem readVar_eq_ok {v : Value} {rs : List Request} {e : Expr} (h : readVar v = ⟨rs, .ok e⟩) :
    rs = [] ∧ (v.text? = some "*" ∧ e = .star ∨
      v.text? ≠ some "*" ∧ ∃ n, Name.ofValue? v = some n ∧ e = .var n) := by
  unfold readVar at h
  split at h
  · cases h
  · rename_i hstar
    cases h
    exact ⟨rfl, .inl ⟨Value.equal?_text_iff.1 hstar, rfl⟩⟩
  · rename_i hstar
    simp only [Draft.bind_eq_ok, Draft.ofOption_eq_ok, Draft.pure_eq_ok] at h
    obtain ⟨-, n, -, ⟨hn, rfl⟩, ⟨rfl, rfl⟩, rfl⟩ := h
    refine ⟨rfl, .inr ⟨fun htext => ?_, n, hn, rfl⟩⟩
    rw [Value.equal?_text_iff.2 htext] at hstar
    cases hstar

theorem readVar_text {s : String} (hstar : s ≠ "*") (hs : s ≠ "") :
    readVar (.text s) = .done (.var ⟨.plain s, hs⟩) := by
  have hequal : (Value.text s).equal? (.text "*") = some false := by
    simp [Value.equal?, Value.outline, Outline.equal?, Atom.equal?, Atom.number?, Atom.text?, hstar]
  have hname : Name.ofValue? (.text s) = some ⟨.plain s, hs⟩ := dif_pos hs
  rw [readVar, hequal, hname]
  rfl

theorem readName_text (role : NameRole) (owner : Value) {s : String} (hs : s ≠ "") :
    readName role owner (.text s) = .done (some ⟨.plain s, hs⟩) := by
  have hname : Name.ofValue? (.text s) = some ⟨.plain s, hs⟩ := dif_pos hs
  rw [readName]
  · rw [hname]
    rfl
  · nofun

/-- A draft comes to a result if none of its requests is refused. -/
theorem Registry.run_eq_ok {α : Type} {r r' : Registry} {d : Draft α} {a : α}
    (h : r.run d = (.ok a, r')) : d = ⟨d.requests, .ok a⟩ ∧ r.enterAll d.requests = (r', none) := by
  unfold Registry.run at h
  split at h
  · rename_i hrun
    obtain ⟨houtcome, rfl⟩ := Prod.mk.inj h
    exact ⟨Draft.ext rfl houtcome, hrun⟩
  · cases h

end CypherCompose
