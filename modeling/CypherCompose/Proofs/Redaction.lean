import CypherCompose.Proofs.Trace

/-!
# Queries without their data

`Value.redact` takes the values out of all parameters of a value, at any depth.  `Draft.RedactsTo`
relates two readings: where the first comes to something, the second comes to the very same, and its
requests are those of the first without their values.

Reading a value and reading it redacted are so related, whatever it is read as (`Value.redacted`).  The
rules of `RedactsTo` follow the ways in which readings are put together, and each reader adds one lemma;
what is asked about a value on the way (whether it is a text, a name, true, how many items it has) has
the same answer for the redacted value.
-/

namespace CypherCompose

/-! ## Redacted values -/

namespace Value

mutual

/-- A value without the data that its parameters carry, and without the identity of its builders. -/
def redact : Value → Value
  | atom a => atom a
  | list xs => list (redactAll xs)
  | tuple xs => tuple (redactAll xs)
  | map es => map (redactEntries es)
  | builder _ cs => builder 0 (redactAll cs)
  | nodeRef name label props => nodeRef name.redact label.redact props.redact
  | relRef name type hops props => relRef name.redact type.redact hops.redact props.redact
  | chain elements steps => chain elements.redact steps.redact
  | property owner key => property owner.redact key.redact
  | param name _ => param name.redact unset
  | literal value => literal value.redact
  | var name => var name.redact
  | binary op left right => binary op.redact left.redact right.redact
  | unary op operand => unary op.redact operand.redact
  | call name args distinct => call name.redact args.redact distinct.redact
  | case whens default => case whens.redact default.redact
  | existence pattern => existence pattern.redact
  | unknownExpr tag => unknownExpr tag.redact
  | aliased expr name => aliased expr.redact name.redact
  | orderItem expr direction => orderItem expr.redact direction.redact
  | assign target value => assign target.redact value.redact
  | clause c => clause (redactForm c)
  | comprehension projection binding label filter =>
      comprehension projection.redact binding.redact label.redact filter.redact
  | statement cypher parameters mode => statement cypher.redact parameters.redact mode.redact
  | propertyDef name type required default =>
      propertyDef name.redact type.redact required.redact default.redact
  | nodeSchema label properties => nodeSchema label.redact properties.redact
  | relSchema type properties => relSchema type.redact properties.redact
  | settings uri username password database =>
      settings uri.redact username.redact password.redact database.redact

/-- A clause without the data of its parameters. -/
def redactForm : ClauseForm Value → ClauseForm Value
  | .matching optional patterns => .matching optional patterns.redact
  | .filter conditions => .filter conditions.redact
  | .returning items distinct => .returning items.redact distinct.redact
  | .passing items distinct => .passing items.redact distinct.redact
  | .unwind source name => .unwind source.redact name.redact
  | .create patterns => .create patterns.redact
  | .merge pattern => .merge pattern.redact
  | .set assignments => .set assignments.redact
  | .onMerge event assignments => .onMerge event assignments.redact
  | .remove items => .remove items.redact
  | .delete detach items => .delete detach items.redact
  | .orderBy items => .orderBy items.redact
  | .skip value => .skip value.redact
  | .limit value => .limit value.redact
  | .union all => .union all
  | .subquery body => .subquery body.redact
  | .loadCsv headers source name terminator =>
      .loadCsv headers source.redact name.redact terminator.redact
  | .forEach source binding body => .forEach source.redact binding.redact body.redact
  | .createIndex label properties name ifNotExists =>
      .createIndex label.redact properties.redact name.redact ifNotExists.redact
  | .dropIndex name => .dropIndex name.redact
  | .createConstraint label properties constraint name ifNotExists =>
      .createConstraint label.redact properties.redact constraint.redact name.redact
        ifNotExists.redact
  | .dropConstraint name => .dropConstraint name.redact
  | .unknown kind => .unknown kind.redact

/-- Items without the data of their parameters. -/
def redactAll : List Value → List Value
  | [] => []
  | v :: vs => v.redact :: redactAll vs

/-- Entries without the data of their parameters. -/
def redactEntries : List (Value × Value) → List (Value × Value)
  | [] => []
  | (k, v) :: es => (k.redact, v.redact) :: redactEntries es

end

@[simp] theorem redactAll_eq_map (vs : List Value) : redactAll vs = vs.map redact := by
  induction vs with
  | nil => rfl
  | cons v vs ih => rw [redactAll, ih, List.map_cons]

@[simp] theorem redactEntries_eq_map (es : List (Value × Value)) :
    redactEntries es = es.map fun e => (e.1.redact, e.2.redact) := by
  induction es with
  | nil => rfl
  | cons e es ih => rw [redactEntries, ih, List.map_cons]

@[simp] theorem redact_atom (a : Atom) : (atom a).redact = atom a := by
  rw [redact]

@[simp] theorem text?_redact (v : Value) : v.redact.text? = v.text? := by
  cases v <;> rfl

@[simp] theorem isText_redact (v : Value) : v.redact.isText = v.isText := by
  rw [isText, text?_redact, isText]

@[simp] theorem isNull_redact (v : Value) : v.redact.isNull = v.isNull := by
  cases v <;> rfl

@[simp] theorem truth_redact (v : Value) : v.redact.truth = v.truth := by
  have htruth : v.redact.truth? = v.truth? := by
    cases v <;> simp [redact, truth?]
  rw [truth, truth, htruth]

theorem redact_of_text? {v : Value} {s : String} (h : v.text? = some s) : v.redact = v := by
  cases v with
  | atom a => exact redact_atom a
  | _ => cases h

theorem exists_atom_of_equal? {a : Atom} {o : Outline}
    (h : Outline.equal? (.atom a) o = some true) : ∃ b, o = .atom b := by
  cases o with
  | atom b => exact ⟨b, rfl⟩
  | _ => cases a <;> simp [Outline.equal?] at h

/-- What a text is equal to has no parts. -/
theorem redact_of_equal? {v w : Value} {s : String} (hv : v.text? = some s)
    (h : v.equal? w = some true) : w.redact = w := by
  cases v with
  | atom a =>
    obtain ⟨b, hb⟩ := exists_atom_of_equal? (show Outline.equal? (.atom a) w.outline = some true from h)
    cases w with
    | atom c => exact redact_atom c
    | _ => cases hb
  | _ => cases hv

@[simp] theorem word_redact (v : Value) : Word.ofValue? v.redact = Word.ofValue? v := by
  cases v <;> rfl

@[simp] theorem name_redact (v : Value) : Name.ofValue? v.redact = Name.ofValue? v := by
  rw [Name.ofValue?, word_redact, Name.ofValue?]

@[simp] theorem functionName_redact (v : Value) :
    FunctionName.ofValue? v.redact = FunctionName.ofValue? v := by
  rw [FunctionName.ofValue?, word_redact, FunctionName.ofValue?]

theorem map_redact_atomItems? (a : Atom) :
    (atomItems? a).map (List.map redact) = atomItems? a := by
  cases ha : atomItems? a with
  | none => rfl
  | some vs =>
    rw [Option.map_some, Option.some.injEq]
    refine (List.map_congr_left fun v hv => ?_).trans (List.map_id vs)
    obtain ⟨b, rfl⟩ := exists_atom_of_mem_atomItems? ha hv
    exact redact_atom b

@[simp] theorem items?_redact (v : Value) : v.redact.items? = v.items?.map (List.map redact) := by
  cases v with
  | atom a => exact (map_redact_atomItems? a).symm
  | map es => simp [redact, items?]
  | _ => simp [redact, items?]

@[simp] theorem asList_redact (v : Value) : v.redact.asList = v.asList.map redact := by
  cases v with
  | atom a => cases a <;> simp [asList]
  | _ => simp [redact, asList]

end Value

/-! ## Redacted readings -/

/-- A request without its value. -/
def Request.redact (q : Request) : Request :=
  ⟨q.name, .unset⟩

/-- If the first reading comes to something, the second comes to the same, with the same names asked
for. -/
def Draft.RedactsTo {α : Type} (d d' : Draft α) : Prop :=
  ∀ rs a, d = ⟨rs, .ok a⟩ → d' = ⟨rs.map Request.redact, .ok a⟩

namespace Draft.RedactsTo

variable {α β γ : Type} {d d' : Draft α} {f g : α → Draft β}

theorem done (a : α) : RedactsTo (.done a) (.done a) := by
  intro rs b h
  obtain ⟨rfl, rfl⟩ := Draft.done_eq_ok.1 h
  rfl

theorem pure (a : α) : RedactsTo (Pure.pure a) (Pure.pure a) :=
  done a

theorem fail (e : Error) : RedactsTo (.fail e) d := by
  intro rs a h
  exact absurd h Draft.fail_ne_ok

theorem bind (h : RedactsTo d d') (hf : ∀ a, RedactsTo (f a) (g a)) :
    RedactsTo (d >>= f) (d' >>= g) := by
  intro rs b hb
  obtain ⟨ps, a, qs, ha, hqs, rfl⟩ := Draft.bind_eq_ok.1 hb
  rw [List.map_append]
  exact Draft.bind_eq_ok.2 ⟨_, a, _, h ps a ha, hf a qs b hqs, rfl⟩

theorem map (h : RedactsTo d d') (k : α → β) : RedactsTo (k <$> d) (k <$> d') := by
  intro rs b hb
  obtain ⟨a, ha, rfl⟩ := Draft.map_eq_ok.1 hb
  exact Draft.map_eq_ok.2 ⟨a, h rs a ha, rfl⟩

theorem ite {c : Prop} [Decidable c] {u u' : Draft α} (h : RedactsTo d d') (hu : RedactsTo u u') :
    RedactsTo (if c then d else u) (if c then d' else u') := by
  by_cases hc : c
  · rw [if_pos hc, if_pos hc]
    exact h
  · rw [if_neg hc, if_neg hc]
    exact hu

theorem ofOption {e e' : Error} {o o' : Option α} (h : o' = o) :
    RedactsTo (.ofOption e o) (.ofOption e' o') := by
  intro rs a ha
  obtain ⟨rfl, rfl⟩ := Draft.ofOption_eq_ok.1 ha
  rw [h]
  rfl

theorem ofMisuse {x x' : Except Misuse α} (h : x' = x) :
    RedactsTo (.ofMisuse x) (.ofMisuse x') := by
  intro rs a ha
  obtain ⟨rfl, rfl⟩ := Draft.ofMisuse_eq_ok.1 ha
  rw [h]
  rfl

/-- Readings that go on from parts which are not the same themselves. -/
theorem ofOption_bind {e e' : Error} {o : Option α} {o' : Option γ} {k : γ → Draft β}
    (h : ∀ a, o = some a → ∃ b, o' = some b ∧ RedactsTo (f a) (k b)) :
    RedactsTo (.ofOption e o >>= f) (.ofOption e' o' >>= k) := by
  intro rs b hb
  obtain ⟨_, a, qs, ha, hqs, rfl⟩ := Draft.bind_eq_ok.1 hb
  obtain ⟨rfl, rfl⟩ := Draft.ofOption_eq_ok.1 ha
  obtain ⟨c, rfl, hc⟩ := h a rfl
  exact Draft.bind_eq_ok.2 ⟨[], c, _, rfl, hc qs b hqs, rfl⟩

/-- Readings that go on from what walking through a value visits. -/
theorem ofItems {e e' : Error} {v : Value} {φ : List Value → γ} {k k' : γ → Draft β}
    (h : ∀ vs, v.walk = vs → RedactsTo (k (φ vs)) (k' (φ (vs.map Value.redact)))) :
    RedactsTo (.ofOption e (v.items?.map φ) >>= k) (.ofOption e' (v.redact.items?.map φ) >>= k') := by
  refine ofOption_bind fun c hc => ?_
  obtain ⟨vs, hvs, rfl⟩ := Option.map_eq_some_iff.1 hc
  refine ⟨φ (vs.map Value.redact), by rw [Value.items?_redact, hvs]; rfl, h vs ?_⟩
  rw [Value.walk, hvs, Option.getD_some]

theorem integer (n : Int) : RedactsTo (.integer n) (.integer n) := by
  intro rs m h
  obtain ⟨-, -, rfl⟩ := Draft.integer_eq_ok.1 h
  exact h

theorem parameter (name value : Value) :
    RedactsTo (.parameter name value) (.parameter name.redact .unset) := by
  intro rs p hp
  obtain ⟨hname, rfl⟩ := Draft.parameter_eq_ok.1 hp
  rw [Value.redact_of_text? (ParamName.text?_of_ofValue? hname)]
  exact Draft.parameter_eq_ok.2 ⟨hname, rfl⟩

/-! ### Leaves -/

theorem ofAtom (a : Atom) : RedactsTo (Expr.ofAtom a) (Expr.ofAtom a) := by
  cases a with
  | int n => exact bind (integer n) fun n => pure _
  | float x =>
    cases x with
    | finite x => exact done _
    | _ => exact fail _
  | bytes bs => exact fail _
  | date y m d => exact fail _
  | unset => exact fail _
  | ambiguous id => exact fail _
  | _ => exact done _

theorem readProperty (owner key : Value) :
    RedactsTo (readProperty owner key) (readProperty owner.redact key.redact) := by
  refine bind (ofOption (Value.name_redact owner)) fun o => ?_
  exact bind (ofOption (Value.name_redact key)) fun k => pure _

theorem readVar (v : Value) : RedactsTo (readVar v) (readVar v.redact) := by
  intro rs e h
  obtain ⟨rfl, hcases⟩ := readVar_eq_ok h
  have hatom : v.redact = v := by
    obtain ⟨hstar, -⟩ | ⟨-, n, hn, -⟩ := hcases
    · exact Value.redact_of_text? hstar
    · exact Value.redact_of_text? (Name.text?_of_ofValue? hn)
  rw [hatom]
  exact h

theorem readBinaryOp (op e e' : Value) :
    RedactsTo (readBinaryOp op e) (readBinaryOp op.redact e') := by
  unfold CypherCompose.readBinaryOp
  rw [Value.text?_redact]
  cases op.text? with
  | none => exact fail _
  | some s => exact ofOption rfl

theorem readUnaryOp (op e e' : Value) :
    RedactsTo (readUnaryOp op e) (readUnaryOp op.redact e') := by
  unfold CypherCompose.readUnaryOp
  rw [Value.text?_redact]
  cases op.text? with
  | none => exact fail _
  | some s => exact ofOption rfl

theorem readName (role : NameRole) (owner owner' v : Value) :
    RedactsTo (readName role owner v) (readName role owner' v.redact) := by
  cases v with
  | atom a =>
    cases a with
    | null => exact done none
    | _ => exact bind (ofOption rfl) fun n => pure (some n)
  | _ => exact bind (ofOption rfl) fun n => pure (some n)

theorem readBound (rel rel' v : Value) : RedactsTo (readBound rel v) (readBound rel' v.redact) := by
  cases v with
  | atom a =>
    cases a with
    | null => exact done none
    | int n => exact ite (fail _) (bind (integer n) fun n => pure _)
    | _ => exact fail _
  | _ => exact fail _

theorem readRange (rel rel' lo hi : Value) :
    RedactsTo (readRange rel lo hi) (readRange rel' lo.redact hi.redact) := by
  refine bind (readBound rel rel' lo) fun a => bind (readBound rel rel' hi) fun b => ?_
  cases a with
  | none => exact pure _
  | some m =>
    cases b with
    | none => exact pure _
    | some n => exact ite (fail _) (pure _)

theorem readHops (rel rel' v : Value) : RedactsTo (readHops rel v) (readHops rel' v.redact) := by
  cases v with
  | atom a =>
    cases a with
    | null => exact done none
    | int n => exact ite (fail _) (bind (integer n) fun n => pure _)
    | _ => exact fail _
  | list xs =>
    rcases xs with _ | ⟨a, _ | ⟨b, _ | ⟨c, xs⟩⟩⟩
    case cons.cons.nil => exact readRange rel rel' a b
    all_goals exact fail _
  | tuple xs =>
    rcases xs with _ | ⟨a, _ | ⟨b, _ | ⟨c, xs⟩⟩⟩
    case cons.cons.nil => exact readRange rel rel' a b
    all_goals exact fail _
  | _ => exact fail _

/-! ### Patterns -/

theorem readNode {name label owner owner' : Value} {props props' : Draft (List (Name × Expr))}
    (h : RedactsTo props props') :
    RedactsTo (readNode name label props owner)
      (readNode name.redact label.redact props' owner') := by
  refine bind (readName .nodeName owner owner' name) fun n => ?_
  refine bind (readName .label owner owner' label) fun l => ?_
  exact bind h fun ps => pure _

theorem readRel {name type hops owner owner' : Value} {props props' : Draft (List (Name × Expr))}
    (h : RedactsTo props props') :
    RedactsTo (readRel name type hops props owner)
      (readRel name.redact type.redact hops.redact props' owner') := by
  refine bind (readName .relName owner owner' name) fun n => ?_
  refine bind (readName .relType owner owner' type) fun t => ?_
  refine bind (readHops owner owner' hops) fun hp => ?_
  exact bind h fun ps => pure _

end Draft.RedactsTo

theorem Value.readPair?_of_items? {v a b : Value} (h : v.items? = some [a, b]) :
    readPair? v = some (Expr.ofValue a, Expr.ofValue b) := by
  cases v with
  | atom x =>
    have hitems : (atomItems? x).map plainItems = (atomItems? x).map (List.map Expr.ofValue) :=
      readItems?_eq_map (.atom x)
    have hx : atomItems? x = some [a, b] := h
    rw [readPair?, plainPair?, hitems, hx]
    rfl
  | map es =>
    rcases es with _ | ⟨⟨c, x⟩, _ | ⟨⟨d, y⟩, _ | ⟨e, es⟩⟩⟩ <;> cases h
    rfl
  | list xs =>
    cases h
    rfl
  | tuple xs =>
    cases h
    rfl
  | builder _ xs =>
    cases h
    rfl
  | _ => cases h

/-- Whatever a value is read as, the redacted value is read as the same. -/
structure Value.Redacted (v : Value) : Prop where
  expr : (Expr.ofValue v).RedactsTo (Expr.ofValue v.redact)
  props : (readProps v).RedactsTo (readProps v.redact)
  node : ∀ {chain chain' i}, ((readStation v).node chain i).RedactsTo
    ((readStation v.redact).node chain' i)
  link : ∀ {chain chain' i} {before after : Value}, ((readStation v).link chain i before after).RedactsTo
    ((readStation v.redact).link chain' i before.redact after.redact)
  paths : (pathsOf v).RedactsTo (pathsOf v.redact)

namespace Draft.RedactsTo

/-! ### Collections -/

theorem all {vs : List Value} (hvs : ∀ v ∈ vs, v.Redacted) :
    RedactsTo (.all (vs.map Expr.ofValue)) (.all ((vs.map Value.redact).map Expr.ofValue)) := by
  induction vs with
  | nil => exact done []
  | cons v vs ih =>
    rw [List.forall_mem_cons] at hvs
    exact bind hvs.1.expr fun e => bind (ih hvs.2) fun es => pure _

theorem entries {whole whole' : Value} {es : List (Value × Value)} (hes : ∀ e ∈ es, e.2.Redacted) :
    RedactsTo (readEntries whole es) (readEntries whole' (Value.redactEntries es)) := by
  induction es with
  | nil => exact done []
  | cons e es ih =>
    obtain ⟨k, v⟩ := e
    rw [List.forall_mem_cons] at hes
    refine bind (ofOption (Value.name_redact k)) fun n => bind hes.1.expr fun e => ?_
    exact bind (ih hes.2) fun rest => pure _

theorem links {chain chain' : Value} : ∀ {vs steps : List Value} {i : Nat},
    (∀ v ∈ vs, v.Redacted) → RedactsTo (readLinks chain i (vs.map readStation) steps)
      (readLinks chain' i ((vs.map Value.redact).map readStation) (steps.map Value.redact))
  | v :: w :: vs, before :: after :: steps, i, hvs => by
    rw [List.forall_mem_cons, List.forall_mem_cons] at hvs
    refine bind hvs.1.link fun l => bind hvs.2.1.node fun n => ?_
    exact bind (links hvs.2.2) fun rest => pure _
  | [], _, _, _ => done []
  | [_], _, _, _ => done []
  | _ :: _ :: _, [], _, _ => done []
  | _ :: _ :: _, [_], _, _ => done []

theorem chain {whole whole' : Value} {vs steps : List Value} (hvs : ∀ v ∈ vs, v.Redacted) :
    RedactsTo (readChain whole (vs.map readStation) steps)
      (readChain whole' ((vs.map Value.redact).map readStation) (steps.map Value.redact)) := by
  cases vs with
  | nil => exact fail _
  | cons v vs =>
    rw [List.forall_mem_cons] at hvs
    simp only [List.map_cons, readChain, List.length_cons, List.length_map]
    refine ite (fail _) (ite (fail _) ?_)
    exact bind hvs.1.node fun n => bind (links hvs.2) fun ls => pure _

theorem patterns {whole whole' : Value} : ∀ {vs : List Value}, (∀ v ∈ vs, v.Redacted) →
    RedactsTo (readPatterns whole vs) (readPatterns whole' (Value.redactAll vs))
  | [], _ => fail _
  | [v], hvs => (hvs v (by simp)).paths
  | v :: w :: vs, hvs => by
    rw [List.forall_mem_cons] at hvs
    exact bind hvs.1.paths fun ps => bind (patterns hvs.2) fun qs => pure _

theorem branches {e e' : Value} {vs : List Value} (hvs : ∀ v ∈ vs, ∀ w ∈ v.walk, w.Redacted) :
    RedactsTo (readBranches e (vs.map Value.branchReading))
      (readBranches e' ((vs.map Value.redact).map Value.branchReading)) := by
  induction vs with
  | nil => exact done []
  | cons v vs ih =>
    rw [List.forall_mem_cons] at hvs
    refine ofOption_bind fun parts hparts => ?_
    obtain ⟨a, b, hab, rfl⟩ := Value.items?_of_readPair? hparts
    have hwalk : v.walk = [a, b] := by
      rw [Value.walk, hab]
      rfl
    have hab' : v.redact.items? = some [a.redact, b.redact] := by
      rw [Value.items?_redact, hab]
      rfl
    rw [hwalk] at hvs
    refine ⟨_, Value.readPair?_of_items? hab', ?_⟩
    refine bind (hvs.1 a (by simp)).expr fun c => bind (hvs.1 b (by simp)).expr fun d => ?_
    exact bind (ih hvs.2) fun rest => pure _

/-! ### Elements of chains -/

theorem station_node {s s' : Station} {chain chain' : Value} {i : Nat}
    (h : ∀ d, s.node? = some d → ∃ d', s'.node? = some d' ∧ d.RedactsTo d') :
    (s.node chain i).RedactsTo (s'.node chain' i) := by
  unfold Station.node
  cases hs : s.node? with
  | none => exact fail _
  | some d =>
    obtain ⟨d', hd', hd⟩ := h d hs
    rw [hd']
    exact hd

theorem station_link {s s' : Station} {chain chain' : Value} {i : Nat} {before after : Value}
    (h : ∀ d, s.rel? = some d → ∃ d', s'.rel? = some d' ∧ d.RedactsTo d') :
    (s.link chain i before after).RedactsTo (s'.link chain' i before.redact after.redact) := by
  intro rs l hl
  unfold Station.link at hl
  split at hl
  · cases hl
  rename_i d hd
  split at hl
  · cases hl
  · cases hl
  rename_i hequal
  obtain ⟨ps, r, qs, hr, hdirection, rfl⟩ := Draft.bind_eq_ok.1 hl
  obtain ⟨_, o, us, ho, hpure, rfl⟩ := Draft.bind_eq_ok.1 hdirection
  obtain ⟨hdirected, rfl⟩ := Draft.ofOption_eq_ok.1 ho
  obtain ⟨t, ht, -⟩ := Option.bind_eq_some_iff.1 hdirected
  obtain ⟨rfl, rfl⟩ := Draft.pure_eq_ok.1 hpure
  obtain ⟨d', hd', hdd'⟩ := h d hd
  -- The steps around a relationship are read as directions, so they hold no data.
  rw [Value.redact_of_text? ht, Value.redact_of_equal? ht hequal, Station.link]
  simp only [hd', hequal, hdirected, hdd' ps r hr]
  simp [Draft.bind_eq, Draft.ofOption, Draft.done]

end Draft.RedactsTo

/-! ## Values -/

namespace Value

theorem redactsTo_namedNode (v : Value) : (namedNode v).RedactsTo (namedNode v.redact) :=
  .readNode (.done [])

theorem redactsTo_typedRel (v : Value) : (typedRel v).RedactsTo (typedRel v.redact) :=
  .readRel (.done [])

theorem redactsTo_props {v : Value} (h : ∀ es, v = map es → ∀ e ∈ es, e.2.Redacted) :
    (readProps v).RedactsTo (readProps v.redact) := by
  cases v with
  | map es => exact .entries (h es rfl)
  | _ => exact .bind (.ofMisuse (truth_redact _)) fun b => .ite (.fail _) (.pure _)

theorem redacted_atom (a : Atom) : (atom a).Redacted where
  expr := by
    rw [redact_atom, Expr.ofValue]
    exact .ofAtom a
  props := redactsTo_props fun _ h => by cases h
  node := by
    refine .station_node fun d hd => ?_
    rw [readStation_atom, Station.plain] at hd
    rw [redact_atom, readStation_atom, Station.plain]
    split_ifs at hd ⊢ with htext
    cases hd
    exact ⟨_, rfl, redactsTo_namedNode (atom a)⟩
  link := by
    refine .station_link fun d hd => ?_
    rw [readStation_atom, Station.plain] at hd
    rw [redact_atom, readStation_atom, Station.plain]
    split_ifs at hd ⊢ with htext
    cases hd
    exact ⟨_, rfl, redactsTo_typedRel (atom a)⟩
  paths := by
    rw [redact_atom, pathsOf_atom]
    exact .ite (.bind (redactsTo_namedNode (atom a)) fun n => .pure _) (.fail _)

section Parts

variable {v : Value} (ih : ∀ w : Value, sizeOf w < sizeOf v → w.Redacted)

include ih

theorem redacted_of_mem_walk {w x : Value} (hw : sizeOf w ≤ sizeOf v) (hx : x ∈ w.walk) :
    x.Redacted := by
  rcases sizeOf_lt_of_mem_walk hx with ⟨a, rfl⟩ | hlt
  · exact redacted_atom a
  · exact ih x (hlt.trans_le hw)

theorem redacted_of_mem_entries {es : List (Value × Value)} (hv : v = map es) :
    ∀ e ∈ es, e.2.Redacted := by
  intro e he
  have hlt := List.sizeOf_lt_of_mem he
  obtain ⟨k, w⟩ := e
  refine ih w ?_
  rw [hv]
  simp at hlt ⊢
  omega

theorem redactsTo_node {chain chain' : Value} {i : Nat} :
    ((readStation v).node chain i).RedactsTo ((readStation v.redact).node chain' i) := by
  cases v with
  | atom a => exact (redacted_atom a).node
  | nodeRef name label props =>
    have hprops := ih props (by rw [nodeRef.sizeOf_spec]; omega)
    refine .station_node fun d hd => ?_
    cases hd
    exact ⟨_, rfl, .readNode hprops.props⟩
  | _ => exact .station_node fun d hd => by cases hd

theorem redactsTo_link {chain chain' before after : Value} {i : Nat} :
    ((readStation v).link chain i before after).RedactsTo
      ((readStation v.redact).link chain' i before.redact after.redact) := by
  cases v with
  | atom a => exact (redacted_atom a).link
  | relRef name type hops props =>
    have hprops := ih props (by rw [relRef.sizeOf_spec]; omega)
    refine .station_link fun d hd => ?_
    cases hd
    exact ⟨_, rfl, .readRel hprops.props⟩
  | _ => exact .station_link fun d hd => by cases hd

theorem redactsTo_paths : (pathsOf v).RedactsTo (pathsOf v.redact) := by
  cases v with
  | atom a => exact (redacted_atom a).paths
  | list xs => exact .patterns fun x hx => redacted_of_mem_walk ih (Nat.le_refl _) hx
  | tuple xs => exact .patterns fun x hx => redacted_of_mem_walk ih (Nat.le_refl _) hx
  | chain elements steps =>
    have hlt : sizeOf elements ≤ sizeOf (chain elements steps) := by rw [chain.sizeOf_spec]; omega
    simp only [redact, pathsOf, readElements?_eq_map]
    refine .ofItems fun vs hvs => .ofOption_bind fun ss hss => ?_
    refine ⟨ss.map redact, by rw [items?_redact, hss]; rfl, ?_⟩
    refine .bind (.chain fun x hx => ?_) fun p => .pure _
    exact redacted_of_mem_walk ih hlt (hvs ▸ hx)
  | nodeRef name label props =>
    have hprops := ih props (by rw [nodeRef.sizeOf_spec]; omega)
    exact .bind (.readNode hprops.props) fun n => .pure _
  | _ => exact .fail _

theorem redactsTo_expr : (Expr.ofValue v).RedactsTo (Expr.ofValue v.redact) := by
  cases v with
  | atom a => exact (redacted_atom a).expr
  | list xs =>
    simp only [redact, Expr.ofValue, redactAll_eq_map, readAll_eq_map]
    exact .bind (.all fun x hx => redacted_of_mem_walk ih (Nat.le_refl _) hx) fun es => .pure _
  | tuple xs =>
    simp only [redact, Expr.ofValue, redactAll_eq_map, readAll_eq_map]
    exact .bind (.all fun x hx => redacted_of_mem_walk ih (Nat.le_refl _) hx) fun es => .pure _
  | map es =>
    rw [redact, Expr.ofValue, Expr.ofValue]
    exact .bind (.entries (redacted_of_mem_entries ih rfl)) fun entries => .pure _
  | property owner key =>
    rw [redact, Expr.ofValue, Expr.ofValue]
    exact .readProperty owner key
  | param name value =>
    rw [redact, Expr.ofValue, Expr.ofValue]
    exact .bind (.parameter name value) fun p => .pure _
  | var name =>
    rw [redact, Expr.ofValue, Expr.ofValue]
    exact .readVar name
  | literal w =>
    rw [redact, Expr.ofValue, Expr.ofValue]
    exact .bind (ih w (by simp)).expr fun e => .pure _
  | binary op left right =>
    have hleft := ih left (by rw [binary.sizeOf_spec]; omega)
    have hright := ih right (by rw [binary.sizeOf_spec]; omega)
    rw [redact, Expr.ofValue, Expr.ofValue]
    refine .bind (.readBinaryOp op _ _) fun o => ?_
    exact .bind hleft.expr fun l => .bind hright.expr fun r => .pure _
  | unary op operand =>
    have hoperand := ih operand (by rw [unary.sizeOf_spec]; omega)
    rw [redact, Expr.ofValue, Expr.ofValue]
    exact .bind (.readUnaryOp op _ _) fun o => .bind hoperand.expr fun e => .pure _
  | call name args distinct =>
    have hlt : sizeOf args ≤ sizeOf (call name args distinct) := by rw [call.sizeOf_spec]; omega
    simp only [redact, Expr.ofValue, readItems?_eq_map]
    refine .bind (.ofOption (functionName_redact name)) fun f => .ofItems fun vs hvs => ?_
    refine .bind (.all fun x hx => redacted_of_mem_walk ih hlt (hvs ▸ hx)) fun es => ?_
    exact .bind (.ofMisuse (truth_redact distinct)) fun d => .pure _
  | case whens default =>
    have hdefault := ih default (by rw [case.sizeOf_spec]; omega)
    simp only [redact, Expr.ofValue, readBranchItems?_eq_map, isNull_redact]
    refine .bind (.ofMisuse (truth_redact whens)) fun b => .ite ?_ (.fail _)
    refine .ofItems fun vs hvs => .bind (.branches fun x hx y hy => ?_) fun bs => ?_
    · rcases sizeOf_lt_of_mem_walk (hvs ▸ hx) with ⟨a, rfl⟩ | hlt
      · obtain ⟨b, rfl⟩ := exists_atom_of_mem_walk hy
        exact redacted_atom b
      · exact redacted_of_mem_walk ih (by rw [case.sizeOf_spec]; omega) hy
    · apply Draft.RedactsTo.ite
      · exact .bind (.pure none) fun d => .pure _
      · exact .bind (.map hdefault.expr some) fun d => .pure _
  | existence pattern =>
    rw [redact, Expr.ofValue, Expr.ofValue]
    exact .bind (ih pattern (by simp)).paths fun ps => .pure _
  | _ => exact .fail _

end Parts

/-- Reading a redacted value comes to what reading the value comes to. -/
theorem redacted (v : Value) : v.Redacted := by
  induction hn : sizeOf v using Nat.strong_induction_on generalizing v with
  | _ n ih =>
    have ih' : ∀ w : Value, sizeOf w < sizeOf v → w.Redacted := fun w hw => ih _ (hn ▸ hw) w rfl
    exact ⟨redactsTo_expr ih', redactsTo_props fun es hes => redacted_of_mem_entries ih' hes,
      redactsTo_node ih', redactsTo_link ih', redactsTo_paths ih'⟩

end Value

end CypherCompose
