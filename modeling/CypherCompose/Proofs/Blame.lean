import CypherCompose.Proofs.WellTyped

/-!
# Errors of readings

`Draft.Blames P d` says that the reading `d` can only fail by errors with the property `P`.  Readings
put together from others blame what these do.

Whatever a value is read as, its reading can fail by errors of patterns and of expressions.  Two more
kinds of errors come up under conditions: that a message cannot be written, if the value holds an
integer that is too long, and that a value is used against its type, if the value is not well typed.
`Error.Covers P v` says that `P` allows for them, and a value is then read so that its reading blames
`P` (`Value.blames`).
-/

namespace CypherCompose

/-! ## What may be raised about a value -/

namespace Error

variable {P : Error → Prop} {v w : Value}

/-- Errors of patterns and of expressions that show a value have the property. -/
structure Admits (P : Error → Prop) (v : Value) : Prop where
  pattern : ∀ p, P (.pattern p)
  expr : ∀ x, P (.expr x)
  shows : v.isWritable = true ∨ P (.misuse .unwritable)

/-- Errors that a value may lead to, in whatever it is read as, have the property. -/
structure Covers (P : Error → Prop) (v : Value) : Prop extends Admits P v where
  misuse : WellTyped v ∨ ∀ m, P (.misuse m)

theorem raised_of {e : Error} (he : P e) (h : e.isWritable = true ∨ P (.misuse .unwritable)) :
    P e.raised := by
  obtain ⟨-, heq⟩ | ⟨hnot, heq⟩ := raised_cases e
  · rwa [heq]
  · rw [heq]
    rcases h with hw | hP
    · rw [hnot] at hw
      cases hw
    · exact hP

theorem raised_misuse (h : ∀ m, P (.misuse m)) (m : Misuse) : P (Error.misuse m).raised :=
  raised_of (h m) (.inr (h .unwritable))

namespace Admits

theorem of_imp (h : Admits P v) (hw : v.isWritable = true → w.isWritable = true) : Admits P w :=
  ⟨h.pattern, h.expr, h.shows.imp_left hw⟩

theorem raised_pattern (h : Admits P v) {e : PatternError}
    (hw : v.isWritable = true → e.wording.isWritable = true) : P (Error.pattern e).raised :=
  raised_of (h.pattern e) (h.shows.imp_left hw)

theorem raised_expr (h : Admits P v) {e : ExprError}
    (hw : v.isWritable = true → e.wording.isWritable = true) : P (Error.expr e).raised :=
  raised_of (h.expr e) (h.shows.imp_left hw)

end Admits

namespace Covers

theorem parts (h : Covers P v) (hw : w ∈ v.parts) : Covers P w where
  toAdmits := h.of_imp fun hv => Value.isWritable_of_mem_parts hv hw
  misuse := h.misuse.imp_left fun ht => ht.parts w hw

theorem of_mem_walk (h : Covers P v) (hw : w ∈ v.walk) : Covers P w where
  toAdmits := h.of_imp fun hv => Value.isWritable_of_mem_walk hv hw
  misuse := h.misuse.imp_left fun ht => ht.of_mem_walk hw

theorem of_mem_asList (h : Covers P v) (hw : w ∈ v.asList) : Covers P w := by
  unfold Value.asList at hw
  split at hw
  · cases hw
  · exact h.parts hw
  · exact h.parts hw
  · rwa [List.mem_singleton.1 hw]

/-- The fields of a form hold what reading takes for granted, or what comes of it is allowed for. -/
theorem fits (h : Covers P v) : v.fieldsFit = true ∨ ∀ m, P (.misuse m) :=
  h.misuse.imp_left WellTyped.fits

end Covers

end Error

open Error (Admits Covers)

/-! ## Readings put together -/

/-- A reading that can only fail by errors with a property.  What its requests bring can be shown in a
message, or else the property holds of the error about that. -/
structure Draft.Blames (P : Error → Prop) {α : Type} (d : Draft α) : Prop where
  error : ∀ e, d.outcome = .error e → P e
  requests : ∀ q ∈ d.requests, Admits P q.name ∧ Admits P q.value

namespace Draft.Blames

variable {α β : Type} {P : Error → Prop} {d : Draft α} {f : α → Draft β}

theorem done (a : α) : Blames P (.done a) :=
  ⟨fun _ he => (by cases he), List.forall_mem_nil _⟩

theorem pure (a : α) : Blames P (Pure.pure a) :=
  done a

theorem fail {e : Error} (h : P e.raised) : Blames P (.fail e : Draft α) := by
  refine ⟨fun e' he' => ?_, List.forall_mem_nil _⟩
  cases he'
  exact h

theorem bind (h : Blames P d) (hf : ∀ a, d.outcome = .ok a → Blames P (f a)) :
    Blames P (d >>= f) := by
  obtain ⟨rs, e | a⟩ := d
  · refine ⟨fun e' he' => ?_, h.requests⟩
    cases he'
    exact h.error e rfl
  · exact ⟨(hf a rfl).error, List.forall_mem_append.2 ⟨h.requests, (hf a rfl).requests⟩⟩

theorem map (h : Blames P d) (k : α → β) : Blames P (k <$> d) :=
  bind h fun a _ => pure (k a)

theorem ite {p : Prop} [Decidable p] {d' : Draft α} (h : p → Blames P d) (h' : ¬ p → Blames P d') :
    Blames P (if p then d else d') := by
  split_ifs with hp
  · exact h hp
  · exact h' hp

theorem ofOption {e : Error} {o : Option α} (h : o = none → P e.raised) :
    Blames P (.ofOption e o) := by
  cases o with
  | none => exact fail (h rfl)
  | some a => exact done a

theorem ofOption_bind {e : Error} {o : Option α} (h : o = none → P e.raised)
    (hf : ∀ a, o = some a → Blames P (f a)) : Blames P (.ofOption e o >>= f) := by
  cases o with
  | none => exact fail (h rfl)
  | some a => exact hf a rfl

theorem ofMisuse {x : Except Misuse α} (h : (∃ a, x = .ok a) ∨ ∀ m, P (.misuse m)) :
    Blames P (.ofMisuse x) := by
  cases x with
  | ok a => exact done a
  | error m =>
    obtain ⟨a, ha⟩ | hP := h
    · cases ha
    · exact fail (Error.raised_misuse hP m)

theorem integer {n : Int} (h : Admits P (.int n)) : Blames P (.integer n) := by
  refine ite (fun _ => done n) fun hn => fail (Error.raised_of (h.shows.resolve_left hn) ?_)
  exact .inl rfl

theorem parameter {name value : Value} (h : Admits P (.param name value)) :
    Blames P (.parameter name value) := by
  have hshown : Admits P name ∧ Admits P value := by
    constructor <;> refine h.of_imp fun hw => ?_ <;>
      rw [Value.isWritable_param, Bool.and_eq_true] at hw
    · exact hw.1
    · exact hw.2
  constructor
  · intro e he
    unfold Draft.parameter at he
    split at he <;> cases he
    exact hshown.1.raised_expr fun hw => by simp [ExprError.wording, hw]
  · intro q hq
    have hrequests : (Draft.parameter name value).requests = [⟨name, value⟩] := by
      unfold Draft.parameter
      split <;> rfl
    rw [hrequests, List.mem_singleton] at hq
    subst hq
    exact hshown

theorem all {ds : List (Draft α)} (h : ∀ d ∈ ds, Blames P d) : Blames P (.all ds) := by
  induction ds with
  | nil => exact done []
  | cons d ds ih =>
    rw [List.forall_mem_cons] at h
    exact bind h.1 fun a _ => bind (ih h.2) fun as _ => pure _

/-! ## Leaves -/

theorem ofAtom {a : Atom} (h : Admits P (.atom a)) : Blames P (Expr.ofAtom a) := by
  have hfail : P (Error.expr (.unsupportedLiteral (.atom a))).raised :=
    h.raised_expr fun hw => by simp [ExprError.wording, hw]
  cases a with
  | int n => exact bind (integer h) fun n _ => pure _
  | float x =>
    cases x with
    | finite x => exact done _
    | _ => exact fail (h.raised_expr fun hw => by simp [ExprError.wording, hw])
  | bytes bs => exact fail hfail
  | date y m d => exact fail hfail
  | unset => exact fail hfail
  | ambiguous id => exact fail hfail
  | _ => exact done _

theorem readProperty {owner key : Value} (h : Admits P (.property owner key)) :
    Blames P (readProperty owner key) := by
  refine bind (ofOption fun _ => h.raised_expr fun hw => ?_) fun _ _ => ?_
  · simp [ExprError.wording, hw]
  · exact bind (ofOption fun _ => h.raised_expr fun hw => by simp [ExprError.wording, hw])
      fun _ _ => pure _

theorem readVar {name : Value} (h : Admits P (.var name))
    (htext : name.isText = true ∨ ∀ m, P (.misuse m)) : Blames P (readVar name) := by
  unfold CypherCompose.readVar
  split
  · rename_i hnone
    obtain htext | hP := htext
    · obtain ⟨b, hb⟩ := Value.equal?_of_isText htext (show (Value.text "*").isText = true from rfl)
      rw [hb] at hnone
      cases hnone
    · exact fail (Error.raised_misuse hP _)
  · exact done _
  · exact bind (ofOption fun _ => h.raised_expr fun hw => by simp [ExprError.wording, hw])
      fun _ _ => pure _

/-- An operator that is unknown, or no text at all. -/
theorem raised_operator {op e : Value} (h : Admits P e) {x : ExprError}
    (hx : e.isWritable = true → x.wording.isWritable = true)
    (htext : op.isText = true ∨ ∀ m, P (.misuse m)) (hnone : op.text? = none) :
    P (Error.raised (if op.isKey then .expr x else .misuse (.notKey op))) := by
  obtain htext | hP := htext
  · rw [Value.isText, hnone] at htext
    cases htext
  · split_ifs
    · exact h.raised_expr hx
    · exact Error.raised_misuse hP _

theorem readBinaryOp {op e : Value} (h : Admits P e)
    (hop : e.isWritable = true → op.isWritable = true)
    (htext : op.isText = true ∨ ∀ m, P (.misuse m)) : Blames P (readBinaryOp op e) := by
  have hunknown : e.isWritable = true → (ExprError.unknownBinary op e).wording.isWritable = true :=
    fun hw => by simp [ExprError.wording, hw, hop hw]
  unfold CypherCompose.readBinaryOp
  split
  · exact ofOption fun _ => h.raised_expr hunknown
  · rename_i hnone
    exact fail (raised_operator h hunknown htext hnone)

theorem readUnaryOp {op e : Value} (h : Admits P e)
    (hop : e.isWritable = true → op.isWritable = true)
    (htext : op.isText = true ∨ ∀ m, P (.misuse m)) : Blames P (readUnaryOp op e) := by
  have hunknown : e.isWritable = true → (ExprError.unknownUnary op e).wording.isWritable = true :=
    fun hw => by simp [ExprError.wording, hw, hop hw]
  unfold CypherCompose.readUnaryOp
  split
  · exact ofOption fun _ => h.raised_expr hunknown
  · rename_i hnone
    exact fail (raised_operator h hunknown htext hnone)

theorem readName {owner v : Value} (h : Admits P owner)
    (hv : owner.isWritable = true → v.isWritable = true) (role : NameRole) :
    Blames P (readName role owner v) := by
  unfold CypherCompose.readName
  split
  · exact done none
  · refine bind (ofOption fun _ => h.raised_pattern fun hw => ?_) fun n _ => pure (some n)
    simp [PatternError.wording, hw, hv hw]

theorem readBound {rel v : Value} (h : Admits P rel)
    (hv : rel.isWritable = true → v.isWritable = true) : Blames P (readBound rel v) := by
  have hbad : P (Error.pattern (.badHopBound rel)).raised :=
    h.raised_pattern fun hw => by simp [PatternError.wording, hw]
  unfold CypherCompose.readBound
  split
  · exact done none
  · exact ite (fun _ => fail hbad) fun _ => bind (integer (h.of_imp hv)) fun n _ => pure _
  · exact fail hbad

theorem readRange {rel lo hi : Value} (h : Admits P rel)
    (hlo : rel.isWritable = true → lo.isWritable = true)
    (hhi : rel.isWritable = true → hi.isWritable = true) : Blames P (readRange rel lo hi) := by
  refine bind (readBound h hlo) fun a _ => bind (readBound h hhi) fun b _ => ?_
  split
  · refine ite (fun _ => fail (h.raised_pattern fun hw => ?_)) fun _ => pure _
    simp [PatternError.wording, hw]
  · exact pure _

theorem readHops {rel v : Value} (h : Admits P rel)
    (hv : rel.isWritable = true → v.isWritable = true) : Blames P (readHops rel v) := by
  unfold CypherCompose.readHops
  split
  · exact done none
  · refine ite (fun _ => fail (h.raised_pattern fun hw => ?_)) fun _ => ?_
    · simp [PatternError.wording, hw]
    · exact bind (integer (h.of_imp hv)) fun n _ => pure _
  · exact readRange h (fun hw => Value.isWritable_of_mem_parts (hv hw) (by simp [Value.parts]))
      fun hw => Value.isWritable_of_mem_parts (hv hw) (by simp [Value.parts])
  · exact readRange h (fun hw => Value.isWritable_of_mem_parts (hv hw) (by simp [Value.parts]))
      fun hw => Value.isWritable_of_mem_parts (hv hw) (by simp [Value.parts])
  · exact fail (h.raised_pattern fun hw => by simp [PatternError.wording, hw])

/-! ## Patterns and branches, from their parts -/

theorem readNode {name label owner : Value} {props : Draft (List (Name × Expr))}
    (h : Admits P owner) (hname : owner.isWritable = true → name.isWritable = true)
    (hlabel : owner.isWritable = true → label.isWritable = true) (hprops : Blames P props) :
    Blames P (readNode name label props owner) := by
  refine bind (readName h hname .nodeName) fun n _ => ?_
  exact bind (readName h hlabel .label) fun l _ => bind hprops fun ps _ => pure _

theorem readRel {name type hops owner : Value} {props : Draft (List (Name × Expr))}
    (h : Admits P owner) (hname : owner.isWritable = true → name.isWritable = true)
    (htype : owner.isWritable = true → type.isWritable = true)
    (hhops : owner.isWritable = true → hops.isWritable = true) (hprops : Blames P props) :
    Blames P (readRel name type hops props owner) := by
  refine bind (readName h hname .relName) fun n _ => bind (readName h htype .relType) fun t _ => ?_
  exact bind (readHops h hhops) fun hp _ => bind hprops fun ps _ => pure _

theorem namedNode {v : Value} (h : Admits P v) : Blames P (namedNode v) := by
  have howner : (Value.nodeRef v .null .null).isWritable = v.isWritable := Bool.and_true _
  exact readNode (h.of_imp howner.trans) (fun hw => howner.symm.trans hw) (fun _ => rfl) (done [])

theorem typedRel {v : Value} (h : Admits P v) : Blames P (typedRel v) := by
  have howner : (Value.relRef .null v .null .null).isWritable = v.isWritable := Bool.and_true _
  exact readRel (h.of_imp howner.trans) (fun _ => rfl) (fun hw => howner.symm.trans hw)
    (fun _ => rfl) (done [])

end Draft.Blames

/-- Whether it is taken for a node or for a relationship, an element of a chain blames the property. -/
structure Station.Blames (P : Error → Prop) (s : Station) : Prop where
  source : Admits P s.source
  node : ∀ d, s.node? = some d → d.Blames P
  rel : ∀ d, s.rel? = some d → d.Blames P

theorem Station.blames_plain {P : Error → Prop} {v : Value} (h : Admits P v) :
    (Station.plain v).Blames P := by
  unfold Station.plain
  split_ifs
  · refine ⟨h, ?_, ?_⟩
    · rintro d ⟨⟩
      exact .namedNode h
    · rintro d ⟨⟩
      exact .typedRel h
  · refine ⟨h, ?_, ?_⟩
    · rintro d ⟨⟩
    · rintro d ⟨⟩

/-- What reading takes for granted of the steps of a chain: that they are texts. -/
structure Error.CoversStep (P : Error → Prop) (s : Value) : Prop extends Admits P s where
  text : s.isText = true ∨ ∀ m, P (.misuse m)

/-- Whatever a value is read as, the reading blames the property. -/
structure Value.Blames (P : Error → Prop) (v : Value) : Prop where
  expr : (Expr.ofValue v).Blames P
  props : (v.isOptionalMap = true ∨ ∀ m, P (.misuse m)) → (readProps v).Blames P
  station : (readStation v).Blames P
  paths : (pathsOf v).Blames P

namespace Draft.Blames

variable {P : Error → Prop}

theorem node {s : Station} (h : s.Blames P) (chain : Value) (i : Nat) :
    Blames P (s.node chain i) := by
  unfold Station.node
  cases hs : s.node? with
  | none => exact fail (h.source.raised_pattern fun hw => by simp [PatternError.wording, hw])
  | some d => exact h.node d hs

theorem isWritable_directionName {v : Value} (h : v.isWritable = true) :
    (PatternError.directionName v).isWritable = true := by
  unfold PatternError.directionName
  split
  · rfl
  · exact h

theorem link {s : Station} {before after : Value} (h : s.Blames P)
    (hbefore : Error.CoversStep P before) (hafter : Error.CoversStep P after) (chain : Value)
    (i : Nat) : Blames P (s.link chain i before after) := by
  unfold Station.link
  split
  · exact fail (h.source.raised_pattern fun hw => by simp [PatternError.wording, hw])
  · rename_i d hd
    split
    · rename_i hnone
      obtain hb | hP := hbefore.text
      · obtain ha | hP := hafter.text
        · obtain ⟨b, hb⟩ := Value.equal?_of_isText hb ha
          rw [hb] at hnone
          cases hnone
        · exact fail (Error.raised_misuse hP _)
      · exact fail (Error.raised_misuse hP _)
    · refine fail (Error.raised_of (h.source.pattern _) ?_)
      obtain hb | hP := hbefore.shows
      · refine hafter.shows.imp_left fun ha => ?_
        simp [Error.isWritable, Error.wording?, PatternError.wording, isWritable_directionName hb,
          isWritable_directionName ha]
      · exact .inr hP
    · refine bind (h.rel d hd) fun r _ => bind (ofOption fun _ => ?_) fun o _ => pure _
      exact hbefore.raised_pattern fun hw => by simp [PatternError.wording, hw]

/-! ## Collections -/

theorem entries {whole : Value} {es : List (Value × Value)}
    (h : ∀ e ∈ es, Admits P e.1 ∧ e.2.Blames P) : Blames P (readEntries whole es) := by
  induction es with
  | nil => exact done []
  | cons e es ih =>
    rw [List.forall_mem_cons] at h
    refine bind (ofOption fun _ => h.1.1.raised_expr fun hw => ?_) fun n _ => ?_
    · simp [ExprError.wording, hw]
    · exact bind h.1.2.expr fun e _ => bind (ih h.2) fun rest _ => pure _

theorem links {chain : Value} : ∀ {i : Nat} {vs steps : List Value},
    (∀ v ∈ vs, v.Blames P) → (∀ s ∈ steps, Error.CoversStep P s) →
      Blames P (readLinks chain i (vs.map readStation) steps)
  | i, v :: w :: vs, before :: after :: steps, h, hsteps => by
    rw [List.forall_mem_cons, List.forall_mem_cons] at h hsteps
    refine bind (link h.1.station hsteps.1 hsteps.2.1 chain i) fun l _ => ?_
    refine bind (node h.2.1.station chain (i + 1)) fun n _ => ?_
    exact bind (links h.2.2 hsteps.2.2) fun ls _ => pure _
  | _, [], _, _, _ => done []
  | _, [_], _, _, _ => done []
  | _, _ :: _ :: _, [], _, _ => done []
  | _, _ :: _ :: _, [_], _, _ => done []

theorem chain {whole : Value} {vs steps : List Value} (hwhole : Admits P whole)
    (h : ∀ v ∈ vs, v.Blames P) (hsteps : ∀ s ∈ steps, Error.CoversStep P s) :
    Blames P (readChain whole (vs.map readStation) steps) := by
  cases vs with
  | nil => exact fail (hwhole.raised_pattern fun _ => rfl)
  | cons v vs =>
    rw [List.forall_mem_cons] at h
    refine ite (fun _ => fail (hwhole.raised_pattern fun _ => rfl)) fun _ => ?_
    refine ite (fun _ => fail (hwhole.raised_pattern fun _ => rfl)) fun _ => ?_
    exact bind (node h.1.station whole 0) fun n _ => bind (links h.2 hsteps) fun ls _ => pure _

theorem patterns {whole : Value} (hwhole : Admits P whole) : ∀ {vs : List Value},
    (∀ v ∈ vs, v.Blames P) → Blames P (readPatterns whole vs)
  | [], _ => fail (hwhole.raised_pattern fun _ => rfl)
  | [v], h => (h v (by simp)).paths
  | v :: w :: vs, h => by
    rw [List.forall_mem_cons] at h
    exact bind h.1.paths fun ps _ => bind (patterns hwhole h.2) fun qs _ => pure _

theorem branches {e : Value} {vs : List Value}
    (h : ∀ v ∈ vs, Admits P v ∧ ∀ w ∈ v.walk, w.Blames P) :
    Blames P (readBranches e (vs.map Value.branchReading)) := by
  induction vs with
  | nil => exact done []
  | cons v vs ih =>
    rw [List.forall_mem_cons] at h
    refine ofOption_bind (fun _ => h.1.1.raised_expr fun hw => ?_) fun parts hparts => ?_
    · simp [ExprError.wording, Value.branchReading, hw]
    · obtain ⟨a, b, hab, rfl⟩ := Value.items?_of_readPair? hparts
      have hwalk : v.walk = [a, b] := by
        rw [Value.walk, hab]
        rfl
      rw [hwalk] at h
      refine bind (h.1.2 a (by simp)).expr fun x _ => bind (h.1.2 b (by simp)).expr fun y _ => ?_
      exact bind (ih h.2) fun rest _ => pure _

end Draft.Blames

/-! ## Values -/

namespace Value

variable {P : Error → Prop}

theorem blames_props {v : Value}
    (hes : ∀ es, v = map es → ∀ e ∈ es, Admits P e.1 ∧ e.2.Blames P)
    (h : v.isOptionalMap = true ∨ ∀ m, P (.misuse m)) : (readProps v).Blames P := by
  unfold readProps
  split
  · rename_i es
    exact .entries (hes es rfl)
  · rename_i hmap
    obtain h | hP := h
    · unfold isOptionalMap at h
      split at h
      · exact .pure []
      · exact absurd rfl (hmap _)
      · cases h
    · refine .bind (.ofMisuse (.inr hP)) fun b _ => .ite (fun _ => ?_) fun _ => .pure []
      exact .fail (Error.raised_misuse hP _)

theorem blames_atom {a : Atom} (h : Covers P (atom a)) : (atom a).Blames P where
  expr := by
    rw [Expr.ofValue]
    exact .ofAtom h.toAdmits
  props := blames_props fun es heq => by cases heq
  station := by
    rw [readStation_atom]
    exact Station.blames_plain h.toAdmits
  paths := by
    rw [pathsOf_atom]
    refine .ite (fun _ => .bind (.namedNode h.toAdmits) fun n _ => .pure _) fun _ => ?_
    exact .fail (h.raised_pattern fun hw => by simp [PatternError.wording, hw])

section Parts

variable {v : Value} (h : Covers P v)
  (ih : ∀ w : Value, sizeOf w < sizeOf v → Covers P w → w.Blames P)

include ih

theorem blames_of_mem_walk {w x : Value} (hw : sizeOf w ≤ sizeOf v) (hcovers : Covers P w)
    (hx : x ∈ w.walk) : x.Blames P := by
  rcases sizeOf_lt_of_mem_walk hx with ⟨a, rfl⟩ | hlt
  · exact blames_atom (hcovers.of_mem_walk hx)
  · exact ih x (hlt.trans_le hw) (hcovers.of_mem_walk hx)

include h

theorem blames_entries {es : List (Value × Value)} (heq : v = map es) :
    ∀ e ∈ es, Admits P e.1 ∧ e.2.Blames P := by
  intro e he
  subst heq
  have hkey : e.1 ∈ (map es).parts := List.mem_append_left _ (List.mem_map_of_mem he)
  have hvalue : e.2 ∈ (map es).parts := List.mem_append_right _ (List.mem_map_of_mem he)
  refine ⟨(h.parts hkey).toAdmits, ih e.2 ?_ (h.parts hvalue)⟩
  have hlt := List.sizeOf_lt_of_mem he
  obtain ⟨k, w⟩ := e
  simp at hlt ⊢
  omega

theorem blames_readNode {name label props : Value} (heq : v = nodeRef name label props) :
    (readNode name label (readProps props) v).Blames P := by
  subst heq
  have hprops := ih props (by rw [nodeRef.sizeOf_spec]; omega) (h.parts (by simp [parts]))
  refine .readNode h.toAdmits (fun hw => isWritable_of_mem_parts hw (by simp [parts]))
    (fun hw => isWritable_of_mem_parts hw (by simp [parts])) (hprops.props ?_)
  exact h.fits.imp_left fun hfits => (Bool.and_eq_true_iff.1 hfits).2

theorem blames_readRel {name type hops props : Value} (heq : v = relRef name type hops props) :
    (readRel name type hops (readProps props) v).Blames P := by
  subst heq
  have hprops := ih props (by rw [relRef.sizeOf_spec]; omega) (h.parts (by simp [parts]))
  refine .readRel h.toAdmits (fun hw => isWritable_of_mem_parts hw (by simp [parts]))
    (fun hw => isWritable_of_mem_parts hw (by simp [parts]))
    (fun hw => isWritable_of_mem_parts hw (by simp [parts])) (hprops.props ?_)
  exact h.fits.imp_left fun hfits => (Bool.and_eq_true_iff.1 hfits).2

theorem blames_station : (readStation v).Blames P := by
  cases v with
  | nodeRef name label props =>
    refine ⟨h.toAdmits, ?_, ?_⟩
    · rintro d ⟨⟩
      exact blames_readNode h ih rfl
    · rintro d ⟨⟩
  | relRef name type hops props =>
    refine ⟨h.toAdmits, ?_, ?_⟩
    · rintro d ⟨⟩
    · rintro d ⟨⟩
      exact blames_readRel h ih rfl
  | _ => exact Station.blames_plain h.toAdmits

theorem coversStep {elements steps : Value} (heq : v = chain elements steps) {ss : List Value}
    (hss : steps.items? = some ss) : ∀ s ∈ ss, Error.CoversStep P s := by
  subst heq
  intro s hs
  have hmem : s ∈ steps.walk := by rwa [walk, hss]
  have hsteps := h.parts (w := steps) (by simp [parts])
  refine ⟨(hsteps.of_mem_walk hmem).toAdmits, h.fits.imp_left fun hfits => ?_⟩
  obtain ⟨hsequences, htexts⟩ := Bool.and_eq_true_iff.1 hfits
  rw [items?_of_isSequence (Bool.and_eq_true_iff.1 hsequences).2] at hss
  exact List.all_eq_true.1 htexts s (Option.some.inj hss ▸ hs)

theorem blames_paths : (pathsOf v).Blames P := by
  cases v with
  | atom a => exact (blames_atom h).paths
  | list xs =>
    exact .patterns h.toAdmits fun x hx => blames_of_mem_walk ih (Nat.le_refl _) h hx
  | tuple xs =>
    exact .patterns h.toAdmits fun x hx => blames_of_mem_walk ih (Nat.le_refl _) h hx
  | chain elements steps =>
    have hlt : sizeOf elements ≤ sizeOf (chain elements steps) := by rw [chain.sizeOf_spec]; omega
    have hsequence (w : Value) (hw : w.items? = none)
        (hfits : (chain elements steps).fieldsFit = true → w.isSequence = true) :
        P (Error.misuse (.notIterable w)).raised := by
      obtain ht | hP := h.fits
      · rw [items?_of_isSequence (hfits ht)] at hw
        cases hw
      · exact Error.raised_misuse hP _
    rw [pathsOf, readElements?_eq_map]
    refine .ofOption_bind (fun hnone => ?_) fun es hes =>
      .ofOption_bind (fun hnone => ?_) fun ss hss => ?_
    · refine hsequence elements (Option.map_eq_none_iff.1 hnone) fun ht => ?_
      exact (Bool.and_eq_true_iff.1 (Bool.and_eq_true_iff.1 ht).1).1
    · exact hsequence steps hnone fun ht =>
        (Bool.and_eq_true_iff.1 (Bool.and_eq_true_iff.1 ht).1).2
    · obtain ⟨vs, hvs, rfl⟩ := Option.map_eq_some_iff.1 hes
      refine .bind (.chain h.toAdmits (fun x hx => ?_) (coversStep h ih rfl hss)) fun p _ => .pure _
      refine blames_of_mem_walk ih hlt (h.parts (by simp [parts])) ?_
      rwa [walk, hvs]
  | nodeRef name label props => exact .bind (blames_readNode h ih rfl) fun n _ => .pure _
  | _ => exact .fail (h.raised_pattern fun hw => by simp [PatternError.wording, hw])

theorem blames_call {name args distinct : Value} (heq : v = call name args distinct) :
    (Expr.ofValue v).Blames P := by
  subst heq
  have hlt : sizeOf args ≤ sizeOf (call name args distinct) := by rw [call.sizeOf_spec]; omega
  rw [Expr.ofValue, readItems?_eq_map]
  refine .bind (.ofOption fun _ => h.raised_expr fun hw => ?_) fun f _ => ?_
  · simp [ExprError.wording, isWritable_of_mem_parts hw (w := name) (by simp [parts])]
  refine .ofOption_bind (fun hnone => ?_) fun items hitems => ?_
  · obtain hfits | hP := h.fits
    · have hargs := (Bool.and_eq_true_iff.1 (Bool.and_eq_true_iff.1 hfits).1).2
      rw [items?_of_isSequence hargs] at hnone
      cases hnone
    · exact Error.raised_misuse hP _
  · obtain ⟨vs, hvs, rfl⟩ := Option.map_eq_some_iff.1 hitems
    refine .bind (.all (List.forall_mem_map.2 fun x hx => ?_)) fun es _ => .bind (.ofMisuse ?_)
      fun d _ => .pure _
    · refine (blames_of_mem_walk ih hlt (h.parts (w := args) (by simp [parts])) ?_).expr
      rwa [walk, hvs]
    · exact h.fits.imp_left fun hfits => truth_of_isBool (Bool.and_eq_true_iff.1 hfits).2

theorem blames_case {whens default : Value} (heq : v = case whens default) :
    (Expr.ofValue v).Blames P := by
  subst heq
  have hdefault := ih default (by rw [case.sizeOf_spec]; omega) (h.parts (by simp [parts]))
  have hwhens := h.parts (w := whens) (by simp [parts])
  rw [Expr.ofValue, readBranchItems?_eq_map]
  refine .bind (.ofMisuse (h.fits.imp_left truth_of_isSequence)) fun b _ => .ite (fun _ => ?_)
    fun _ => .fail (h.raised_expr fun hw => by simp [ExprError.wording, hw])
  refine .ofOption_bind (fun hnone => ?_) fun readings hitems => ?_
  · obtain hfits | hP := h.fits
    · rw [items?_of_isSequence hfits] at hnone
      cases hnone
    · exact Error.raised_misuse hP _
  · obtain ⟨vs, hvs, rfl⟩ := Option.map_eq_some_iff.1 hitems
    refine .bind (.branches fun x hx => ?_) fun bs _ => .ite (fun _ => ?_) fun _ => ?_
    · have hmem : x ∈ whens.walk := by rwa [walk, hvs]
      have hx' := hwhens.of_mem_walk hmem
      refine ⟨hx'.toAdmits, fun y hy => ?_⟩
      rcases sizeOf_lt_of_mem_walk hmem with ⟨a, rfl⟩ | hlt
      · obtain ⟨b, rfl⟩ := exists_atom_of_mem_walk hy
        exact blames_atom (hx'.of_mem_walk hy)
      · exact blames_of_mem_walk ih (by rw [case.sizeOf_spec]; omega) hx' hy
    · exact .bind (.pure none) fun d _ => .pure _
    · exact .bind (.map hdefault.expr some) fun d _ => .pure _

theorem blames_expr : (Expr.ofValue v).Blames P := by
  cases v with
  | atom a => exact (blames_atom h).expr
  | list xs =>
    rw [Expr.ofValue, readAll_eq_map]
    refine .bind (.all (List.forall_mem_map.2 fun x hx => ?_)) fun es _ => .pure _
    exact (blames_of_mem_walk ih (Nat.le_refl _) h hx).expr
  | tuple xs =>
    rw [Expr.ofValue, readAll_eq_map]
    refine .bind (.all (List.forall_mem_map.2 fun x hx => ?_)) fun es _ => .pure _
    exact (blames_of_mem_walk ih (Nat.le_refl _) h hx).expr
  | map es =>
    rw [Expr.ofValue]
    exact .bind (.entries (blames_entries h ih rfl)) fun entries _ => .pure _
  | property owner key =>
    rw [Expr.ofValue]
    exact .readProperty h.toAdmits
  | param name value =>
    rw [Expr.ofValue]
    exact .bind (.parameter h.toAdmits) fun p _ => .pure _
  | var name =>
    rw [Expr.ofValue]
    exact .readVar h.toAdmits h.fits
  | literal w =>
    rw [Expr.ofValue]
    exact .bind (ih w (by simp) (h.parts (by simp [parts]))).expr fun e _ => .pure _
  | binary op left right =>
    have hleft := ih left (by rw [binary.sizeOf_spec]; omega) (h.parts (by simp [parts]))
    have hright := ih right (by rw [binary.sizeOf_spec]; omega) (h.parts (by simp [parts]))
    rw [Expr.ofValue]
    refine .bind (.readBinaryOp h.toAdmits ?_ h.fits) fun o _ => ?_
    · exact fun hw => isWritable_of_mem_parts hw (by simp [parts])
    · exact .bind hleft.expr fun l _ => .bind hright.expr fun r _ => .pure _
  | unary op operand =>
    have hoperand := ih operand (by rw [unary.sizeOf_spec]; omega) (h.parts (by simp [parts]))
    rw [Expr.ofValue]
    refine .bind (.readUnaryOp h.toAdmits ?_ h.fits) fun o _ => ?_
    · exact fun hw => isWritable_of_mem_parts hw (by simp [parts])
    · exact .bind hoperand.expr fun e _ => .pure _
  | call name args distinct => exact blames_call h ih rfl
  | case whens default => exact blames_case h ih rfl
  | existence pattern =>
    rw [Expr.ofValue]
    exact .bind (ih pattern (by simp) (h.parts (by simp [parts]))).paths fun ps _ => .pure _
  | _ =>
    rw [Expr.ofValue]
    · exact .fail (h.raised_expr fun hw => by simp [ExprError.wording, hw])
    all_goals (intros; contradiction)

end Parts

/-- Whatever a value is read as, its reading blames a property that covers it. -/
theorem blames {v : Value} (h : Covers P v) : v.Blames P := by
  induction hn : sizeOf v using Nat.strong_induction_on generalizing v with
  | _ n ih =>
    have ih' : ∀ w : Value, sizeOf w < sizeOf v → Covers P w → w.Blames P :=
      fun w hw hcovers => ih _ (hn ▸ hw) hcovers rfl
    exact ⟨blames_expr h ih', blames_props fun es hes => blames_entries h ih' hes,
      blames_station h ih', blames_paths h ih'⟩

end Value

end CypherCompose
