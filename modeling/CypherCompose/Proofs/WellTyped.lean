import CypherCompose.Proofs.Trace
import CypherCompose.Proofs.Writing

/-!
# Well-typed values

A form takes any value in any field.  Most fields are checked when the form is read, and what does not
fit is an error about the query; a few are taken for granted.  `WellTyped v` says that those few hold
what their types declare, in `v` and in everything inside it.

What can be written and what is well typed are closed under taking a value apart: into the values in
its fields (`Value.parts`) and into what walking through it visits (`Value.walk`).
-/

namespace CypherCompose

namespace Value

/-- Lists and tuples. -/
def isSequence : Value → Bool
  | list _ | tuple _ => true
  | _ => false

/-- The two truth values themselves. -/
def isBool : Value → Bool
  | bool _ => true
  | _ => false

/-- A text, or nothing. -/
def isOptionalText (v : Value) : Bool :=
  v.isNull || v.isText

/-- A map, or nothing. -/
def isOptionalMap : Value → Bool
  | null | map _ => true
  | _ => false

/-- Whether the fields of a clause hold what reading takes for granted. -/
def clauseFits : ClauseForm Value → Bool
  | .returning _ distinct | .passing _ distinct => distinct.isBool
  | .createIndex _ _ _ ifNotExists => ifNotExists.isBool
  | .createConstraint _ _ _ _ ifNotExists => ifNotExists.isBool
  | .unknown kind => kind.isText
  | _ => true

/-- Whether the fields of a form hold what reading takes for granted: operators and names are texts,
optional names are texts or nothing, properties are maps or nothing, and arguments, branches, elements
and steps are sequences. -/
def fieldsFit : Value → Bool
  | var name => name.isText
  | property owner key => owner.isText && key.isText
  | param name _ => name.isText
  | binary op _ _ => op.isText
  | unary op _ => op.isText
  | call name args distinct => name.isText && args.isSequence && distinct.isBool
  | case whens _ => whens.isSequence
  | nodeRef name label props =>
      name.isOptionalText && label.isOptionalText && props.isOptionalMap
  | relRef name type _ props => name.isOptionalText && type.isOptionalText && props.isOptionalMap
  | chain elements steps => elements.isSequence && steps.isSequence && steps.asList.all isText
  | clause c => clauseFits c
  | _ => true

/-- The values in the fields of a clause. -/
def clauseParts : ClauseForm Value → List Value
  | .matching _ patterns => [patterns]
  | .filter conditions => [conditions]
  | .returning items distinct => [items, distinct]
  | .passing items distinct => [items, distinct]
  | .unwind source name => [source, name]
  | .create patterns => [patterns]
  | .merge pattern => [pattern]
  | .set assignments => [assignments]
  | .onMerge _ assignments => [assignments]
  | .remove items => [items]
  | .delete _ items => [items]
  | .orderBy items => [items]
  | .skip value => [value]
  | .limit value => [value]
  | .union _ => []
  | .subquery body => [body]
  | .loadCsv _ source name terminator => [source, name, terminator]
  | .forEach source binding body => [source, binding, body]
  | .createIndex label properties name ifNotExists => [label, properties, name, ifNotExists]
  | .dropIndex name => [name]
  | .createConstraint label properties constraint name ifNotExists =>
      [label, properties, constraint, name, ifNotExists]
  | .dropConstraint name => [name]
  | .unknown kind => [kind]

/-- The values that a value is made of.  What a parameter carries is data and no part of a query, and
so are forms that no query is built from. -/
def parts : Value → List Value
  | list xs => xs
  | tuple xs => xs
  | map es => es.map (·.1) ++ es.map (·.2)
  | builder _ cs => cs
  | nodeRef name label props => [name, label, props]
  | relRef name type hops props => [name, type, hops, props]
  | chain elements steps => [elements, steps]
  | property owner key => [owner, key]
  | param name _ => [name]
  | literal value => [value]
  | var name => [name]
  | binary op left right => [op, left, right]
  | unary op operand => [op, operand]
  | call name args distinct => [name, args, distinct]
  | case whens default => [whens, default]
  | existence pattern => [pattern]
  | aliased expr name => [expr, name]
  | orderItem expr direction => [expr, direction]
  | assign target value => [target, value]
  | clause c => clauseParts c
  | comprehension projection binding label filter => [projection, binding, label, filter]
  | _ => []

end Value

/-- A value whose forms, at any depth, hold in their fields what reading takes for granted. -/
inductive WellTyped : Value → Prop where
  | intro {v : Value} (fits : v.fieldsFit = true) (parts : ∀ w ∈ v.parts, WellTyped w) : WellTyped v

namespace WellTyped

variable {v w : Value}

theorem fits (h : WellTyped v) : v.fieldsFit = true := by
  cases h
  assumption

theorem parts (h : WellTyped v) : ∀ w ∈ v.parts, WellTyped w := by
  cases h
  assumption

theorem atom (a : Atom) : WellTyped (.atom a) :=
  .intro rfl fun _ h => by cases h

theorem of_mem_walk (h : WellTyped v) (hw : w ∈ v.walk) : WellTyped w := by
  cases v with
  | atom a =>
    obtain ⟨b, rfl⟩ := Value.exists_atom_of_mem_walk hw
    exact .atom b
  | list xs => exact h.parts w hw
  | tuple xs => exact h.parts w hw
  | builder cell cs => exact h.parts w hw
  | map es => exact h.parts w (List.mem_append_left _ hw)
  | _ => cases hw

end WellTyped

/-- Texts can be compared. -/
theorem Value.equal?_of_isText {v w : Value} (hv : v.isText = true) (hw : w.isText = true) :
    ∃ b, v.equal? w = some b := by
  cases v with
  | atom a =>
    cases w with
    | atom b =>
      cases a <;> cases hv <;> cases b <;> cases hw <;>
        simp [equal?, outline, Outline.equal?, Atom.equal?, Atom.number?, Atom.text?]
    | _ => cases hw
  | _ => cases hv

namespace Value

variable {v w : Value}

theorem items?_of_isSequence (h : v.isSequence = true) : v.items? = some v.asList := by
  unfold isSequence at h
  split at h
  · rfl
  · rfl
  · cases h

theorem truth_of_isSequence (h : v.isSequence = true) : ∃ b, v.truth = .ok b := by
  unfold isSequence at h
  split at h
  · exact ⟨_, rfl⟩
  · exact ⟨_, rfl⟩
  · cases h

theorem truth_of_isBool (h : v.isBool = true) : ∃ b, v.truth = .ok b := by
  unfold isBool at h
  split at h
  · exact ⟨_, rfl⟩
  · cases h

theorem truth_of_isOptionalText (h : v.isOptionalText = true) :
    ∃ b, v.truth = .ok b ∧ (b = true → ∃ n, Name.ofValue? v = some n) := by
  cases v with
  | atom a =>
    cases a with
    | null => exact ⟨false, rfl, fun h => by cases h⟩
    | text s =>
      refine ⟨s != "", rfl, fun hs => ?_⟩
      have hne : s ≠ "" := by simpa using hs
      exact ⟨⟨.plain s, hne⟩, dif_pos hne⟩
    | direction d => exact ⟨true, rfl, fun _ => by cases d <;> exact ⟨_, rfl⟩⟩
    | mode m => exact ⟨true, rfl, fun _ => by cases m <;> exact ⟨_, rfl⟩⟩
    | _ => cases h
  | _ => cases h

/-! ## Parts that can be written -/

theorem isWritable_list (vs : List Value) : (list vs).isWritable = vs.all isWritable := by
  induction vs with
  | nil => rfl
  | cons v vs ih =>
    rw [List.all_cons, ← ih]
    rfl

theorem isWritable_tuple (vs : List Value) : (tuple vs).isWritable = (list vs).isWritable := rfl

theorem isWritable_builder (cell : Nat) (vs : List Value) :
    (builder cell vs).isWritable = (list vs).isWritable := rfl

theorem isWritable_map (es : List (Value × Value)) :
    (map es).isWritable = es.all fun e => e.1.isWritable && e.2.isWritable := by
  induction es with
  | nil => rfl
  | cons e es ih =>
    rw [List.all_cons, ← ih]
    rfl

theorem isWritable_clause (c : ClauseForm Value) :
    (clause c).isWritable = (clauseParts c).all isWritable := by
  cases c <;> rfl

theorem isWritable_param (name value : Value) :
    (param name value).isWritable = (name.isWritable && value.isWritable) := by
  rw [← Bool.and_true value.isWritable]
  rfl

/-- What is inside a value that can be written can be written. -/
theorem isWritable_of_mem_parts (h : v.isWritable = true) (hw : w ∈ v.parts) :
    w.isWritable = true := by
  have hforall : v.parts.all isWritable = true := by
    cases v with
    | list xs => rwa [isWritable_list] at h
    | tuple xs => rwa [isWritable_tuple, isWritable_list] at h
    | builder cell xs => rwa [isWritable_builder, isWritable_list] at h
    | clause c => rwa [isWritable_clause] at h
    | map es =>
      simp only [isWritable_map, List.all_eq_true, Bool.and_eq_true] at h
      simp only [parts, List.all_append, List.all_map, Bool.and_eq_true, List.all_eq_true]
      exact ⟨fun e he => (h e he).1, fun e he => (h e he).2⟩
    | param name value =>
      rw [isWritable_param, Bool.and_eq_true] at h
      simpa [parts] using h.1
    | atom a => rfl
    | unknownExpr tag => rfl
    | statement cypher parameters mode => rfl
    | propertyDef name type required default => rfl
    | nodeSchema label properties => rfl
    | relSchema type properties => rfl
    | settings uri username password database => rfl
    | _ => exact h
  exact List.all_eq_true.1 hforall w hw

theorem isWritable_byte (b : UInt8) : (int b.toNat).isWritable = true := by
  rw [isWritable_int, Numeral.isWritable_iff, Int.natAbs_natCast]
  have hle : 10 ^ 3 ≤ 10 ^ Numeral.maxDigits := Nat.pow_le_pow_right (by decide) (by decide)
  have hlt : b.toNat < 256 := b.toNat_lt
  omega

/-- What walking through a value visits can be written if the value can. -/
theorem isWritable_of_mem_walk (h : v.isWritable = true) (hw : w ∈ v.walk) : w.isWritable = true := by
  cases v with
  | atom a =>
    rw [walk, items?] at hw
    unfold atomItems? at hw
    split at hw
    · obtain ⟨b, -, rfl⟩ := List.mem_map.1 hw
      exact isWritable_byte b
    · cases ht : Atom.text? _ with
      | none =>
        rw [ht] at hw
        cases hw
      | some s =>
        rw [ht] at hw
        obtain ⟨c, -, rfl⟩ := List.mem_map.1 hw
        rfl
  | list xs => exact isWritable_of_mem_parts h hw
  | tuple xs => exact isWritable_of_mem_parts h hw
  | builder cell xs => exact isWritable_of_mem_parts h hw
  | map es => exact isWritable_of_mem_parts h (List.mem_append_left _ hw)
  | _ => cases hw

end Value

end CypherCompose
