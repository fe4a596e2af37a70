import CypherCompose.Clause.Reading
import Mathlib.Data.List.Basic
import Mathlib.Tactic.SplitIfs

/-!
# Sort keys

A sort key is given as an expression, as an expression with a marker behind it, or as an order item
(`KeyForm`).  The three forms hold the proofs that tell them apart, so that a list of values is made of
keys in at most one way (`KeyForm.flatMap_items_inj`).

`KeyForm.exists_keys` splits any list into keys and what stands where no further key can be read, and
`readSortKeys_keys` says that reading the list follows this split: the keys are read one by one, and the
rest after them.  Where every order item has a known direction, the rest is empty or starts with a stray
marker (`KeyForm.keys_or_stray`), and lists of keys have no stray marker (`KeyForm.not_hasStrayMarker`).
-/

namespace CypherCompose

/-! ## Markers -/

namespace Value

/-- The keyword that a value asks for where it marks a sort order, in any letter case. -/
def sortWord? (v : Value) : Option String :=
  v.text?.bind fun s =>
    if lowercase s ∈ ["asc", "ascending"] then some "ASC"
    else if lowercase s ∈ ["desc", "descending"] then some "DESC"
    else none

/-- Values that mark a sort order. -/
def isMarker (v : Value) : Bool :=
  v.sortWord?.isSome

/-- Expressions that come with a marker of their own. -/
def isOrderItem : Value → Bool
  | orderItem .. => true
  | _ => false

theorem sortWord?_eq (v : Value) : v.sortWord? = (SortOrder.ofValue? v).map SortOrder.keyword := by
  rw [sortWord?, SortOrder.ofValue?, Option.map_bind]
  congr 1
  funext s
  simp only [Function.comp_apply, List.mem_cons, List.not_mem_nil, or_false]
  split_ifs with hasc hdesc
  · rcases hasc with h | h <;> rw [h] <;> rfl
  · rcases hdesc with h | h <;> rw [h] <;> rfl
  · rw [not_or] at hasc hdesc
    simp [SortOrder.spellings, List.lookup_cons, beq_false_of_ne hasc.1, beq_false_of_ne hasc.2,
      beq_false_of_ne hdesc.1, beq_false_of_ne hdesc.2]

theorem isMarker_eq (v : Value) : v.isMarker = (SortOrder.ofValue? v).isSome := by
  rw [isMarker, sortWord?_eq, Option.isSome_map]

theorem exists_of_isOrderItem {v : Value} (h : v.isOrderItem = true) : ∃ e d, v = orderItem e d := by
  unfold isOrderItem at h
  split at h
  · exact ⟨_, _, rfl⟩
  · cases h

/-- Values that a list of sort keys takes for expressions. -/
def isOperand (v : Value) : Bool :=
  !v.isMarker && !v.isOrderItem

theorem isOperand_iff {v : Value} :
    v.isOperand = true ↔ v.isMarker = false ∧ v.isOrderItem = false := by
  simp [isOperand]

@[simp] theorem isOperand_orderItem (e d : Value) : (orderItem e d).isOperand = false := rfl

end Value

/-! ## Keys -/

/-- A sort key as it is given. -/
inductive KeyForm where
  | bare (expr : Value) (h : expr.isOperand = true)
  | marked (expr marker : Value) (h : expr.isOperand = true) (hm : marker.isMarker = true)
  | item (expr marker : Value) (hm : marker.isMarker = true)

namespace KeyForm

/-- The items that a key takes in a list. -/
def items : KeyForm → List Value
  | bare e _ => [e]
  | marked e m _ _ => [e, m]
  | item e m _ => [.orderItem e m]

/-- The expression to sort by. -/
def expr : KeyForm → Value
  | bare e _ | marked e _ _ _ | item e _ _ => e

/-- The marker of a key that has one. -/
def marker? : KeyForm → Option Value
  | bare .. => none
  | marked _ m _ _ | item _ m _ => some m

/-- The order that a key asks for. -/
def order? (k : KeyForm) : Option SortOrder :=
  k.marker?.bind SortOrder.ofValue?

/-- The reading of a key. -/
def read (k : KeyForm) : Draft SortKey := do
  let e ← readOperand k.expr
  pure ⟨e, k.order?⟩

theorem head?_items (k : KeyForm) : ∃ v vs, k.items = v :: vs ∧ v.isMarker = false := by
  cases k with
  | bare e h => exact ⟨e, [], rfl, (Value.isOperand_iff.1 h).1⟩
  | marked e m h hm => exact ⟨e, [m], rfl, (Value.isOperand_iff.1 h).1⟩
  | item e m hm => exact ⟨_, [], rfl, rfl⟩

end KeyForm

section Reading

variable {c : Value} {i : Nat} {rest : List Value}

theorem readSortKeys_operand {e : Value} (h : e.isOperand = true) :
    readSortKeys c i (e :: rest) = (do
      let x ← readOperand e
      match rest with
      | [] => pure [⟨x, none⟩]
      | next :: rest' =>
          match SortOrder.ofValue? next with
          | some o => do
              let keys ← readSortKeys c (i + 2) rest'
              pure (⟨x, some o⟩ :: keys)
          | none => do
              let keys ← readSortKeys c (i + 1) (next :: rest')
              pure (⟨x, none⟩ :: keys)) := by
  rw [Value.isOperand_iff] at h
  have hmarker : ¬ (SortOrder.ofValue? e).isSome = true := by
    rw [← Value.isMarker_eq, h.1]
    decide
  have hitem : ∀ e' d, e = .orderItem e' d → False := by
    rintro e' d rfl
    cases h.2
  exact (readSortKeys.eq_3 c i e rest hitem).trans (if_neg hmarker)

theorem readSortKeys_marker {m : Value} (h : m.isMarker = true) :
    readSortKeys c i (m :: rest) = .fail (.clause (.strayMarker m i c)) := by
  rw [Value.isMarker_eq] at h
  cases m with
  | orderItem e d => cases h
  | _ =>
    rw [readSortKeys, if_pos h]
    nofun

theorem readSortKeys_direction {d : Value} (e : Value) (h : d.isMarker = false) :
    readSortKeys c i (.orderItem e d :: rest) =
      .fail (.clause (.badSortDirection d (.orderItem e d) c)) := by
  rw [Value.isMarker_eq, Option.isSome_eq_false_iff, Option.isNone_iff_eq_none] at h
  rw [readSortKeys, if_neg (by simp [SortOrder.ofValue?, Value.text?]), h]
  rfl

/-- A key is read by itself, unless it is an expression and its marker comes next. -/
theorem readSortKeys_append (k : KeyForm)
    (h : k.marker? = none → ∀ m ∈ rest.head?, m.isMarker = false) :
    readSortKeys c i (k.items ++ rest) = (do
      let key ← k.read
      let keys ← readSortKeys c (i + k.items.length) rest
      pure (key :: keys)) := by
  simp only [KeyForm.read, bind_assoc, pure_bind]
  cases k with
  | bare e he =>
    show readSortKeys c i (e :: rest) = _
    rw [readSortKeys_operand he]
    cases rest with
    | nil => rfl
    | cons next rest =>
      have hnext := h rfl next rfl
      rw [Value.isMarker_eq, Option.isSome_eq_false_iff, Option.isNone_iff_eq_none] at hnext
      simp only [hnext]
      rfl
  | marked e m he hm =>
    rw [Value.isMarker_eq] at hm
    obtain ⟨o, ho⟩ := Option.isSome_iff_exists.1 hm
    show readSortKeys c i (e :: m :: rest) = _
    rw [readSortKeys_operand he]
    simp only [KeyForm.expr, KeyForm.order?, KeyForm.marker?, Option.bind_some, ho]
    rfl
  | item e m hm =>
    rw [Value.isMarker_eq] at hm
    obtain ⟨o, ho⟩ := Option.isSome_iff_exists.1 hm
    show readSortKeys c i (.orderItem e m :: rest) = _
    rw [readSortKeys, if_neg (by simp [SortOrder.ofValue?, Value.text?]), ho]
    simp only [KeyForm.expr, KeyForm.order?, KeyForm.marker?, Option.bind_some, ho]
    rfl

theorem KeyForm.not_isMarker_of_mem_head? {ks : List KeyForm} {m : Value} (hne : ks ≠ [])
    (rest : List Value) (hm : m ∈ (ks.flatMap items ++ rest).head?) : m.isMarker = false := by
  obtain ⟨k, ks, rfl⟩ := List.exists_cons_of_ne_nil hne
  obtain ⟨v, vs, hitems, hv⟩ := k.head?_items
  rw [List.flatMap_cons, hitems] at hm
  obtain rfl : v = m := by simpa using hm
  exact hv

theorem readSortKeys_keys (ks : List KeyForm)
    (h : ∀ k ∈ ks.getLast?, k.marker? = none → ∀ m ∈ rest.head?, m.isMarker = false) :
    readSortKeys c i (ks.flatMap KeyForm.items ++ rest) = (do
      let keys ← Draft.all (ks.map KeyForm.read)
      let more ← readSortKeys c (i + (ks.flatMap KeyForm.items).length) rest
      pure (keys ++ more)) := by
  induction ks generalizing i with
  | nil =>
    show readSortKeys c i rest = readSortKeys c i rest >>= pure
    rw [bind_pure]
  | cons k ks ih =>
    have hlast : ∀ k ∈ ks.getLast?, k.marker? = none → ∀ m ∈ rest.head?, m.isMarker = false := by
      intro k' hk'
      refine h k' ?_
      cases ks with
      | nil => cases hk'
      | cons k₁ ks => simpa using hk'
    have hnext : k.marker? = none →
        ∀ m ∈ (ks.flatMap KeyForm.items ++ rest).head?, m.isMarker = false := by
      intro hk m hm
      by_cases hks : ks = []
      · subst hks
        exact h k (by simp) hk m hm
      · exact KeyForm.not_isMarker_of_mem_head? hks rest hm
    rw [List.flatMap_cons, List.append_assoc, readSortKeys_append k hnext, ih hlast]
    simp only [List.map_cons, Draft.all, bind_assoc, pure_bind, List.length_append, Nat.add_assoc,
      List.cons_append]

end Reading

/-! ## Lists of keys -/

namespace KeyForm

variable {k : KeyForm} {ks ks' : List KeyForm} {vs rest : List Value}

/-- What may follow keys when no other key can be read: nothing, a marker that no expression stands
before, or an order item whose direction is unknown. -/
inductive Ends (ks : List KeyForm) : List Value → Prop where
  | nil : Ends ks []
  | stray {m : Value} (rest : List Value) (hm : m.isMarker = true)
      (hlast : ∀ k ∈ ks.getLast?, k.marker?.isSome = true) : Ends ks (m :: rest)
  | direction (e : Value) {d : Value} (rest : List Value) (hd : d.isMarker = false) :
      Ends ks (.orderItem e d :: rest)

theorem Ends.cons (h : Ends ks rest)
    (hk : k.marker? = none → ∀ m ∈ (ks.flatMap items ++ rest).head?, m.isMarker = false) :
    Ends (k :: ks) rest := by
  cases h with
  | nil => exact .nil
  | direction e rest hd => exact .direction e rest hd
  | stray rest hm hlast =>
    refine .stray rest hm fun k' hk' => ?_
    cases ks with
    | nil =>
      obtain rfl : k = k' := by simpa using hk'
      cases hmarker : k.marker? with
      | some m => rfl
      | none =>
        have hnot := hk hmarker _ rfl
        rw [hm] at hnot
        cases hnot
    | cons k₁ ks => exact hlast k' (by simpa using hk')

theorem Ends.not_isMarker (h : Ends ks rest) :
    ∀ k ∈ ks.getLast?, k.marker? = none → ∀ m ∈ rest.head?, m.isMarker = false := by
  intro k hk hnone m hm
  cases h with
  | nil => cases hm
  | direction e rest hd =>
    cases hm
    rfl
  | stray rest hmarker hlast =>
    have hsome := hlast k hk
    rw [hnone] at hsome
    cases hsome

/-- The first key of a list, if one can be read. -/
theorem exists_key (v : Value) (vs : List Value) :
    v.isMarker = true ∨ (∃ e d, v = .orderItem e d ∧ d.isMarker = false) ∨
      ∃ k rest, v :: vs = items k ++ rest ∧ rest.length ≤ vs.length ∧
        (k.marker? = none → ∀ m ∈ rest.head?, m.isMarker = false) := by
  by_cases hmarker : v.isMarker = true
  · exact .inl hmarker
  right
  by_cases hitem : v.isOrderItem = true
  · obtain ⟨e, d, rfl⟩ := Value.exists_of_isOrderItem hitem
    by_cases hd : d.isMarker = true
    · exact .inr ⟨.item e d hd, vs, rfl, Nat.le_refl _, nofun⟩
    · exact .inl ⟨e, d, rfl, by simpa using hd⟩
  · right
    have hv : v.isOperand = true := by simp [Value.isOperand, hmarker, hitem]
    cases vs with
    | nil => exact ⟨.bare v hv, [], rfl, Nat.le_refl _, nofun⟩
    | cons w ws =>
      by_cases hw : w.isMarker = true
      · exact ⟨.marked v w hv hw, ws, rfl, by simp, nofun⟩
      · exact ⟨.bare v hv, w :: ws, rfl, Nat.le_refl _, fun _ => by simpa using hw⟩

/-- Every list is made of keys, up to where no key can be read. -/
theorem exists_keys (vs : List Value) : ∃ ks rest, vs = ks.flatMap items ++ rest ∧ Ends ks rest := by
  induction hn : vs.length using Nat.strongRecOn generalizing vs with
  | _ n ih =>
    cases vs with
    | nil => exact ⟨[], [], rfl, .nil⟩
    | cons v vs =>
      obtain hv | ⟨e, d, rfl, hd⟩ | ⟨k, rest, heq, hlen, hk⟩ := exists_key v vs
      · exact ⟨[], v :: vs, rfl, .stray vs hv (by simp)⟩
      · exact ⟨[], _, rfl, .direction e vs hd⟩
      · obtain ⟨ks, rest, rfl, hends⟩ := ih rest.length (by simp at hn; omega) rest rfl
        exact ⟨k :: ks, rest, by rw [heq, List.flatMap_cons, List.append_assoc], hends.cons hk⟩

/-- The first key of a list is told by the items: an expression is marked if a marker is next. -/
theorem items_append_inj {k k' : KeyForm} {r r' : List Value} (h : k.items ++ r = k'.items ++ r')
    (hr : ∀ m ∈ r.head?, m.isMarker = false) (hr' : ∀ m ∈ r'.head?, m.isMarker = false) :
    k = k' ∧ r = r' := by
  cases k with
  | bare e he =>
    cases k' with
    | bare e' he' => simpa [items] using h
    | marked e' m' he' hm' =>
      obtain ⟨-, rfl⟩ := List.cons.inj h
      simp [hm'] at hr
    | item e' m' hm' =>
      obtain ⟨rfl, -⟩ := List.cons.inj h
      simp at he
  | marked e m he hm =>
    cases k' with
    | bare e' he' =>
      obtain ⟨-, rfl⟩ := List.cons.inj h
      simp [hm] at hr'
    | marked e' m' he' hm' => simpa [items, and_assoc] using h
    | item e' m' hm' =>
      obtain ⟨rfl, -⟩ := List.cons.inj h
      simp at he
  | item e m hm =>
    cases k' with
    | bare e' he' =>
      obtain ⟨rfl, -⟩ := List.cons.inj h
      simp at he'
    | marked e' m' he' hm' =>
      obtain ⟨rfl, -⟩ := List.cons.inj h
      simp at he'
    | item e' m' hm' => simpa [items, and_assoc] using h

theorem flatMap_items_eq_nil : ks.flatMap items = [] ↔ ks = [] := by
  constructor
  · intro h
    cases ks with
    | nil => rfl
    | cons k ks =>
      obtain ⟨v, vs, hitems, -⟩ := k.head?_items
      rw [List.flatMap_cons, hitems] at h
      cases h
  · rintro rfl
    rfl

theorem flatMap_items_inj (h : ks.flatMap items = ks'.flatMap items) : ks = ks' := by
  have hhead (ks : List KeyForm) : ∀ m ∈ (ks.flatMap items).head?, m.isMarker = false := by
    intro m hm
    cases ks with
    | nil => cases hm
    | cons k ks => exact not_isMarker_of_mem_head? (List.cons_ne_nil k ks) [] (by simpa using hm)
  induction ks generalizing ks' with
  | nil => exact (flatMap_items_eq_nil.1 h.symm).symm
  | cons k ks ih =>
    cases ks' with
    | nil => exact flatMap_items_eq_nil.1 h
    | cons k' ks' =>
      obtain ⟨rfl, hrest⟩ := items_append_inj h (hhead ks) (hhead ks')
      rw [ih hrest]

end KeyForm

/-! ## Stray markers -/

/-- A marker that no expression stands before: it is the first item, or it comes directly after another
marker or an order item. -/
def HasStrayMarker (vs : List Value) : Prop :=
  ∃ before m after, vs = before ++ m :: after ∧ m.isMarker = true ∧
    ∀ p ∈ before.getLast?, p.isMarker = true ∨ p.isOrderItem = true

theorem HasStrayMarker.of_append {as bs : List Value} (h : HasStrayMarker (as ++ bs)) :
    HasStrayMarker as ∨ HasStrayMarker bs := by
  obtain ⟨before, m, after, heq, hm, hlast⟩ := h
  obtain ⟨cs, rfl, hafter⟩ | ⟨cs, rfl, hafter⟩ := List.append_eq_append_iff.1 heq
  · refine .inr ⟨cs, m, after, hafter, hm, fun p hp => hlast p ?_⟩
    rw [Option.mem_def] at hp
    rw [List.getLast?_append, hp, Option.some_or]
    rfl
  · cases cs with
    | nil => exact .inr ⟨[], m, after, hafter.symm, hm, nofun⟩
    | cons c cs =>
      obtain ⟨rfl, -⟩ := List.cons.inj hafter
      exact .inl ⟨before, m, cs, rfl, hm, hlast⟩

namespace KeyForm

variable {ks : List KeyForm} {vs rest : List Value}

theorem not_hasStrayMarker_items (k : KeyForm) : ¬ HasStrayMarker k.items := by
  rintro ⟨before, m, after, h, hm, hlast⟩
  obtain ⟨v, vs, hitems, hv⟩ := k.head?_items
  cases before with
  | nil =>
    rw [hitems] at h
    obtain ⟨rfl, -⟩ := List.cons.inj h
    rw [hm] at hv
    cases hv
  | cons b before =>
    cases k with
    | bare e he => simp [items] at h
    | item e m' hm' => simp [items] at h
    | marked e m' he hm' =>
      -- The marker is the second of two items, and the first is an expression.
      obtain ⟨rfl, rfl⟩ : e = b ∧ before = [] := by
        cases before with
        | nil => exact ⟨(List.cons.inj h).1, rfl⟩
        | cons b' before => simp [items] at h
      rw [Value.isOperand_iff] at he
      simpa [he.1, he.2] using hlast e rfl

/-- No marker is stray among keys. -/
theorem not_hasStrayMarker (ks : List KeyForm) : ¬ HasStrayMarker (ks.flatMap items) := by
  induction ks with
  | nil =>
    rintro ⟨before, m, after, h, -⟩
    simp at h
  | cons k ks ih =>
    intro h
    obtain hk | hks := HasStrayMarker.of_append h
    · exact k.not_hasStrayMarker_items hk
    · exact ih hks

theorem not_isOperand_of_mem_getLast? (h : ∀ k ∈ ks.getLast?, k.marker?.isSome = true) :
    ∀ p ∈ (ks.flatMap items).getLast?, p.isMarker = true ∨ p.isOrderItem = true := by
  intro p hp
  obtain rfl | ⟨ks, k, rfl⟩ := ks.eq_nil_or_concat'
  · cases hp
  · have hk := h k (by simp)
    rw [List.flatMap_append, List.flatMap_singleton] at hp
    cases k with
    | bare e he => cases hk
    | marked e m he hm =>
      obtain rfl : m = p := by simpa [items] using hp
      exact .inl hm
    | item e m hm =>
      obtain rfl : Value.orderItem e m = p := by simpa [items] using hp
      exact .inr rfl

/-- A list whose order items have known directions is made of keys, or of keys and a stray marker with
whatever follows it. -/
theorem keys_or_stray (h : ∀ e d, .orderItem e d ∈ vs → d.isMarker = true) :
    (∃ ks : List KeyForm, vs = ks.flatMap items) ∨
      ∃ (ks : List KeyForm) (m : Value) (rest : List Value), vs = ks.flatMap items ++ m :: rest ∧
        m.isMarker = true ∧ (∀ k ∈ ks.getLast?, k.marker?.isSome = true) ∧ HasStrayMarker vs := by
  obtain ⟨ks, rest, rfl, hends⟩ := exists_keys vs
  cases hends with
  | nil => exact .inl ⟨ks, List.append_nil _⟩
  | stray rest hm hlast =>
    exact .inr ⟨ks, _, rest, rfl, hm, hlast, _, _, rest, rfl, hm, not_isOperand_of_mem_getLast? hlast⟩
  | direction e rest hd =>
    have hmarker := h e _ (List.mem_append_right _ List.mem_cons_self)
    rw [hd] at hmarker
    cases hmarker

end KeyForm

end CypherCompose
