import CypherCompose.Proofs.Recording
import CypherCompose.Proofs.Writing

/-!
# Which requests a table grants

A request with a value is granted if its name has no value yet or one that is the same.  Since a table
holds the first value that came with a name, what is granted depends on the requests entered before and
on nothing else (`Records.register_of_agrees`, `Records.register_of_conflicts`).

`Joins` compares two tables: one in which some requests were entered before, and one that starts with
what follows.  A request that the second table grants is refused by the first only for a value that
conflicts with one entered before (`Joins.enterAll`).
-/

namespace CypherCompose

namespace Request

/-- A request that brings no other value than the first that came with its name. -/
def Agrees (qs : List Request) (q : Request) : Prop :=
  ∀ name v w, firstValue? qs name = some v → q.valueFor? name = some w → v.same w = true

/-- A request that brings another value than the first, `v`, that came with its name. -/
def Conflicts (qs : List Request) (v : Value) (q : Request) : Prop :=
  ∃ name, firstValue? qs name = some v ∧ q.valueFor? name = some q.value ∧ v.same q.value = false

/-- How the second of two values under one name is refused, if messages can show both. -/
def conflict (v : Value) (q : Request) : Error :=
  if v.isWritable && q.value.isWritable then .expr (.twoValues q.name v q.value)
  else .misuse .unwritable

theorem firstValue?_append (ps qs : List Request) (name : String) :
    firstValue? (ps ++ qs) name = (firstValue? ps name).or (firstValue? qs name) := by
  rw [firstValue?, List.findSome?_append]
  rfl

theorem agrees_append_iff (ps : List Request) {qs : List Request} {q : Request} (h : Agrees qs q) :
    Agrees (ps ++ qs) q ↔ Agrees ps q := by
  constructor
  · intro hq name v w hv hw
    refine hq name v w ?_ hw
    rw [firstValue?_append, hv, Option.some_or]
  · intro hq name v w hv hw
    rw [firstValue?_append, Option.or_eq_some_iff] at hv
    rcases hv with hv | ⟨-, hv⟩
    · exact hq name v w hv hw
    · exact h name v w hv hw

theorem valueFor?_eq_some {q : Request} {name : String} {w : Value} :
    q.valueFor? name = some w ↔
      q.text? = some name ∧ Registry.isUnset q.value = false ∧ q.value = w := by
  unfold valueFor?
  split_ifs with h
  · simp [h]
  · rw [not_and] at h
    simp only [false_iff, not_and]
    intro hname hset
    exact absurd hset (h hname)

theorem exists_conflicts {qs : List Request} {q : Request} (h : ¬ Agrees qs q) :
    ∃ v, Conflicts qs v q := by
  simp only [Agrees, not_forall] at h
  obtain ⟨name, v, w, hv, hw, hother⟩ := h
  obtain ⟨-, -, rfl⟩ := valueFor?_eq_some.1 hw
  exact ⟨v, name, hv, hw, by simpa using hother⟩

theorem Conflicts.not_agrees {qs : List Request} {v : Value} {q : Request} (h : Conflicts qs v q) :
    ¬ Agrees qs q := by
  obtain ⟨name, hv, hw, hother⟩ := h
  intro ha
  rw [ha name v q.value hv hw] at hother
  cases hother

theorem Conflicts.append_right {ps : List Request} {v : Value} {q : Request} (h : Conflicts ps v q)
    (qs : List Request) : Conflicts (ps ++ qs) v q := by
  obtain ⟨name, hv, hrest⟩ := h
  exact ⟨name, by rw [firstValue?_append, hv, Option.some_or], hrest⟩

theorem raised_twoValues {q : Request} {n : ParamName} (hn : ParamName.ofValue? q.name = some n)
    (v : Value) : (Error.expr (.twoValues q.name v q.value)).raised = q.conflict v := by
  have hname : q.name.isWritable = true :=
    Value.isWritable_of_isText (by simp [Value.isText, ParamName.text?_of_ofValue? hn])
  simp [Error.raised, Error.isWritable, Error.wording?, ExprError.wording, hname, conflict]

end Request

namespace Registry

variable {r r' : Registry} {ps qs : List Request} {q : Request} {n : ParamName}

/-! ## One request -/

theorem Records.firstValue?_of_find? (h : Records r qs) {name : String} {v : Value}
    (hv : r.find? name = some v) (hheld : isUnset v = false) :
    Request.firstValue? qs name = some v := by
  obtain ⟨w, hw⟩ := h.exists_firstValue? hv hheld
  rw [h.eq_getD hv, hw, Option.getD_some]

theorem Records.find?_of_firstValue? (h : Records r qs) {name : String} {v : Value}
    (hv : Request.firstValue? qs name = some v) : r.find? name = some v := by
  have hmem : name ∈ qs.filterMap Request.text? := by
    by_contra hnew
    rw [Request.firstValue?_eq_none hnew] at hv
    cases hv
  obtain ⟨w, hw⟩ := h.text_mem_iff.1 hmem
  rw [hw, h.eq_getD hw, hv, Option.getD_some]

theorem Records.register_of_agrees (h : Records r qs) (hopen : r.closed = false)
    (hn : ParamName.ofValue? q.name = some n) (ha : q.Agrees qs) :
    ∃ r', r.register q = .ok r' := by
  unfold Registry.register
  rw [if_neg (by simp [hopen])]
  simp only [hn]
  cases hv : r.find? n.text with
  | none => exact ⟨_, rfl⟩
  | some v =>
    by_cases hgiven : isUnset q.value = true
    · exact ⟨r, by simp [hgiven]⟩
    by_cases hheld : isUnset v = true
    · exact ⟨_, by simp only [hgiven, hheld, if_true]; rfl⟩
    have hsame : v.same q.value = true :=
      ha n.text v q.value (h.firstValue?_of_find? hv (by simpa using hheld))
        (Request.valueFor?_eq_some.2 ⟨ParamName.text?_of_ofValue? hn, by simpa using hgiven, rfl⟩)
    exact ⟨r, by simp [hgiven, hheld, hsame]⟩

theorem Records.register_of_conflicts (h : Records r qs) (hopen : r.closed = false)
    (hn : ParamName.ofValue? q.name = some n) {v : Value} (hq : q.Conflicts qs v) :
    r.register q = .error (q.conflict v) := by
  obtain ⟨name, hv, hw, hother⟩ := hq
  obtain ⟨htext, hgiven, -⟩ := Request.valueFor?_eq_some.1 hw
  obtain rfl : n.text = name := Option.some.inj ((ParamName.text?_of_ofValue? hn).symm.trans htext)
  have hheld : isUnset v = false := Request.isUnset_firstValue? hv
  simp [Registry.register, hopen, hn, h.find?_of_firstValue? hv, hgiven, hheld, hother,
    Request.raised_twoValues hn]

theorem Records.agrees_of_register (h : Records r qs) (hr : r.register q = .ok r') :
    q.Agrees qs := by
  obtain ⟨n, hopen, hn, -⟩ := register_eq_ok hr
  by_contra ha
  obtain ⟨v, hv⟩ := Request.exists_conflicts ha
  rw [h.register_of_conflicts hopen hn hv] at hr
  cases hr

theorem closed_register (hr : r.register q = .ok r') : r'.closed = false := by
  obtain ⟨n, hopen, -, ⟨-, rfl⟩ | ⟨v, -, ⟨-, rfl⟩ | ⟨-, -, rfl⟩⟩⟩ := register_eq_ok hr <;> exact hopen

/-- A name is added at the end unless it is there. -/
theorem names_register (hn : ParamName.ofValue? q.name = some n) (hr : r.register q = .ok r') :
    r'.names = if n.text ∈ r.names.map ParamName.text then r.names else r.names ++ [n] := by
  obtain ⟨n', -, hn', hcases⟩ := register_eq_ok hr
  obtain rfl : n = n' := Option.some.inj (hn.symm.trans hn')
  obtain ⟨hnone, rfl⟩ | ⟨v, hv, hcases⟩ := hcases
  · rw [if_neg (find?_eq_none.1 hnone)]
    simp [names]
  · have hmem : n.text ∈ r.names.map ParamName.text := by
      by_contra hnew
      rw [find?_eq_none.2 hnew] at hv
      cases hv
    rw [if_pos hmem]
    obtain ⟨-, rfl⟩ | ⟨-, -, rfl⟩ := hcases
    · rfl
    · exact names_withValue n.text q.value r.entries

/-! ## Requests after others -/

theorem enterAll_append (r : Registry) (ps qs : List Request) :
    r.enterAll (ps ++ qs) =
      match r.enterAll ps with
      | (r', none) => r'.enterAll qs
      | (r', some e) => (r', some e) := by
  induction ps generalizing r with
  | nil => rfl
  | cons p ps ih =>
    rw [List.cons_append, enterAll, enterAll]
    cases r.register p with
    | error e => rfl
    | ok r₁ => exact ih r₁

/-- A reading that goes on from another is granted its requests after the other's. -/
theorem run_bind {α β : Type} (r : Registry) (d : Draft α) (f : α → Draft β) :
    r.run (d >>= f) =
      match r.run d with
      | (.ok a, r') => r'.run (f a)
      | (.error e, r') => (.error e, r') := by
  rcases d with ⟨ps, e | a⟩
  · rw [Draft.bind_eq, Draft.andThen_error, run, run]
    rcases r.enterAll ps with ⟨r', _ | e'⟩ <;> rfl
  · rw [Draft.bind_eq, Draft.andThen_ok, run, run, enterAll_append]
    rcases r.enterAll ps with ⟨r', _ | e'⟩ <;> rfl

theorem enterAll_cons_eq (h : r.enterAll (q :: qs) = (r', none)) :
    ∃ r₁, r.register q = .ok r₁ ∧ r₁.enterAll qs = (r', none) := by
  rw [enterAll] at h
  cases hq : r.register q with
  | error e =>
    rw [hq] at h
    cases h
  | ok r₁ =>
    rw [hq] at h
    exact ⟨r₁, rfl, h⟩

theorem closed_enterAll (hopen : r.closed = false) (hr : r.enterAll qs = (r', none)) :
    r'.closed = false := by
  induction qs generalizing r with
  | nil =>
    cases hr
    exact hopen
  | cons q qs ih =>
    obtain ⟨r₁, hq, hrest⟩ := enterAll_cons_eq hr
    exact ih (closed_register hq) hrest

/-- The names of a list that another list does not have. -/
def newNames (old ns : List ParamName) : List ParamName :=
  ns.filter fun n => n.text ∉ old.map ParamName.text

theorem newNames_concat (old ns : List ParamName) (n : ParamName) :
    newNames old (ns ++ [n]) =
      newNames old ns ++ if n.text ∈ old.map ParamName.text then [] else [n] := by
  rw [newNames, List.filter_append, List.filter_singleton]
  by_cases hold : n.text ∈ old.map ParamName.text
  · simp [hold, newNames]
  · simp [hold, newNames]

theorem mem_append_newNames (old ns : List ParamName) (name : String) :
    name ∈ (old ++ newNames old ns).map ParamName.text ↔
      name ∈ old.map ParamName.text ∨ name ∈ ns.map ParamName.text := by
  rw [List.map_append, List.mem_append]
  by_cases hold : name ∈ old.map ParamName.text
  · simp only [hold, true_or]
  · simp only [hold, false_or, newNames, List.mem_map, List.mem_filter, decide_eq_true_eq]
    constructor
    · rintro ⟨n, ⟨hn, -⟩, rfl⟩
      exact ⟨n, hn, rfl⟩
    · rintro ⟨n, hn, rfl⟩
      exact ⟨n, ⟨hn, by simpa using hold⟩, rfl⟩

/-- A table that the requests `ps` and `qs` were entered in, beside one for `qs` alone; `old` are the
names that `ps` left. -/
structure Joins (old : List ParamName) (ps qs : List Request) (r r' : Registry) : Prop where
  records : Records r (ps ++ qs)
  records_alone : Records r' qs
  isOpen : r.closed = false
  names : r.names = old ++ newNames old r'.names

namespace Joins

variable {old : List ParamName} {r₁ r₁' : Registry}

theorem start (h : Records r ps) (hopen : r.closed = false) : Joins r.names ps [] r .empty :=
  ⟨by rwa [List.append_nil], .empty, hopen, by simp [newNames, Registry.names, Registry.empty]⟩

theorem register (h : Joins old ps qs r r') (hr : r.register q = .ok r₁)
    (hr' : r'.register q = .ok r₁') : Joins old ps (qs ++ [q]) r₁ r₁' := by
  obtain ⟨n, -, hn, -⟩ := register_eq_ok hr
  refine ⟨?_, h.records_alone.register hr', closed_register hr, ?_⟩
  · rw [← List.append_assoc]
    exact h.records.register hr
  · rw [names_register hn hr, names_register hn hr', h.names]
    simp only [mem_append_newNames]
    by_cases hold : n.text ∈ old.map ParamName.text
    · by_cases halone : n.text ∈ r'.names.map ParamName.text
      · rw [if_pos (.inl hold), if_pos halone]
      · rw [if_pos (.inl hold), if_neg halone, newNames_concat, if_pos hold, List.append_nil]
    · by_cases halone : n.text ∈ r'.names.map ParamName.text
      · rw [if_pos (.inr halone), if_pos halone]
      · rw [if_neg (not_or.2 ⟨hold, halone⟩), if_neg halone, newNames_concat, if_neg hold,
          List.append_assoc]

/-- What is granted alone is granted after `ps` too, if it agrees with `ps`, and else refused for a
conflict. -/
theorem enterAll {us : List Request} (h : Joins old ps qs r r')
    (hr' : r'.enterAll us = (r₁', none)) :
    ((∀ q ∈ us, q.Agrees ps) → ∃ r₁, r.enterAll us = (r₁, none) ∧ Joins old ps (qs ++ us) r₁ r₁') ∧
      (¬ (∀ q ∈ us, q.Agrees ps) →
        ∃ r₁, ∃ q ∈ us, ∃ v, q.Conflicts ps v ∧ r.enterAll us = (r₁, some (q.conflict v))) := by
  induction us generalizing qs r r' with
  | nil =>
    cases hr'
    exact ⟨fun _ => ⟨r, rfl, by rwa [List.append_nil]⟩, fun hother => absurd (by simp) hother⟩
  | cons u us ih =>
    obtain ⟨r₂', hu', hrest⟩ := enterAll_cons_eq hr'
    obtain ⟨n, -, hn, -⟩ := register_eq_ok hu'
    have hiff := Request.agrees_append_iff ps (h.records_alone.agrees_of_register hu')
    rw [Registry.enterAll, List.forall_mem_cons]
    by_cases ha : u.Agrees ps
    · obtain ⟨r₂, hu⟩ := h.records.register_of_agrees h.isOpen hn (hiff.2 ha)
      obtain ⟨hgranted, hrefused⟩ := ih (h.register hu hu') hrest
      rw [hu, List.append_cons]
      refine ⟨fun hall => hgranted hall.2, fun hother => ?_⟩
      obtain ⟨r₁, q, hq, hconflict⟩ := hrefused fun hall => hother ⟨ha, hall⟩
      exact ⟨r₁, q, List.mem_cons_of_mem u hq, hconflict⟩
    · obtain ⟨v, hv⟩ := Request.exists_conflicts ha
      rw [h.records.register_of_conflicts h.isOpen hn (hv.append_right qs)]
      exact ⟨fun hall => absurd hall.1 ha, fun _ => ⟨r, u, List.mem_cons_self, v, hv, rfl⟩⟩

end Joins

/-! ## Settling a joined table -/

variable {bound : Value}

/-- A word is the same as a value that reads as its characters, and as no other. -/
theorem same_toValue (w : Word) (v : Value) : w.toValue.same v = (v.text? == some w.text) := by
  cases v with
  | atom a =>
    cases w <;> cases a <;>
      simp [Word.toValue, Word.text, Value.same, Value.same?, Value.outline, Outline.same?,
        Outline.identical, Outline.equal?, Atom.identical, Atom.equal?, Atom.number?, Atom.text?,
        Value.text?]
    all_goals exact eq_comm
  | _ =>
    cases w <;> simp [Word.toValue, Value.same, Value.same?, Value.outline, Outline.same?,
      Outline.identical, Outline.equal?, Value.text?]

theorem callerValue?_congr {m n : ParamName} (h : m.text = n.text) :
    callerValue? bound m = callerValue? bound n := by
  have hwords : m.word.text = n.word.text := h
  unfold callerValue?
  split
  · simp only [Value.lookup, ParamName.toValue, same_toValue, hwords]
  · rfl

theorem truth_of_callerValue? {v : Value} (h : callerValue? bound n = some v) :
    bound.truth = .ok true ∧ boundValue? bound n = .ok (some v) := by
  unfold callerValue? at h
  split at h
  · rename_i es
    refine ⟨?_, by rw [boundValue?, h]⟩
    cases es with
    | nil => cases h
    | cons e es => rfl
  · cases h

theorem resolve_of_forall {es : List (ParamName × Value)}
    (h : ∀ e ∈ es, ∃ v, source bound e = .ok (some v)) :
    ∃ settled, resolve bound es = .ok settled ∧ settled.filter (·.2.isNone) = [] := by
  induction es with
  | nil => exact ⟨[], rfl, rfl⟩
  | cons e es ih =>
    rw [List.forall_mem_cons] at h
    obtain ⟨v, hv⟩ := h.1
    obtain ⟨settled, hsettled, hfull⟩ := ih h.2
    refine ⟨(e.1, some v) :: settled, ?_, by simpa using hfull⟩
    rw [resolve_cons, hv, hsettled]
    rfl

/-- A table can be settled if the caller has a value for each name without one. -/
theorem finalize_of_forall {given : Bool} (hgiven : bound.truth = .ok given)
    (h : ∀ e ∈ r.entries, isUnset e.2 = true → ∃ v, callerValue? bound e.1 = some v) :
    ∃ table, (r.finalize bound).1 = .ok table := by
  have hsource : ∀ e ∈ r.entries,
      ∃ v, source (if given then bound else .map []) e = .ok (some v) := by
    intro e he
    by_cases hunset : isUnset e.2 = true
    · obtain ⟨v, hv⟩ := h e he hunset
      obtain ⟨htruth, hbound⟩ := truth_of_callerValue? hv
      obtain rfl : given = true := Except.ok.inj (hgiven.symm.trans htruth)
      exact ⟨v, by rw [source, if_pos hunset, if_pos rfl, hbound]⟩
    · exact ⟨e.2, by rw [source, if_neg hunset]⟩
  obtain ⟨settled, hsettled, hfull⟩ := resolve_of_forall hsource
  refine ⟨settled.filterMap fun e => e.2.map fun v => (e.1, v), ?_⟩
  simp only [Registry.finalize, hgiven, hsettled, hfull]

theorem truth_of_finalize {table : List (ParamName × Value)}
    (h : (r.finalize bound).1 = .ok table) : ∃ given, bound.truth = .ok given := by
  cases hgiven : bound.truth with
  | error m => simp [Registry.finalize, hgiven] at h
  | ok given => exact ⟨given, rfl⟩

/-- The caller has a value for each name of a settled table that came without one. -/
theorem Records.exists_callerValue? {table : List (ParamName × Value)} (h : Records r qs)
    (ht : (r.finalize bound).1 = .ok table) (hn : n.text ∈ qs.filterMap Request.text?)
    (hnone : Request.firstValue? qs n.text = none) : ∃ v, callerValue? bound n = some v := by
  obtain ⟨hnames, hvalues⟩ := h.finalize ht
  rw [← List.mem_eraseDups, ← hnames] at hn
  obtain ⟨p, hp, htext⟩ := List.mem_map.1 hn
  have hvalue := hvalues p hp
  rw [htext, hnone, Option.none_or, callerValue?_congr htext] at hvalue
  exact ⟨p.2, hvalue⟩

/-- A joined table can be settled if its two halves can. -/
theorem Joins.finalize {old : List ParamName} {r₀ : Registry}
    {table table' : List (ParamName × Value)} (h : Joins old ps qs r r') (h₀ : Records r₀ ps)
    (ht : (r₀.finalize bound).1 = .ok table) (ht' : (r'.finalize bound).1 = .ok table') :
    ∃ t, (r.finalize bound).1 = .ok t := by
  obtain ⟨given, hgiven⟩ := truth_of_finalize ht
  refine finalize_of_forall hgiven fun e he hunset => ?_
  have hnone : Request.firstValue? (ps ++ qs) e.1.text = none := by
    cases hv : Request.firstValue? (ps ++ qs) e.1.text with
    | none => rfl
    | some v =>
      rw [h.records.values e he, hv, Option.getD_some, Request.isUnset_firstValue? hv] at hunset
      cases hunset
  rw [Request.firstValue?_append, Option.or_eq_none_iff] at hnone
  have hmem : e.1.text ∈ (ps ++ qs).filterMap Request.text? := by
    rw [← List.mem_eraseDups, ← h.records.names]
    exact List.mem_map_of_mem (List.mem_map_of_mem he)
  rw [List.filterMap_append, List.mem_append] at hmem
  rcases hmem with hmem | hmem
  · exact h₀.exists_callerValue? ht hmem hnone.1
  · exact h.records_alone.exists_callerValue? ht' hmem hnone.2

end Registry

end CypherCompose
