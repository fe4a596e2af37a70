import CypherCompose.Proofs.Drafts
import Mathlib.Data.List.Basic

/-!
# What a table of parameters records

`Records r qs` says that a table holds what some requests asked for: their names in the order of
first mention, each with the first value that came with it.  Entering one more request keeps it
(`Records.register`), so a table to which a whole statement was read records all its requests
(`Records.enterAll`).

Settling the table takes the caller's value for a name exactly where no request brought one
(`Records.finalize`).
-/

namespace CypherCompose

theorem Registry.isUnset_iff {v : Value} : isUnset v = true ↔ v = .unset := by
  unfold isUnset
  split
  · simp
  · rename_i hne
    simpa using hne

theorem eraseDups_concat_of_mem {names : List String} {name : String} (h : name ∈ names) :
    (names ++ [name]).eraseDups = names.eraseDups := by
  have hremove : [name].removeAll names = [] := List.filter_eq_nil_iff.2 (by simpa using h)
  rw [List.eraseDups_append, hremove, List.eraseDups_nil, List.append_nil]

theorem eraseDups_concat_of_not_mem {names : List String} {name : String} (h : name ∉ names) :
    (names ++ [name]).eraseDups = names.eraseDups ++ [name] := by
  have hremove : [name].removeAll names = [name] := List.filter_eq_self.2 (by simpa using h)
  rw [List.eraseDups_append, hremove]
  rfl

/-! ## The values that come with requests -/

namespace Request

/-- The characters of the name that is asked for. -/
def text? (q : Request) : Option String :=
  q.name.text?

/-- The value that comes with a request for a name. -/
def valueFor? (name : String) (q : Request) : Option Value :=
  if q.text? = some name ∧ Registry.isUnset q.value = false then some q.value else none

/-- The first value that comes with a name. -/
def firstValue? (qs : List Request) (name : String) : Option Value :=
  qs.findSome? (valueFor? name)

theorem firstValue?_concat (qs : List Request) (q : Request) (name : String) :
    firstValue? (qs ++ [q]) name = (firstValue? qs name).or (q.valueFor? name) := by
  rw [firstValue?, List.findSome?_append, List.findSome?_singleton]
  rfl

theorem firstValue?_concat_of_ne {qs : List Request} {q : Request} {name name' : String}
    (hq : q.text? = some name) (hne : name' ≠ name) :
    firstValue? (qs ++ [q]) name' = firstValue? qs name' := by
  rw [firstValue?_concat, valueFor?, hq, if_neg, Option.or_none]
  rintro ⟨heq, -⟩
  exact hne (Option.some.inj heq).symm

theorem texts_concat {qs : List Request} {q : Request} {name : String} (hq : q.text? = some name) :
    (qs ++ [q]).filterMap text? = qs.filterMap text? ++ [name] := by
  simp [hq]

theorem firstValue?_eq_none {qs : List Request} {name : String} (h : name ∉ qs.filterMap text?) :
    firstValue? qs name = none := by
  refine List.findSome?_eq_none_iff.2 fun q hq => ?_
  rw [valueFor?, if_neg]
  rintro ⟨htext, -⟩
  exact h (List.mem_filterMap.2 ⟨q, hq, htext⟩)

theorem isUnset_firstValue? {qs : List Request} {name : String} {v : Value}
    (h : firstValue? qs name = some v) : Registry.isUnset v = false := by
  obtain ⟨q, -, hq⟩ := List.exists_of_findSome?_eq_some h
  unfold valueFor? at hq
  split_ifs at hq with hgiven
  obtain rfl := Option.some.inj hq
  exact hgiven.2

theorem getD_valueFor? {q : Request} {name : String} (h : q.text? = some name) :
    (q.valueFor? name).getD .unset = q.value := by
  unfold valueFor?
  split_ifs with hgiven
  · rfl
  · have hunset : Registry.isUnset q.value = true := by simpa [h] using hgiven
    exact (Registry.isUnset_iff.1 hunset).symm

end Request

namespace Registry

variable {r r' : Registry} {q : Request}

theorem find?_eq_none {name : String} :
    r.find? name = none ↔ name ∉ r.names.map ParamName.text := by
  simp [find?, names]

theorem exists_of_find? {name : String} {v : Value} (h : r.find? name = some v) :
    ∃ e ∈ r.entries, e.1.text = name ∧ e.2 = v := by
  obtain ⟨e, he, rfl⟩ := Option.map_eq_some_iff.1 h
  exact ⟨e, List.mem_of_find?_eq_some he, by simpa using List.find?_some he, rfl⟩

theorem names_withValue (name : String) (v : Value) (entries : List (ParamName × Value)) :
    (withValue name v entries).map (·.1) = entries.map (·.1) := by
  rw [withValue, List.map_map]
  refine List.map_congr_left fun e _ => ?_
  simp only [Function.comp_apply]
  split_ifs <;> rfl

/-- A request that is granted is the first for its name, or brings the first value for it, or
changes nothing. -/
theorem register_eq_ok (h : r.register q = .ok r') :
    ∃ n, r.closed = false ∧ ParamName.ofValue? q.name = some n ∧
      (r.find? n.text = none ∧ r' = { r with entries := r.entries ++ [(n, q.value)] } ∨
        ∃ v, r.find? n.text = some v ∧
          ((isUnset q.value = true ∨ isUnset v = false ∧ v.same q.value = true) ∧ r' = r ∨
            isUnset q.value = false ∧ isUnset v = true ∧
              r' = { r with entries := withValue n.text q.value r.entries })) := by
  unfold register at h
  by_cases hclosed : r.closed = true
  · rw [if_pos hclosed] at h
    cases h
  rw [if_neg hclosed] at h
  cases hn : ParamName.ofValue? q.name with
  | none => simp [hn] at h
  | some n =>
    refine ⟨n, by simpa using hclosed, rfl, ?_⟩
    cases hv : r.find? n.text with
    | none =>
      simp only [hn, hv, Except.ok.injEq] at h
      exact .inl ⟨rfl, h.symm⟩
    | some v =>
      simp only [hn, hv] at h
      refine .inr ⟨v, rfl, ?_⟩
      split_ifs at h with hgiven hheld hsame
      · exact .inl ⟨.inl hgiven, (Except.ok.inj h).symm⟩
      · exact .inr ⟨by simpa using hgiven, hheld, (Except.ok.inj h).symm⟩
      · exact .inl ⟨.inr ⟨by simpa using hheld, hsame⟩, (Except.ok.inj h).symm⟩

/-! ## Entering requests -/

/-- A table that holds what the requests asked for. -/
structure Records (r : Registry) (qs : List Request) : Prop where
  names : r.names.map ParamName.text = (qs.filterMap Request.text?).eraseDups
  values : ∀ e ∈ r.entries, e.2 = (Request.firstValue? qs e.1.text).getD .unset

namespace Records

variable {qs : List Request}

theorem empty : Records Registry.empty [] :=
  ⟨rfl, fun _ he => by cases he⟩

theorem text_mem_iff (h : Records r qs) {name : String} :
    name ∈ qs.filterMap Request.text? ↔ ∃ v, r.find? name = some v := by
  rw [← List.mem_eraseDups, ← h.names, ← Option.ne_none_iff_exists', ne_eq, find?_eq_none, not_not]

/-- What the table holds under a name is the first value that came with it. -/
theorem eq_getD (h : Records r qs) {name : String} {v : Value} (hv : r.find? name = some v) :
    v = (Request.firstValue? qs name).getD .unset := by
  obtain ⟨e, he, rfl, rfl⟩ := exists_of_find? hv
  exact h.values e he

theorem exists_firstValue? (h : Records r qs) {name : String} {v : Value}
    (hv : r.find? name = some v) (hheld : isUnset v = false) :
    ∃ w, Request.firstValue? qs name = some w := by
  refine Option.ne_none_iff_exists'.1 fun hnone => ?_
  rw [h.eq_getD hv, hnone] at hheld
  cases hheld

/-- The first request for a name. -/
theorem concat_new (h : Records r qs) {n : ParamName} (hq : q.text? = some n.text)
    (hn : r.find? n.text = none) (hr : r'.entries = r.entries ++ [(n, q.value)]) :
    Records r' (qs ++ [q]) := by
  have hnew : n.text ∉ qs.filterMap Request.text? := by
    rw [h.text_mem_iff, hn]
    rintro ⟨v, hv⟩
    cases hv
  refine ⟨?_, fun e he => ?_⟩
  · have hnames : r'.names = r.names ++ [n] := by simp [Registry.names, hr]
    rw [hnames, List.map_append, h.names, Request.texts_concat hq, eraseDups_concat_of_not_mem hnew]
    rfl
  · rw [hr, List.mem_append, List.mem_singleton] at he
    rcases he with he | rfl
    · have hne : e.1.text ≠ n.text := fun heq =>
        find?_eq_none.1 hn (heq ▸ List.mem_map_of_mem (List.mem_map_of_mem he))
      rw [Request.firstValue?_concat_of_ne hq hne]
      exact h.values e he
    · rw [Request.firstValue?_concat, Request.firstValue?_eq_none hnew, Option.none_or,
        Request.getD_valueFor? hq]

/-- A request that brings no value, or one for a name that has a value. -/
theorem concat_kept (h : Records r qs) {n : ParamName} {v : Value} (hq : q.text? = some n.text)
    (hv : r.find? n.text = some v) (hkeep : isUnset q.value = true ∨ isUnset v = false) :
    Records r (qs ++ [q]) := by
  have hsame : Request.firstValue? (qs ++ [q]) n.text = Request.firstValue? qs n.text := by
    rw [Request.firstValue?_concat]
    rcases hkeep with hunset | hheld
    · simp [Request.valueFor?, hunset]
    · obtain ⟨w, hw⟩ := h.exists_firstValue? hv hheld
      rw [hw, Option.some_or]
  refine ⟨?_, fun e he => ?_⟩
  · rw [Request.texts_concat hq, eraseDups_concat_of_mem (h.text_mem_iff.2 ⟨v, hv⟩), h.names]
  · rw [h.values e he]
    by_cases heq : e.1.text = n.text
    · rw [heq, hsame]
    · rw [Request.firstValue?_concat_of_ne hq heq]

/-- A request that brings the first value for its name. -/
theorem concat_filled (h : Records r qs) {n : ParamName} {v : Value} (hq : q.text? = some n.text)
    (hv : r.find? n.text = some v) (hheld : isUnset v = true)
    (hr : r'.entries = withValue n.text q.value r.entries) : Records r' (qs ++ [q]) := by
  have hfirst : Request.firstValue? qs n.text = none := by
    cases hw : Request.firstValue? qs n.text with
    | none => rfl
    | some w =>
      have hvw := h.eq_getD hv
      rw [hw, Option.getD_some] at hvw
      rw [hvw, Request.isUnset_firstValue? hw] at hheld
      cases hheld
  refine ⟨?_, fun e he => ?_⟩
  · rw [Registry.names, hr, names_withValue, Request.texts_concat hq,
      eraseDups_concat_of_mem (h.text_mem_iff.2 ⟨v, hv⟩)]
    exact h.names
  · rw [hr] at he
    obtain ⟨d, hd, rfl⟩ := List.mem_map.1 he
    split_ifs with heq
    · have hname : d.1.text = n.text := by simpa using heq
      simp only
      rw [hname, Request.firstValue?_concat, hfirst, Option.none_or, Request.getD_valueFor? hq]
    · rw [Request.firstValue?_concat_of_ne hq (by simpa using heq)]
      exact h.values d hd

theorem register (h : Records r qs) (hr : r.register q = .ok r') : Records r' (qs ++ [q]) := by
  obtain ⟨n, -, hn, hcases⟩ := register_eq_ok hr
  have hq : q.text? = some n.text := ParamName.text?_of_ofValue? hn
  obtain ⟨hnone, rfl⟩ | ⟨v, hv, ⟨hkeep, rfl⟩ | ⟨-, hheld, rfl⟩⟩ := hcases
  · exact h.concat_new hq hnone rfl
  · exact h.concat_kept hq hv (hkeep.imp_right And.left)
  · exact h.concat_filled hq hv hheld rfl

theorem enterAll (h : Records r qs) {qs' : List Request} (hr : r.enterAll qs' = (r', none)) :
    Records r' (qs ++ qs') := by
  induction qs' generalizing r qs with
  | nil =>
    cases hr
    rwa [List.append_nil]
  | cons q qs' ih =>
    unfold Registry.enterAll at hr
    cases hq : r.register q with
    | error e =>
      rw [hq] at hr
      cases hr
    | ok r₁ =>
      rw [hq] at hr
      rw [List.append_cons]
      exact ih (h.register hq) hr

end Records

/-! ## Settling the table -/

variable {bound : Value}

/-- The value under a name in the caller's map. -/
def callerValue? (bound : Value) (n : ParamName) : Option Value :=
  match bound with
  | .map es => Value.lookup n.toValue es
  | _ => none

theorem callerValue?_of_boundValue? {n : ParamName} {v : Value}
    (h : boundValue? bound n = .ok (some v)) : callerValue? bound n = some v := by
  unfold boundValue? at h
  split at h
  · exact Except.ok.inj h
  · cases hc : bound.contains n.toValue with
    | error m =>
      rw [hc] at h
      cases h
    | ok b =>
      rw [hc] at h
      cases b <;> cases h

/-- Where the value of an entry comes from. -/
def source (bound : Value) (e : ParamName × Value) : Except Misuse (Option Value) :=
  if isUnset e.2 then boundValue? bound e.1 else .ok (some e.2)

theorem resolve_cons (e : ParamName × Value) (es : List (ParamName × Value)) :
    resolve bound (e :: es) = (do
      let value ← source bound e
      let rest ← resolve bound es
      .ok ((e.1, value) :: rest)) := by
  obtain ⟨n, v⟩ := e
  rw [resolve, source]
  split_ifs <;> rfl

theorem resolve_eq_ok {es : List (ParamName × Value)} {settled : List (ParamName × Option Value)}
    (h : resolve bound es = .ok settled) :
    settled.map (·.1) = es.map (·.1) ∧
      ∀ s ∈ settled, ∃ e ∈ es, e.1 = s.1 ∧ source bound e = .ok s.2 := by
  induction es generalizing settled with
  | nil =>
    cases h
    exact ⟨rfl, fun _ hs => by cases hs⟩
  | cons e es ih =>
    rw [resolve_cons] at h
    cases hvalue : source bound e with
    | error m =>
      rw [hvalue] at h
      cases h
    | ok value =>
      cases hrest : resolve bound es with
      | error m =>
        rw [hvalue, hrest] at h
        cases h
      | ok rest =>
        rw [hvalue, hrest] at h
        obtain rfl : (e.1, value) :: rest = settled := Except.ok.inj h
        obtain ⟨hnames, hvalues⟩ := ih hrest
        refine ⟨by rw [List.map_cons, List.map_cons, hnames], fun s hs => ?_⟩
        rcases List.mem_cons.1 hs with rfl | hs
        · exact ⟨e, List.mem_cons_self, rfl, hvalue⟩
        · obtain ⟨d, hd, hds⟩ := hvalues s hs
          exact ⟨d, List.mem_cons_of_mem e hd, hds⟩

/-- The entries of a table that lacks no value, with their values. -/
theorem map_filterMap_settled {settled : List (ParamName × Option Value)}
    (h : settled.filter (·.2.isNone) = []) :
    (settled.filterMap fun s => s.2.map fun v => (s.1, v)).map (·.1) = settled.map (·.1) := by
  rw [List.map_filterMap, ← List.filterMap_eq_map]
  refine List.filterMap_congr fun s hs => ?_
  have hsome := List.filter_eq_nil_iff.1 h s hs
  obtain ⟨n, _ | v⟩ := s
  · exact absurd rfl hsome
  · rfl

/-- The values of a settled table are those that the table had and the caller's for the others. -/
theorem finalize_eq_ok {table : List (ParamName × Value)} (h : (r.finalize bound).1 = .ok table) :
    table.map (·.1) = r.names ∧ ∀ p ∈ table, ∃ e ∈ r.entries, e.1 = p.1 ∧
      (if isUnset e.2 then callerValue? bound e.1 else some e.2) = some p.2 := by
  unfold finalize at h
  split at h
  · cases h
  rename_i given _
  split at h
  · cases h
  rename_i settled hsettled
  split at h
  case h_2 => cases h
  rename_i hmissing
  obtain rfl := Except.ok.inj h
  obtain ⟨hnames, hvalues⟩ := resolve_eq_ok hsettled
  refine ⟨(map_filterMap_settled hmissing).trans hnames, fun p hp => ?_⟩
  obtain ⟨s, hs, hsp⟩ := List.mem_filterMap.1 hp
  obtain ⟨v, hv, rfl⟩ := Option.map_eq_some_iff.1 hsp
  obtain ⟨e, he, hes, hsource⟩ := hvalues s hs
  refine ⟨e, he, hes, ?_⟩
  rw [hv] at hsource
  unfold source at hsource
  split_ifs at hsource ⊢ with hunset hgiven
  · exact callerValue?_of_boundValue? hsource
  · cases hsource
  · exact Except.ok.inj hsource

/-- A settled table has the names asked for, each with the first value that came with it, or else
the caller's. -/
theorem Records.finalize {qs : List Request} {table : List (ParamName × Value)} (h : Records r qs)
    (ht : (r.finalize bound).1 = .ok table) :
    table.map (·.1.text) = (qs.filterMap Request.text?).eraseDups ∧
      ∀ p ∈ table, (Request.firstValue? qs p.1.text).or (callerValue? bound p.1) = some p.2 := by
  obtain ⟨hnames, hvalues⟩ := finalize_eq_ok ht
  refine ⟨?_, fun p hp => ?_⟩
  · rw [← h.names, ← hnames, List.map_map]
    rfl
  · obtain ⟨e, he, hep, hvalue⟩ := hvalues p hp
    rw [h.values e he, hep] at hvalue
    cases hfirst : Request.firstValue? qs p.1.text with
    | none =>
      rw [hfirst] at hvalue
      exact hvalue
    | some v =>
      rw [hfirst, Option.getD_some, Request.isUnset_firstValue? hfirst] at hvalue
      exact hvalue

end Registry

end CypherCompose
