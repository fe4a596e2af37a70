import CypherCompose.Proofs.TableHistory

/-!
# The order of registrations

A table keeps the first value that comes with a name and compares later ones with that value alone.
Still the order of the requests does not decide what becomes of them, as long as being the same is
an equivalence on the values they bring:

* requests are all granted exactly if their names are plain and any two values that come with one
  name are the same (`enterAll_of_consistent`, `consistent_of_enterAll`), which is a matter of the
  set of requests;
* the names, the names without a value and the missing names of a table depend on that set too
  (`Records.mem_names_iff`, `Records.find?_eq_unset_iff`, `Records.mem_missing_iff`), and two tables
  hold values that came with the same name.
-/

namespace CypherCompose

namespace Request

variable {qs qs' : List Request}

/-- The values that come with requests. -/
def values (qs : List Request) : List Value :=
  (qs.map Request.value).filter fun v => !Registry.isUnset v

/-- Any two values that come with one name are the same. -/
def Consistent (qs : List Request) : Prop :=
  ∀ p ∈ qs, ∀ q ∈ qs, ∀ name v w, p.valueFor? name = some v → q.valueFor? name = some w →
    v.same w = true

theorem mem_values {q : Request} {name : String} {v : Value} (hq : q ∈ qs)
    (hv : q.valueFor? name = some v) : v ∈ values qs := by
  obtain ⟨-, hset, rfl⟩ := valueFor?_eq_some.1 hv
  exact List.mem_filter.2 ⟨List.mem_map_of_mem hq, by rw [hset]; rfl⟩

theorem exists_of_firstValue? {name : String} {v : Value} (h : firstValue? qs name = some v) :
    ∃ q ∈ qs, q.valueFor? name = some v :=
  List.exists_of_findSome?_eq_some h

theorem firstValue?_eq_none_iff {name : String} :
    firstValue? qs name = none ↔ ∀ q ∈ qs, q.valueFor? name = none :=
  List.findSome?_eq_none_iff

theorem Consistent.of_perm (hperm : qs.Perm qs') (h : Consistent qs) : Consistent qs' :=
  fun p hp q hq => h p (hperm.mem_iff.2 hp) q (hperm.mem_iff.2 hq)

/-- A request that agrees with every other one agrees with the first value for its name. -/
theorem Consistent.agrees {q : Request} (h : Consistent qs) (hq : q ∈ qs) {ps : List Request}
    (hps : ∀ p ∈ ps, p ∈ qs) : q.Agrees ps := by
  intro name v w hv hw
  obtain ⟨p, hp, hpv⟩ := exists_of_firstValue? hv
  exact h p (hps p hp) q hq name v w hpv hw

end Request

namespace Registry

open Request

variable {r r' : Registry} {ps qs qs' us : List Request}

/-! ## Requests that are all granted -/

/-- Each request of a consistent set is granted, whatever was entered before it. -/
theorem enterAll_of_consistent (h : Records r ps) (hopen : r.closed = false)
    (hplain : ∀ q ∈ us, (ParamName.ofValue? q.name).isSome = true)
    (hc : Consistent (ps ++ us)) : ∃ r', r.enterAll us = (r', none) := by
  induction us generalizing r ps with
  | nil => exact ⟨r, rfl⟩
  | cons u us ih =>
    rw [List.forall_mem_cons] at hplain
    obtain ⟨n, hn⟩ := Option.isSome_iff_exists.1 hplain.1
    have hagrees : u.Agrees ps :=
      hc.agrees (by simp) fun p hp => List.mem_append_left _ hp
    obtain ⟨r₁, hr₁⟩ := h.register_of_agrees hopen hn hagrees
    rw [List.append_cons] at hc
    rw [Registry.enterAll, hr₁]
    exact ih (h.register hr₁) (closed_register hr₁) hplain.2 hc

theorem isSome_of_enterAll (h : r.enterAll us = (r', none)) :
    ∀ q ∈ us, (ParamName.ofValue? q.name).isSome = true := by
  induction us generalizing r with
  | nil => simp
  | cons u us ih =>
    obtain ⟨r₁, hu, hrest⟩ := enterAll_cons_eq h
    obtain ⟨n, -, hn, -⟩ := register_eq_ok hu
    rw [List.forall_mem_cons]
    exact ⟨by rw [hn]; rfl, ih hrest⟩

/-- What is granted is the same as the first value that came with its name.  That value may be its
own, so this needs values that are the same as themselves. -/
theorem same_firstValue?_of_enterAll (h : Records r ps) (hr : r.enterAll us = (r', none))
    (hrefl : ∀ v ∈ values us, v.same v = true) {q : Request} (hq : q ∈ us) {name : String}
    {w : Value} (hw : q.valueFor? name = some w) :
    ∃ v, firstValue? (ps ++ us) name = some v ∧ v.same w = true := by
  induction us generalizing r ps with
  | nil => cases hq
  | cons u us ih =>
    obtain ⟨r₁, hu, hrest⟩ := enterAll_cons_eq hr
    rcases List.mem_cons.1 hq with rfl | hq'
    · cases hv : firstValue? ps name with
      | some v =>
        refine ⟨v, ?_, h.agrees_of_register hu name v w hv hw⟩
        rw [firstValue?_append, hv, Option.some_or]
      | none =>
        refine ⟨w, ?_, hrefl w (mem_values hq hw)⟩
        rw [firstValue?_append, hv, Option.none_or, firstValue?, List.findSome?_cons, hw]
    · rw [List.append_cons]
      refine ih (h.register hu) hrest (fun v hv => hrefl v ?_) hq'
      obtain ⟨hmem, hset⟩ := List.mem_filter.1 hv
      exact List.mem_filter.2 ⟨List.mem_cons_of_mem _ hmem, hset⟩

/-- Requests that a fresh table grants bring no two different values for a name. -/
theorem consistent_of_enterAll {vs : List Value} (hr : Registry.empty.enterAll qs = (r, none))
    (hvs : ∀ v ∈ values qs, v ∈ vs)
    (hsame : Equivalence fun v w : {v // v ∈ vs} => v.1.same w.1 = true) : Consistent qs := by
  have hmem : ∀ {q : Request} {name : String} {v : Value}, q ∈ qs → q.valueFor? name = some v →
      v ∈ vs := fun hq hv => hvs _ (mem_values hq hv)
  have hfirst : ∀ q ∈ qs, ∀ name w, q.valueFor? name = some w →
      ∃ v, firstValue? qs name = some v ∧ v.same w = true :=
    fun q hq name w hw =>
      same_firstValue?_of_enterAll .empty hr (fun v hv => hsame.refl ⟨v, hvs v hv⟩) hq hw
  intro p hp q hq name v w hv hw
  obtain ⟨a, ha, hav⟩ := hfirst p hp name v hv
  obtain ⟨b, hb, hbw⟩ := hfirst q hq name w hw
  obtain rfl : a = b := Option.some.inj (ha.symm.trans hb)
  -- both are compared with the first value, so one of the comparisons has to be turned round
  obtain ⟨o, ho, hoa⟩ := exists_of_firstValue? ha
  have hva : v.same a = true := hsame.symm (x := ⟨a, hmem ho hoa⟩) (y := ⟨v, hmem hp hv⟩) hav
  exact hsame.trans (x := ⟨v, hmem hp hv⟩) (y := ⟨a, hmem ho hoa⟩) (z := ⟨w, hmem hq hw⟩) hva hbw

/-! ## Tables of one set of requests -/

theorem Records.mem_names_iff (h : Records r qs) {name : String} :
    name ∈ r.names.map ParamName.text ↔ name ∈ qs.filterMap Request.text? := by
  rw [h.names, List.mem_eraseDups]

/-- A name has no value yet if none of the requests for it brought one. -/
theorem Records.find?_eq_unset_iff (h : Records r qs) {name : String} :
    r.find? name = some .unset ↔
      name ∈ qs.filterMap Request.text? ∧ ∀ q ∈ qs, q.valueFor? name = none := by
  rw [h.text_mem_iff, ← firstValue?_eq_none_iff]
  constructor
  · intro hv
    refine ⟨⟨_, hv⟩, ?_⟩
    cases hfirst : firstValue? qs name with
    | none => rfl
    | some w =>
      have hunset : Value.unset = w := by rw [h.eq_getD hv, hfirst, Option.getD_some]
      have hset := isUnset_firstValue? hfirst
      rw [← hunset] at hset
      cases hset
  · rintro ⟨⟨v, hv⟩, hnone⟩
    rw [hv, h.eq_getD hv, hnone, Option.getD_none]

theorem Records.mem_missing_iff (h : Records r qs) {es : List (Value × Value)} {name : String} :
    name ∈ (r.missing es).map ParamName.text ↔
      r.find? name = some .unset ∧ es.any (fun b => b.1.text? == some name) = false := by
  simp only [missing, List.map_map, List.mem_map, List.mem_filter, Bool.and_eq_true,
    Bool.not_eq_true', Function.comp_apply]
  constructor
  · rintro ⟨e, ⟨he, hunset, hkey⟩, rfl⟩
    refine ⟨?_, hkey⟩
    have hmem : e.1.text ∈ r.names.map ParamName.text :=
      List.mem_map_of_mem (List.mem_map_of_mem he)
    obtain ⟨v, hv⟩ := h.text_mem_iff.1 (h.mem_names_iff.1 hmem)
    rw [hv, h.eq_getD hv, ← h.values e he, isUnset_iff.1 hunset]
  · rintro ⟨hv, hkey⟩
    obtain ⟨e, he, rfl, hunset⟩ := exists_of_find? hv
    exact ⟨e, ⟨he, isUnset_iff.2 hunset, hkey⟩, rfl⟩

/-- The values of a name in two tables came with it in requests of the one set. -/
theorem Records.same_of_consistent (h : Records r qs) (h' : Records r' qs') (hc : Consistent qs)
    (hmem : ∀ q ∈ qs', q ∈ qs) {name : String} {v w : Value} (hv : r.find? name = some v)
    (hw : r'.find? name = some w) (hset : isUnset v = false) (hset' : isUnset w = false) :
    v.same w = true := by
  obtain ⟨p, hp, hpv⟩ := exists_of_firstValue? (h.firstValue?_of_find? hv hset)
  obtain ⟨q, hq, hqw⟩ := exists_of_firstValue? (h'.firstValue?_of_find? hw hset')
  exact hc p hp q (hmem q hq) name v w hpv hqw

end Registry

namespace Session

open Registry Request

variable {r r' : Registry} {qs qs' : List Request}

/-! ## Registrations in a session -/

/-- The calls that register some parameters one after the other. -/
def registrations (qs : List Request) : List Step :=
  qs.map fun q => .register q.name q.value

/-- Steps none of which fails. -/
def Succeeds (r : Registry) (ss : List Step) : Prop :=
  ∀ a ∈ run r ss, ∃ answer, a.1 = .ok answer

theorem step_of_register_ok {q : Request} (h : r.register q = .ok r') :
    ∃ answer, step r (.register q.name q.value) = (.ok answer, r') := by
  obtain ⟨n, -, hn, -⟩ := register_eq_ok h
  refine ⟨.text n.token, ?_⟩
  rw [step_register, Registry.run, requests_parameter, Registry.enterAll, h]
  simp only [Registry.enterAll, Draft.parameter, hn]
  rfl

theorem step_of_register_error {q : Request} {e : Error} (h : r.register q = .error e) :
    step r (.register q.name q.value) = (.error e, r) := by
  rw [step_register, Registry.run, requests_parameter, Registry.enterAll, h]
  rfl

/-- Registrations leave the table that the requests do, if all of them are granted. -/
theorem succeeds_of_enterAll (h : r.enterAll qs = (r', none)) :
    Succeeds r (registrations qs) ∧ tableAfter r (registrations qs) = r' := by
  induction qs generalizing r with
  | nil =>
    cases h
    exact ⟨fun _ ha => absurd ha List.not_mem_nil, rfl⟩
  | cons q qs ih =>
    obtain ⟨r₁, hq, hrest⟩ := enterAll_cons_eq h
    obtain ⟨answer, hstep⟩ := step_of_register_ok hq
    obtain ⟨hsucceeds, htable⟩ := ih hrest
    rw [registrations, List.map_cons, tableAfter_cons, Succeeds, run, hstep, List.forall_mem_cons]
    exact ⟨⟨⟨answer, rfl⟩, hsucceeds⟩, htable⟩

theorem enterAll_of_succeeds (h : Succeeds r (registrations qs)) :
    r.enterAll qs = (tableAfter r (registrations qs), none) := by
  induction qs generalizing r with
  | nil => rfl
  | cons q qs ih =>
    rw [registrations, List.map_cons, Succeeds, run, List.forall_mem_cons] at h
    rw [registrations, List.map_cons, tableAfter_cons, Registry.enterAll]
    cases hq : r.register q with
    | error e =>
      obtain ⟨answer, hanswer⟩ := h.1
      rw [step_of_register_error hq] at hanswer
      cases hanswer
    | ok r₁ =>
      obtain ⟨answer, hstep⟩ := step_of_register_ok hq
      rw [hstep] at h ⊢
      exact ih h.2

theorem succeeds_of_perm (hperm : qs.Perm qs') {vs : List Value} (hvs : ∀ v ∈ values qs, v ∈ vs)
    (hsame : Equivalence fun v w : {v // v ∈ vs} => v.1.same w.1 = true)
    (h : Succeeds .empty (registrations qs)) : Succeeds .empty (registrations qs') := by
  have hr := enterAll_of_succeeds h
  have hplain := isSome_of_enterAll hr
  have hc := (consistent_of_enterAll hr hvs hsame).of_perm hperm
  obtain ⟨r', hr'⟩ := enterAll_of_consistent .empty rfl
    (fun q hq => hplain q (hperm.mem_iff.2 hq)) hc
  exact (succeeds_of_enterAll hr').1

/-- Two tables that the caller's values settle both, or neither, with the same names missing. -/
def SettleAlike (r r' : Registry) (bound : Value) : Prop :=
  (∃ t t', (step r (.finalize bound)).1 = .ok t ∧ (step r' (.finalize bound)).1 = .ok t') ∨
    ∃ ns ns' : List ParamName,
      (step r (.finalize bound)).1 = .error (.unbound (ns.map ParamName.toValue)) ∧
      (step r' (.finalize bound)).1 = .error (.unbound (ns'.map ParamName.toValue)) ∧
      ∀ name, name ∈ ns.map ParamName.text ↔ name ∈ ns'.map ParamName.text

theorem settleAlike_of_missing {bound : Value} {es : List (Value × Value)}
    (hbound : bound = .null ∧ es = [] ∨ bound = .map es)
    (h : ∀ name, name ∈ (r.missing es).map ParamName.text ↔
      name ∈ (r'.missing es).map ParamName.text) : SettleAlike r r' bound := by
  have hempty : r.missing es = [] ↔ r'.missing es = [] := by
    rw [← List.map_eq_nil_iff (f := ParamName.text), List.eq_nil_iff_forall_not_mem,
      ← List.map_eq_nil_iff (f := ParamName.text) (l := r'.missing es),
      List.eq_nil_iff_forall_not_mem]
    exact forall_congr' fun name => not_congr (h name)
  unfold SettleAlike
  simp only [step_finalize]
  obtain ⟨hnone, t, ht⟩ | ⟨hsome, hfails⟩ := finalize_eq (r := r) hbound
  · obtain ⟨-, t', ht'⟩ | ⟨hsome', -⟩ := finalize_eq (r := r') hbound
    · exact .inl ⟨_, _, by rw [ht]; rfl, by rw [ht']; rfl⟩
    · exact absurd (hempty.1 hnone) hsome'
  · obtain ⟨hnone', -⟩ | ⟨-, hfails'⟩ := finalize_eq (r := r') hbound
    · exact absurd (hempty.2 hnone') hsome
    · exact .inr ⟨_, _, by rw [hfails]; rfl, by rw [hfails']; rfl, h⟩

/-- Let `qs'` be the requests `qs` in another order, where being the same is an equivalence on the
values that they bring.  Entered in fresh tables, all of them are granted in the one order exactly
if they are in the other.  If so, the two tables have the same names, the same of these are without
a value, and the values of any other are the same; and with no map or a map of values both are
settled, or both fail, with the same names missing. -/
theorem registrations_perm (hperm : qs.Perm qs')
    (hsame : Equivalence fun v w : {v // v ∈ values qs} => v.1.same w.1 = true) :
    (Succeeds .empty (registrations qs) ↔ Succeeds .empty (registrations qs')) ∧
    (Succeeds .empty (registrations qs) →
      let r := tableAfter .empty (registrations qs)
      let r' := tableAfter .empty (registrations qs')
      (∀ name, name ∈ r.names.map ParamName.text ↔ name ∈ r'.names.map ParamName.text) ∧
      (∀ name, r.find? name = some .unset ↔ r'.find? name = some .unset) ∧
      (∀ name v w, r.find? name = some v → r'.find? name = some w → v ≠ .unset →
        v.same w = true) ∧
      ∀ bound es, (bound = .null ∧ es = [] ∨ bound = .map es) →
        SettleAlike r r' bound) := by
  have hvalues : ∀ v ∈ values qs', v ∈ values qs :=
    fun v hv => ((hperm.map Request.value).filter _).mem_iff.2 hv
  refine ⟨⟨succeeds_of_perm hperm (fun v hv => hv) hsame,
    succeeds_of_perm hperm.symm hvalues hsame⟩, ?_⟩
  intro h r r'
  have hr := enterAll_of_succeeds h
  have hr' := enterAll_of_succeeds (succeeds_of_perm hperm (fun v hv => hv) hsame h)
  have hrecords : Records r qs := Records.empty.enterAll hr
  have hrecords' : Records r' qs' := Records.empty.enterAll hr'
  have hc := consistent_of_enterAll hr (fun v hv => hv) hsame
  have hunset : ∀ name, r.find? name = some .unset ↔ r'.find? name = some .unset := by
    intro name
    rw [hrecords.find?_eq_unset_iff, hrecords'.find?_eq_unset_iff,
      (hperm.filterMap Request.text?).mem_iff]
    simp only [hperm.mem_iff]
  refine ⟨?_, hunset, ?_, ?_⟩
  · intro name
    rw [hrecords.mem_names_iff, hrecords'.mem_names_iff, (hperm.filterMap Request.text?).mem_iff]
  · intro name v w hv hw hset
    have hset' : w ≠ .unset := by
      rintro rfl
      exact hset (Option.some.inj (hv.symm.trans ((hunset name).2 hw)))
    exact hrecords.same_of_consistent hrecords' hc (fun q hq => hperm.mem_iff.2 hq) hv hw
      (by simpa using mt isUnset_iff.1 hset) (by simpa using mt isUnset_iff.1 hset')
  · intro bound es hbound
    refine settleAlike_of_missing hbound fun name => ?_
    rw [hrecords.mem_missing_iff, hrecords'.mem_missing_iff, hunset]

/-- Requests for a name without a value, and for one with two spellings of the same value. -/
def mixedRequests : List Request :=
  [⟨.text "x", .unset⟩, ⟨.text "x", .int 1⟩, ⟨.text "y", .unset⟩, ⟨.text "x", .bool true⟩]

theorem registrations_perm_mixedRequests :
    mixedRequests.Perm mixedRequests.reverse ∧
      (Equivalence fun v w : {v // v ∈ values mixedRequests} => v.1.same w.1 = true) ∧
      Succeeds .empty (registrations mixedRequests) ∧
      Succeeds .empty (registrations mixedRequests.reverse) ∧
      (tableAfter .empty (registrations mixedRequests)).find? "x" = some (.int 1) ∧
      (tableAfter .empty (registrations mixedRequests.reverse)).find? "x" = some (.bool true) ∧
      (Value.int 1).same (.bool true) = true ∧
      SettleAlike (tableAfter .empty (registrations mixedRequests))
        (tableAfter .empty (registrations mixedRequests.reverse)) .null := by
  have hperm : mixedRequests.Perm mixedRequests.reverse := (List.reverse_perm _).symm
  have hall : ∀ v ∈ values mixedRequests, ∀ w ∈ values mixedRequests, v.same w = true := by
    have hvalues : values mixedRequests = [.int 1, .bool true] := rfl
    rw [hvalues]
    simp only [List.forall_mem_cons, List.not_mem_nil, false_imp_iff, implies_true, and_true]
    decide +kernel
  have hsame : Equivalence fun v w : {v // v ∈ values mixedRequests} => v.1.same w.1 = true :=
    ⟨fun v => hall v v.2 v v.2, fun {v w} _ => hall w w.2 v v.2,
      fun {v _ w} _ _ => hall v v.2 w w.2⟩
  obtain ⟨hiff, htables⟩ := registrations_perm hperm hsame
  have hgranted : Registry.empty.enterAll mixedRequests =
      ((Registry.empty.enterAll mixedRequests).1, none) :=
    Prod.ext rfl (Option.isNone_iff_eq_none.1 (by decide +kernel))
  have hsucceeds := (succeeds_of_enterAll hgranted).1
  obtain ⟨-, -, hvalues, hsettle⟩ := htables hsucceeds
  have hone : (tableAfter .empty (registrations mixedRequests)).find? "x" = some (.int 1) :=
    (Records.empty.enterAll (enterAll_of_succeeds hsucceeds)).find?_of_firstValue? rfl
  have htrue : (tableAfter .empty (registrations mixedRequests.reverse)).find? "x" =
      some (.bool true) :=
    (Records.empty.enterAll (enterAll_of_succeeds (hiff.1 hsucceeds))).find?_of_firstValue? rfl
  exact ⟨hperm, hsame, hsucceeds, hiff.1 hsucceeds, hone, htrue,
    hvalues "x" _ _ hone htrue (by nofun), hsettle .null [] (.inl ⟨rfl, rfl⟩)⟩

end Session

end CypherCompose
