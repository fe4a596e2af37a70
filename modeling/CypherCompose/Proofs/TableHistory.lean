import CypherCompose.Proofs.Granting
import CypherCompose.Session

/-!
# The history of a table of parameters

A session may enter parameters, fail half-way through a piece, and settle its table, in any order.
Whatever it does, its table only grows: `Evolves r r'` says that `r'` has the names of `r` in front and
each value that `r` has, and is `r` itself if `r` is closed.  A granted request makes a table evolve
(`Evolves.register`), so a step of a session does (`evolves_step`), and so do any number of them
(`evolves_tableAfter`).  No name is ever entered twice (`nodup_tableAfter`).
-/

namespace CypherCompose

namespace Registry

variable {r r' r'' : Registry} {q : Request}

/-! ## Tables that grow -/

/-- A table that may have come from another one. -/
structure Evolves (r r' : Registry) : Prop where
  names : r.names <+: r'.names
  values : ∀ name v, r.find? name = some v → isUnset v = false → r'.find? name = some v
  closed : r.closed = true → r' = r

namespace Evolves

theorem refl (r : Registry) : Evolves r r :=
  ⟨List.prefix_rfl, fun _ _ h _ => h, fun _ => rfl⟩

theorem trans (h : Evolves r r') (h' : Evolves r' r'') : Evolves r r'' := by
  refine ⟨h.names.trans h'.names, ?_, ?_⟩
  · intro name v hv hset
    exact h'.values name v (h.values name v hv hset) hset
  · intro hclosed
    obtain rfl := h.closed hclosed
    exact h'.closed hclosed

/-- A name stays in the table. -/
theorem exists_find? (h : Evolves r r') {name : String} {v : Value} (hv : r.find? name = some v) :
    ∃ w, r'.find? name = some w := by
  have hmem : name ∈ r.names.map ParamName.text := by
    by_contra hnew
    rw [find?_eq_none.2 hnew] at hv
    cases hv
  obtain ⟨more, hmore⟩ := h.names
  refine Option.ne_none_iff_exists'.1 fun hnone => find?_eq_none.1 hnone ?_
  rw [← hmore, List.map_append]
  exact List.mem_append_left _ hmem

end Evolves

theorem find?_append (r : Registry) (n : ParamName) (v : Value) (name : String) :
    ({ r with entries := r.entries ++ [(n, v)] } : Registry).find? name =
      (r.find? name).or (if n.text = name then some v else none) := by
  simp only [find?, List.find?_append, Option.map_or]
  by_cases h : n.text = name <;> simp [h]

theorem find?_withValue_of_ne (r : Registry) {name name' : String} (h : name' ≠ name) (v : Value) :
    ({ r with entries := withValue name v r.entries } : Registry).find? name' = r.find? name' := by
  simp only [find?, withValue]
  induction r.entries with
  | nil => rfl
  | cons e es ih =>
    by_cases he : e.1.text = name
    · have hne : e.1.text ≠ name' := fun heq => h (heq.symm.trans he)
      simpa [he, hne, h.symm] using ih
    · by_cases he' : e.1.text = name'
      · simp [he', h]
      · simpa [he, he'] using ih

/-- A granted request adds a name at the end, or gives a value to a name without one, or neither. -/
theorem Evolves.register (h : r.register q = .ok r') : Evolves r r' := by
  obtain ⟨n, hopen, -, hcases⟩ := register_eq_ok h
  have hclosed : r.closed ≠ true := by simp [hopen]
  obtain ⟨hnone, rfl⟩ | ⟨v, hv, ⟨-, rfl⟩ | ⟨-, hunset, rfl⟩⟩ := hcases
  · refine ⟨?_, ?_, fun h => absurd h hclosed⟩
    · show r.names <+: (r.entries ++ [(n, q.value)]).map (·.1)
      rw [List.map_append]
      exact List.prefix_append _ _
    · intro name w hw _
      rw [find?_append, hw, Option.some_or]
  · exact .refl r'
  · refine ⟨?_, ?_, fun h => absurd h hclosed⟩
    · show r.names <+: (withValue n.text q.value r.entries).map (·.1)
      rw [names_withValue]
      exact List.prefix_rfl
    · intro name w hw hset
      have hne : name ≠ n.text := by
        rintro rfl
        obtain rfl : v = w := Option.some.inj (hv.symm.trans hw)
        rw [hunset] at hset
        cases hset
      rwa [find?_withValue_of_ne r hne]

/-- What was entered before a refusal stays, so this holds of requests that are not all granted. -/
theorem Evolves.enterAll (r : Registry) (qs : List Request) : Evolves r (r.enterAll qs).1 := by
  induction qs generalizing r with
  | nil => exact .refl r
  | cons q qs ih =>
    rw [Registry.enterAll]
    cases hq : r.register q with
    | error e => exact .refl r
    | ok r₁ => exact (Evolves.register hq).trans (ih r₁)

theorem nodup_register (h : (r.names.map ParamName.text).Nodup) (hr : r.register q = .ok r') :
    (r'.names.map ParamName.text).Nodup := by
  obtain ⟨n, -, hn, -⟩ := register_eq_ok hr
  rw [names_register hn hr]
  by_cases hmem : n.text ∈ r.names.map ParamName.text
  · rwa [if_pos hmem]
  · rw [if_neg hmem, List.map_append, List.nodup_append]
    refine ⟨h, by simp, ?_⟩
    intro a ha b hb
    rw [List.map_singleton, List.mem_singleton] at hb
    rintro rfl
    exact hmem (hb ▸ ha)

theorem nodup_enterAll {qs : List Request} (h : (r.names.map ParamName.text).Nodup) :
    ((r.enterAll qs).1.names.map ParamName.text).Nodup := by
  induction qs generalizing r with
  | nil => exact h
  | cons q qs ih =>
    rw [Registry.enterAll]
    cases hq : r.register q with
    | error e => exact h
    | ok r₁ => exact ih (nodup_register h hq)

theorem run_snd {α : Type} (r : Registry) (d : Draft α) :
    (r.run d).2 = (r.enterAll d.requests).1 := by
  unfold Registry.run
  split
  · rename_i h
    rw [h]
  · rename_i h
    rw [h]

theorem run_of_closed {α : Type} (h : r.closed = true) {d : Draft α} {qs : List Request}
    (hd : d.requests = q :: qs) :
    r.run d =
      (.error (if q.name.isWritable then .lateParameter q.name else .misuse .unwritable), r) := by
  have hq : r.register q =
      .error (if q.name.isWritable then .lateParameter q.name else .misuse .unwritable) := by
    rw [Registry.register, if_pos h]
    simp [Error.raised, Error.isWritable, Error.wording?]
  simp only [Registry.run, hd, Registry.enterAll, hq]

theorem requests_parameter (name value : Value) :
    (Draft.parameter name value).requests = [⟨name, value⟩] := by
  unfold Draft.parameter
  split <;> rfl

theorem run_parameter_cases (r : Registry) (name value : Value) :
    (∃ e, r.run (Draft.parameter name value) = (.error e, r)) ∨
      ∃ n r', r.run (Draft.parameter name value) = (.ok n, r') := by
  rw [Registry.run, requests_parameter, Registry.enterAll]
  cases hr : r.register ⟨name, value⟩ with
  | error e => exact .inl ⟨e, rfl⟩
  | ok r' =>
    -- a name that is granted is plain, and then nothing else fails
    obtain ⟨n, -, hn, -⟩ := register_eq_ok hr
    refine .inr ⟨n, r', ?_⟩
    simp only [Registry.enterAll, Draft.parameter, hn]

/-! ## Settling a table -/

variable {bound : Value} {es : List (Value × Value)}

/-- The names that have a value neither in a table nor among the caller's entries. -/
def missing (r : Registry) (es : List (Value × Value)) : List ParamName :=
  (r.entries.filter fun e => isUnset e.2 && !es.any fun b => b.1.text? == some e.1.text).map (·.1)

theorem isNone_lookup (n : ParamName) (es : List (Value × Value)) :
    (Value.lookup n.toValue es).isNone = !es.any fun b => b.1.text? == some n.text := by
  have hkey : (fun b : Value × Value => n.toValue.same b.1) =
      fun b => b.1.text? == some n.text := funext fun b => same_toValue n.word b.1
  rw [Value.lookup, hkey, Option.isNone_map, Bool.eq_iff_iff]
  simp

theorem resolve_map (es : List (Value × Value)) (entries : List (ParamName × Value)) :
    resolve (.map es) entries =
      .ok (entries.map fun e =>
        (e.1, if isUnset e.2 then Value.lookup e.1.toValue es else some e.2)) := by
  induction entries with
  | nil => rfl
  | cons e entries ih =>
    rw [resolve_cons, ih, source, List.map_cons]
    split_ifs <;> rfl

theorem missing_eq (r : Registry) (es : List (Value × Value)) :
    ((r.entries.map fun e =>
      (e.1, if isUnset e.2 then Value.lookup e.1.toValue es else some e.2)).filter
        (·.2.isNone)).map (·.1.toValue) = (r.missing es).map ParamName.toValue := by
  rw [missing, List.filter_map, List.map_map, List.map_map]
  congr 1
  refine List.filter_congr fun e _ => ?_
  simp only [Function.comp_apply, ← isNone_lookup]
  split_ifs with h
  · rw [h, Bool.true_and]
  · simp [h]

/-- Settling a table fails exactly on the names that are missing. -/
theorem finalize_eq (h : bound = .null ∧ es = [] ∨ bound = .map es) :
    r.missing es = [] ∧ (∃ table, r.finalize bound = (.ok table, { r with closed := true })) ∨
      r.missing es ≠ [] ∧
        r.finalize bound = (.error (.unbound ((r.missing es).map ParamName.toValue)), r) := by
  have hgiven : ∃ given, bound.truth = .ok given ∧
      (if given then bound else .map []) = .map es := by
    obtain ⟨rfl, rfl⟩ | rfl := h
    · exact ⟨false, rfl, rfl⟩
    · cases es with
      | nil => exact ⟨false, rfl, rfl⟩
      | cons e es => exact ⟨true, rfl, rfl⟩
  obtain ⟨given, htruth, hes⟩ := hgiven
  have hmissing := missing_eq r es
  unfold Registry.finalize
  simp only [htruth, hes, resolve_map]
  split
  · rename_i hnone
    rw [hnone, List.map_nil, eq_comm, List.map_eq_nil_iff] at hmissing
    exact .inl ⟨hmissing, _, rfl⟩
  · rename_i hsome
    refine .inr ⟨?_, by rw [hmissing]⟩
    intro hnone
    rw [hnone, List.map_nil, List.map_eq_nil_iff] at hmissing
    exact hsome hmissing

theorem finalize_cases (r : Registry) (bound : Value) :
    (∃ e, r.finalize bound = (.error e, r)) ∨
      ∃ table, r.finalize bound = (.ok table, { r with closed := true }) := by
  unfold Registry.finalize
  split
  · exact .inl ⟨_, rfl⟩
  · split
    · exact .inl ⟨_, rfl⟩
    · split
      · exact .inr ⟨_, rfl⟩
      · exact .inl ⟨_, rfl⟩

theorem Evolves.finalize (r : Registry) (bound : Value) : Evolves r (r.finalize bound).2 := by
  obtain ⟨e, he⟩ | ⟨table, htable⟩ := finalize_cases r bound
  · rw [he]
    exact .refl r
  · rw [htable]
    exact ⟨List.prefix_rfl, fun _ _ h _ => h, fun h => by cases r; cases h; rfl⟩

end Registry

namespace Session

open Registry

/-! ## Steps of a session -/

variable {r : Registry} {ss ts : List Step}

/-- The table that some steps leave. -/
def tableAfter (r : Registry) (ss : List Step) : Registry :=
  ((run r ss).map (·.2)).getLastD r

theorem step_write (r : Registry) (piece : Piece) (value : Value) :
    step r (.write piece value) =
      ((r.run (piece.draft value)).1.map fun ts => .text (Token.spell ts),
        (r.run (piece.draft value)).2) := by
  rw [step]
  split <;> rename_i h <;> rw [h] <;> rfl

theorem step_register (r : Registry) (name value : Value) :
    step r (.register name value) =
      ((r.run (Draft.parameter name value)).1.map fun p => .text p.token,
        (r.run (Draft.parameter name value)).2) := by
  rw [step]
  split <;> rename_i h <;> rw [h] <;> rfl

theorem step_contains_snd (r : Registry) (name : Value) : (step r (.contains name)).2 = r := by
  rw [step]
  split <;> rfl

theorem step_finalize (r : Registry) (bound : Value) :
    step r (.finalize bound) = ((r.finalize bound).1.map .table, (r.finalize bound).2) := by
  rw [step]
  split <;> rename_i h <;> rw [h] <;> rfl

/-- Whatever a step comes to, the table evolves. -/
theorem evolves_step (r : Registry) (s : Step) : Evolves r (step r s).2 := by
  cases s with
  | write piece value =>
    rw [step_write, run_snd]
    exact .enterAll r _
  | register name value =>
    rw [step_register, run_snd]
    exact .enterAll r _
  | contains name =>
    rw [step_contains_snd]
    exact .refl r
  | finalize bound =>
    rw [step_finalize]
    exact .finalize r bound

theorem nodup_step (h : (r.names.map ParamName.text).Nodup) (s : Step) :
    ((step r s).2.names.map ParamName.text).Nodup := by
  cases s with
  | write piece value =>
    rw [step_write, run_snd]
    exact nodup_enterAll h
  | register name value =>
    rw [step_register, run_snd]
    exact nodup_enterAll h
  | contains name => rwa [step_contains_snd]
  | finalize bound =>
    rw [step_finalize]
    obtain ⟨e, he⟩ | ⟨table, htable⟩ := finalize_cases r bound
    · rwa [he]
    · rw [htable]
      exact h

/-! ## Sessions -/

theorem tableAfter_cons (r : Registry) (s : Step) (ss : List Step) :
    tableAfter r (s :: ss) = tableAfter (step r s).2 ss := by
  rw [tableAfter, run, List.map_cons, List.getLastD_cons]
  rfl

theorem tableAfter_append (r : Registry) (ss ts : List Step) :
    tableAfter r (ss ++ ts) = tableAfter (tableAfter r ss) ts := by
  induction ss generalizing r with
  | nil => rfl
  | cons s ss ih => rw [List.cons_append, tableAfter_cons, tableAfter_cons, ih]

/-- The answers of a session are those of its steps, each over the table that the steps before it
leave. -/
theorem run_append (r : Registry) (ss ts : List Step) :
    run r (ss ++ ts) = run r ss ++ run (tableAfter r ss) ts := by
  induction ss generalizing r with
  | nil => rfl
  | cons s ss ih => rw [List.cons_append, run, run, ih, tableAfter_cons, List.cons_append]

theorem evolves_tableAfter (r : Registry) (ss : List Step) : Evolves r (tableAfter r ss) := by
  induction ss generalizing r with
  | nil => exact .refl r
  | cons s ss ih =>
    rw [tableAfter_cons]
    exact (evolves_step r s).trans (ih _)

theorem nodup_tableAfter (h : (r.names.map ParamName.text).Nodup) (ss : List Step) :
    ((tableAfter r ss).names.map ParamName.text).Nodup := by
  induction ss generalizing r with
  | nil => exact h
  | cons s ss ih =>
    rw [tableAfter_cons]
    exact ih (nodup_step h s)

/-- Let `r` be the table of a session after the steps `before`, whatever they came to, and `r'` the
table after some more.  The session answers a next step `s` by `step r s`; the names of `r` are plain
and never repeat, and `r'` adds names only at the end; a value in `r` is the same in `r'`, and a name
without one is still there.  A registration that is refused, and a settling that fails, leave `r`; with
no map or a map, settling fails exactly on the names without a value in `r` or in the map, and lists
them in the order of `r`.  Once `r` is settled it stays as it is, and refuses every name, asked for
directly or by a piece, as one that comes too late; only for a value that cannot be written, which no
text is, the error is about that. -/
theorem table_history (before after : List Step) :
    let r := tableAfter .empty before
    let r' := tableAfter .empty (before ++ after)
    (∀ s, run .empty (before ++ [s]) = run .empty before ++ [step r s]) ∧
    (r.names.map ParamName.text).Nodup ∧
    (∀ n ∈ r.names, Identifier.isPlain n.text = true) ∧
    r.names <+: r'.names ∧
    (∀ name v, r.find? name = some v → v ≠ .unset → r'.find? name = some v) ∧
    (∀ name, r.find? name = some .unset → ∃ v, r'.find? name = some v) ∧
    (∀ name value e, (step r (.register name value)).1 = .error e →
      (step r (.register name value)).2 = r) ∧
    (∀ bound e, (step r (.finalize bound)).1 = .error e → (step r (.finalize bound)).2 = r) ∧
    (∀ bound es e, (bound = .null ∧ es = [] ∨ bound = .map es) →
      ((step r (.finalize bound)).1 = .error e ↔
        r.missing es ≠ [] ∧ e = .unbound ((r.missing es).map ParamName.toValue))) ∧
    ∀ bound t, (step r (.finalize bound)).1 = .ok t →
      let settled := (step r (.finalize bound)).2
      settled.entries = r.entries ∧ settled.closed = true ∧
      tableAfter settled after = settled ∧
      (∀ name value, step (tableAfter settled after) (.register name value) =
        (.error (if name.isWritable then .lateParameter name else .misuse .unwritable), settled)) ∧
      ∀ piece value q qs, (Piece.draft piece value).requests = q :: qs →
        step (tableAfter settled after) (.write piece value) =
          (.error (if q.name.isWritable then .lateParameter q.name else .misuse .unwritable),
            settled) := by
  intro r r'
  have hevolves : Evolves r r' := by
    rw [show r' = tableAfter r after from tableAfter_append .empty before after]
    exact evolves_tableAfter r after
  refine ⟨?_, ?_, ?_, hevolves.names, ?_, ?_, ?_, ?_, ?_, ?_⟩
  · intro s
    rw [run_append]
    rfl
  · exact nodup_tableAfter (r := .empty) List.nodup_nil before
  · intro n _
    exact n.plain
  · intro name v hv hset
    apply hevolves.values name v hv
    simpa using mt isUnset_iff.1 hset
  · intro name hv
    exact hevolves.exists_find? hv
  · intro name value e he
    rw [step_register] at he ⊢
    obtain ⟨e', he'⟩ | ⟨n, r₁, hgranted⟩ := run_parameter_cases r name value
    · rw [he']
    · rw [hgranted] at he
      cases he
  · intro bound e he
    rw [step_finalize] at he ⊢
    obtain ⟨e', he'⟩ | ⟨table, htable⟩ := finalize_cases r bound
    · rw [he']
    · rw [htable] at he
      cases he
  · intro bound es e hes
    rw [step_finalize]
    obtain ⟨hnone, table, htable⟩ | ⟨hsome, hfails⟩ := finalize_eq (r := r) hes
    · rw [htable]
      constructor
      · intro h
        cases h
      · intro h
        exact absurd hnone h.1
    · rw [hfails]
      exact ⟨fun h => ⟨hsome, (Except.error.inj h).symm⟩, fun h => congrArg Except.error h.2.symm⟩
  · intro bound t ht settled
    obtain ⟨e, he⟩ | ⟨table, htable⟩ := finalize_cases r bound
    · rw [step_finalize, he] at ht
      cases ht
    have hsettled : settled = { r with closed := true } := by
      show (step r (.finalize bound)).2 = _
      rw [step_finalize, htable]
    have hclosed : settled.closed = true := by rw [hsettled]
    have hafter := (evolves_tableAfter settled after).closed hclosed
    refine ⟨by rw [hsettled], hclosed, hafter, ?_, ?_⟩
    · intro name value
      rw [hafter, step_register, run_of_closed hclosed (requests_parameter name value)]
      rfl
    · intro piece value q qs hqs
      rw [hafter, step_write, run_of_closed hclosed hqs]
      rfl

/-- A number in the place of a name comes too late, but it has too many digits for the message that
says so. -/
theorem run_register_tooLong :
    run .empty [.finalize .null, .register (.int Numeral.tooLong) (.int 1)] =
      [(.ok (.table []), { Registry.empty with closed := true }),
        (.error (.misuse .unwritable), { Registry.empty with closed := true })] := by
  have hlate : step { Registry.empty with closed := true }
      (.register (.int Numeral.tooLong) (.int 1)) =
        (.error (.misuse .unwritable), { Registry.empty with closed := true }) := by
    rw [step_register, run_of_closed rfl (requests_parameter _ _), Value.isWritable_int,
      Numeral.isWritable_tooLong]
    rfl
  exact congrArg (fun answer => [(.ok (.table []), { Registry.empty with closed := true }), answer])
    hlate

end Session

end CypherCompose
