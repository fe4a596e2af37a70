import CypherCompose.Proofs.Groupings
import CypherCompose.Proofs.SetLayout
import CypherCompose.Proofs.SortKeys

/-!
# ORDER BY

An ORDER BY is written from the sort keys that its items are made of: `run_orderBy_keys` for a list of
keys, and `run_orderBy_stray` for a list with a stray marker, which is refused.  `orderBy_pairs_markers`
joins the two.

A key with a marker is written by filling its expression into a template.  A lone name that is a symbol is
written qualified there, so that its text before a keyword is not the text it has alone
(`KeyForm.text?_eq_iff`); `compile_forwardQuery` is such a query.
-/

namespace CypherCompose

open Token

/-! ## Texts of keys -/

/-- The expression of an item in a list of keys, unless the item is a marker. -/
def Value.sortOperand? : Value → Option Value
  | orderItem e _ => some e
  | v => if v.isMarker then none else some v

theorem Value.sortOperand?_of_isOperand {v : Value} (h : v.isOperand = true) :
    v.sortOperand? = some v := by
  rw [isOperand_iff] at h
  unfold sortOperand?
  split
  · cases h.2
  · rw [if_neg (by rw [h.1]; decide)]

theorem Value.sortOperand?_of_isMarker {v : Value} (h : v.isMarker = true) :
    v.sortOperand? = none := by
  unfold sortOperand?
  split
  · cases h
  · rw [if_pos h]

namespace KeyForm

variable {k : KeyForm} {ks : List KeyForm} {qs : List Request} {e : Expr} {es : List Expr}

theorem filterMap_items (ks : List KeyForm) :
    (ks.flatMap items).filterMap Value.sortOperand? = ks.map expr := by
  induction ks with
  | nil => rfl
  | cons k ks ih =>
    rw [List.flatMap_cons, List.filterMap_append, ih, List.map_cons]
    cases k with
    | bare e h => simp [items, expr, Value.sortOperand?_of_isOperand h]
    | marked e m h hm =>
      simp [items, expr, Value.sortOperand?_of_isOperand h, Value.sortOperand?_of_isMarker hm]
    | item e m hm => rfl

/-- The keyword of a key that has a marker. -/
def word? (k : KeyForm) : Option String :=
  k.marker?.bind Value.sortWord?

/-- The text of a key: that of its expression, filled in before the keyword if there is one. -/
def text? (k : KeyForm) : Option String :=
  (readOperand k.expr).outcome.toOption.map fun e =>
    k.word?.elim (spell e.render) fun w => e.filledText ++ " " ++ w

/-- The text that the expression of a key has alone, and the keyword if there is one. -/
def joinedText? (k : KeyForm) : Option String :=
  (readOperand k.expr).outcome.toOption.map fun e =>
    k.word?.elim (spell e.render) fun w => spell e.render ++ " " ++ w

theorem word?_eq (k : KeyForm) : k.word? = k.order?.map SortOrder.keyword := by
  rw [word?, order?, Option.map_bind]
  congr 1
  funext m
  exact m.sortWord?_eq

theorem text?_of_readOperand (h : readOperand k.expr = ⟨qs, .ok e⟩) :
    k.text? = some (spell (SortKey.render ⟨e, k.order?⟩)) := by
  rw [text?, h, word?_eq]
  cases k.order? with
  | none => rfl
  | some o => simp [SortKey.render, Expr.filledText, Except.toOption, spelling, String.append_assoc]

theorem all_read (h : readEachWith readOperand (ks.map expr) = ⟨qs, .ok es⟩) :
    ∃ keys, Draft.all (ks.map read) = ⟨qs, .ok keys⟩ ∧
      ks.mapM text? = some (keys.map fun key => spell key.render) := by
  induction ks generalizing qs es with
  | nil =>
    obtain ⟨-, rfl⟩ := Draft.done_eq_ok.1 h
    exact ⟨[], rfl, rfl⟩
  | cons k ks ih =>
    simp only [List.map_cons, readEachWith, Draft.bind_eq_ok, Draft.pure_eq_ok] at h
    obtain ⟨ps, e, _, he, ⟨qs, es, _, hes, ⟨-, rfl⟩, rfl⟩, rfl⟩ := h
    obtain ⟨keys, hkeys, htexts⟩ := ih hes
    refine ⟨⟨e, k.order?⟩ :: keys, ?_, ?_⟩
    · simp only [List.map_cons, Draft.all, read, Draft.bind_eq_ok, Draft.pure_eq_ok]
      exact ⟨ps, _, _, ⟨ps, e, [], he, ⟨rfl, rfl⟩, by simp⟩, ⟨qs, keys, [], hkeys, ⟨rfl, rfl⟩, rfl⟩, rfl⟩
    · rw [List.mapM_cons, text?_of_readOperand he, htexts]
      rfl

/-- Keys whose text is not that of their expression with the keyword: the expression is a lone name that
is a symbol, and a keyword follows. -/
def NamesSymbol (k : KeyForm) : Prop :=
  k.word? ≠ none ∧ ∃ e n, (readOperand k.expr).outcome = .ok e ∧ e.render = [.name n] ∧
    n.word.symbol? ≠ none

theorem text?_eq_iff (k : KeyForm) : k.text? = k.joinedText? ↔ ¬ k.NamesSymbol := by
  rw [text?, joinedText?, NamesSymbol]
  cases houtcome : (readOperand k.expr).outcome with
  | error e => simp [Except.toOption]
  | ok e =>
    cases hword : k.word? with
    | none => simp [Except.toOption]
    | some w =>
      have hjoin : e.filledText ++ " " ++ w = spell e.render ++ " " ++ w ↔
          e.filledText = spell e.render := by
        simp [← String.toList_inj]
      simp [Except.toOption, hjoin, e.filledText_eq_iff]

end KeyForm

/-! ## Reading the clause -/

theorem readPlain_orderBy (i : Nat) {items : Value} (h : items.asList ≠ []) :
    readPlain i (.clause (.orderBy items)) = (do
      let keys ← readSortKeys (.clause (.orderBy items)) 0 items.asList
      pure (.orderBy keys)) := by
  rw [readPlain, readItems, if_neg (by simpa using h)]
  rfl

theorem readSortKeys_flatMap (c : Value) (ks : List KeyForm) :
    readSortKeys c 0 (ks.flatMap KeyForm.items) = Draft.all (ks.map KeyForm.read) := by
  calc readSortKeys c 0 (ks.flatMap KeyForm.items)
    _ = readSortKeys c 0 (ks.flatMap KeyForm.items ++ []) := by rw [List.append_nil]
    _ = (do
          let keys ← Draft.all (ks.map KeyForm.read)
          let more ← readSortKeys c (0 + (ks.flatMap KeyForm.items).length) []
          pure (keys ++ more)) := readSortKeys_keys ks (by simp)
    _ = (do
          let keys ← Draft.all (ks.map KeyForm.read)
          pure (keys ++ [])) := rfl
    _ = Draft.all (ks.map KeyForm.read) := by simp only [List.append_nil, bind_pure]

theorem spell_orderBy (keys : List SortKey) :
    spell (Clause.render (.orderBy keys)) =
      "ORDER BY " ++ ", ".intercalate (keys.map fun key => spell key.render) := by
  have hcomma : spell [.sym ",", .blank] = ", " := by decide
  rw [Clause.render, spell_after, commas, spell_intercalate, hcomma, List.map_map]
  rfl

section Clause

variable {r r' : Registry} {i : Nat} {items : Value} {ks : List KeyForm} {es : List Expr}

/-- Keys whose expressions are read are written one after the other. -/
theorem run_orderBy_keys (hks : ks.flatMap KeyForm.items = items.asList) (hne : items.asList ≠ [])
    (h : r.run (readEachWith readOperand (items.asList.filterMap Value.sortOperand?)) = (.ok es, r')) :
    ∃ keys texts, r.run (readPlain i (.clause (.orderBy items))) = (.ok (.orderBy keys), r') ∧
      ks.mapM KeyForm.text? = some texts ∧
      spell (Clause.render (.orderBy keys)) = "ORDER BY " ++ ", ".intercalate texts := by
  rw [← hks, KeyForm.filterMap_items] at h
  obtain ⟨hdraft, henter⟩ := Registry.run_eq_ok h
  obtain ⟨keys, hall, htexts⟩ := KeyForm.all_read hdraft
  refine ⟨keys, _, ?_, htexts, spell_orderBy keys⟩
  rw [readPlain_orderBy i hne, ← hks, readSortKeys_flatMap, hall, Registry.run_bind, Registry.run, henter]
  rfl

/-- A marker is a text, so the message about one can be written. -/
theorem raised_strayMarker {m : Value} (hm : m.isMarker = true) (i : Nat) (c : Value) :
    (Error.clause (.strayMarker m i c)).raised = .clause (.strayMarker m i c) := by
  have htext : m.isText = true := by
    rw [Value.isMarker, Value.sortWord?] at hm
    exact Option.isSome_of_isSome_bind hm
  apply Error.raised_of_isWritable
  simp [Error.isWritable, Error.wording?, ClauseError.wording, Value.isWritable_of_isText htext]

/-- A stray marker is refused, once the keys before it are read. -/
theorem run_orderBy_stray {m : Value} {rest : List Value}
    (hvs : items.asList = ks.flatMap KeyForm.items ++ m :: rest) (hm : m.isMarker = true)
    (hlast : ∀ k ∈ ks.getLast?, k.marker?.isSome = true)
    (h : r.run (readEachWith readOperand (items.asList.filterMap Value.sortOperand?)) = (.ok es, r')) :
    (r.run (readPlain i (.clause (.orderBy items)))).1 =
      .error (.clause (.strayMarker m (ks.flatMap KeyForm.items).length (.clause (.orderBy items)))) := by
  have hne : items.asList ≠ [] := by simp [hvs]
  rw [hvs, List.filterMap_append, KeyForm.filterMap_items] at h
  obtain ⟨hdraft, henter⟩ := Registry.run_eq_ok h
  obtain ⟨ps, es₁, qs, es₂, hread, -, hrequests, -⟩ := readEachWith_append_eq_ok.1 hdraft
  obtain ⟨keys, hall, -⟩ := KeyForm.all_read hread
  obtain ⟨r₁, hrun⟩ : ∃ r₁, r.run (⟨ps, .ok keys⟩ : Draft (List SortKey)) = (.ok keys, r₁) := by
    rw [hrequests, Registry.enterAll_append] at henter
    rcases hps : r.enterAll ps with ⟨r₁, _ | e⟩
    · exact ⟨r₁, by rw [Registry.run, hps]⟩
    · rw [hps] at henter
      cases henter
  have hnext : ∀ k ∈ ks.getLast?, k.marker? = none → ∀ m' ∈ (m :: rest).head?, m'.isMarker = false := by
    intro k hk hnone
    have hsome := hlast k hk
    rw [hnone] at hsome
    cases hsome
  rw [readPlain_orderBy i hne, hvs, readSortKeys_keys ks hnext, hall, readSortKeys_marker hm,
    Nat.zero_add, bind_assoc, Registry.run_bind, hrun]
  exact congrArg Except.error (raised_strayMarker hm _ _)

end Clause

/-- Keys with the same expression and the same keyword, however they are given. -/
def KeyForm.Alike (k k' : KeyForm) : Prop :=
  k.expr = k'.expr ∧ k.word? = k'.word?

theorem KeyForm.Alike.read_eq {k k' : KeyForm} (h : k.Alike k') : k.read = k'.read := by
  have hkeyword : Function.Injective SortOrder.keyword := by
    intro o o' ho
    cases o <;> cases o' <;> revert ho <;> decide
  have horder : k.order? = k'.order? := by
    apply Option.map_injective hkeyword
    rw [← word?_eq, ← word?_eq, h.2]
  rw [read, read, h.1, horder]

theorem KeyForm.map_read_of_alike {ks ks' : List KeyForm} (h : List.Forall₂ Alike ks ks') :
    ks.map read = ks'.map read := by
  induction h with
  | nil => rfl
  | cons hk _ ih => rw [List.map_cons, List.map_cons, hk.read_eq, ih]

/-- Keys that are alike make the same clause. -/
theorem readPlain_orderBy_of_alike {items : Value} {ks ks' : List KeyForm} (i j : Nat)
    (hks : ks.flatMap KeyForm.items = items.asList) (hne : items.asList ≠ [])
    (h : List.Forall₂ KeyForm.Alike ks ks') :
    readPlain j (.clause (.orderBy (.list (ks'.flatMap KeyForm.items)))) =
      readPlain i (.clause (.orderBy items)) := by
  have hne' : (Value.list (ks'.flatMap KeyForm.items)).asList ≠ [] := by
    intro hnil
    obtain rfl := KeyForm.flatMap_items_eq_nil.1 hnil
    cases h
    exact hne hks.symm
  rw [readPlain_orderBy i hne, readPlain_orderBy j hne', ← hks, Value.asList, readSortKeys_flatMap,
    readSortKeys_flatMap, KeyForm.map_read_of_alike h]

/-- Where the order items of a list have known directions and the expressions can be read one after the
other, the list is refused if and only if a marker is stray.  Otherwise it is made of keys in one way, and
they are written in order, each as its expression and, if it has a marker, its keyword.  The text of the
expression is the one it has alone, except for a lone name that is a symbol: before a keyword it stands
under its qualified name.  An expression with a marker behind it and an order item of the two make the
same clause. -/
theorem orderBy_pairs_markers {r : Registry} (i : Nat) (items : Value) (hne : items.asList ≠ [])
    (hdirections : ∀ e d, .orderItem e d ∈ items.asList → d.isMarker = true)
    (hcompiles : ∃ es r', r.run (readEachWith readOperand
      (items.asList.filterMap Value.sortOperand?)) = (.ok es, r')) :
    ((∃ k, (r.run (readPlain i (.clause (.orderBy items)))).1 = .error (.clause k)) ↔
      HasStrayMarker items.asList) ∧
    (¬ HasStrayMarker items.asList →
      ∃ ks : List KeyForm, ks.flatMap KeyForm.items = items.asList ∧
        (∀ ks' : List KeyForm, ks'.flatMap KeyForm.items = items.asList → ks' = ks) ∧
        (∃ d texts, (r.run (readPlain i (.clause (.orderBy items)))).1 = .ok d ∧
          ks.mapM KeyForm.text? = some texts ∧
          spell d.render = "ORDER BY " ++ ", ".intercalate texts) ∧
        (∀ k ∈ ks, k.text? = k.joinedText? ↔ ¬ k.NamesSymbol) ∧
        ∀ ks', List.Forall₂ KeyForm.Alike ks ks' → ∀ j,
          r.run (readPlain j (.clause (.orderBy (.list (ks'.flatMap KeyForm.items))))) =
            r.run (readPlain i (.clause (.orderBy items)))) := by
  obtain ⟨es, r', hrun⟩ := hcompiles
  obtain ⟨ks, hks⟩ | ⟨ks, m, rest, hvs, hm, hlast, hstray⟩ := KeyForm.keys_or_stray hdirections
  · obtain ⟨keys, texts, hread, htexts, hspell⟩ := run_orderBy_keys (i := i) hks.symm hne hrun
    have hnot : ¬ HasStrayMarker items.asList := hks ▸ KeyForm.not_hasStrayMarker ks
    refine ⟨⟨?_, fun h => absurd h hnot⟩, fun _ => ⟨ks, hks.symm, ?_, ?_, ?_, ?_⟩⟩
    · rintro ⟨k, hk⟩
      rw [hread] at hk
      cases hk
    · intro ks' hks'
      exact KeyForm.flatMap_items_inj (hks'.trans hks)
    · exact ⟨.orderBy keys, texts, by rw [hread], htexts, hspell⟩
    · exact fun k _ => k.text?_eq_iff
    · intro ks' hks' j
      rw [readPlain_orderBy_of_alike i j hks.symm hne hks']
  · have hrefused := run_orderBy_stray (i := i) hvs hm hlast hrun
    exact ⟨⟨fun _ => hstray, fun _ => ⟨_, hrefused⟩⟩, fun h => absurd hstray h⟩

/-- Keys of all three forms, with markers in several letter cases. -/
def mixedKeys : List Value :=
  [.property (.text "n") (.text "age"), .text "DEScending", .orderItem (.text "score") (.text "Asc"),
    .param (.text "p") (.int 1), .atom (.mode .read), .text "asc"]

theorem orderBy_pairs_markers_mixedKeys :
    ∃ (ks : List KeyForm) (d : Clause) (texts : List String),
      ks.flatMap KeyForm.items = mixedKeys ∧
      (Registry.empty.run (readPlain 0 (.clause (.orderBy (.tuple mixedKeys))))).1 = .ok d ∧
      ks.mapM KeyForm.text? = some texts ∧
      spell d.render = "ORDER BY " ++ ", ".intercalate texts ∧
      spell d.render = "ORDER BY n.age DESC, score ASC, $p, AccessMode.READ ASC" := by
  have hdirections : ∀ e d, Value.orderItem e d ∈ mixedKeys → d.isMarker = true := by
    intro e d h
    obtain ⟨rfl, rfl⟩ : e = .text "score" ∧ d = .text "Asc" := by simpa [mixedKeys] using h
    decide
  have hreads : (Registry.empty.run (readEachWith readOperand
      (mixedKeys.filterMap Value.sortOperand?))).1.toOption.isSome = true := by
    decide +kernel
  have htext : (Registry.empty.run (readPlain 0 (.clause (.orderBy (.tuple mixedKeys))))).1.toOption.map
      (fun d => spell d.render) =
        some "ORDER BY n.age DESC, score ASC, $p, AccessMode.READ ASC" := by
    decide +kernel
  obtain ⟨es, hes⟩ := Option.isSome_iff_exists.1 hreads
  obtain ⟨d, hd, hspell⟩ := Option.map_eq_some_iff.1 htext
  have hd := eq_ok_of_toOption hd
  obtain ⟨hrefused, hwritten⟩ := orderBy_pairs_markers 0 (.tuple mixedKeys) (List.cons_ne_nil _ _)
    hdirections ⟨es, _, Prod.ext (eq_ok_of_toOption hes) rfl⟩
  have hstray : ¬ HasStrayMarker mixedKeys := by
    intro hstray
    obtain ⟨k, hk⟩ := hrefused.2 hstray
    rw [hd] at hk
    cases hk
  obtain ⟨ks, hks, -, ⟨d', texts, hd', htexts, hjoin⟩, -⟩ := hwritten hstray
  obtain rfl : d = d' := Except.ok.inj (hd.symm.trans hd')
  exact ⟨ks, d, texts, hks, hd, htexts, hjoin, hspell⟩

/-- A query that sorts by a variable whose name is a symbol. -/
def forwardQuery : Value := .list [
  .clause (.matching false (.nodeRef (.text "n") .null .null)),
  .clause (.returning (.list [.text "n"]) (.bool false)),
  .clause (.orderBy (.list [.atom (.direction .forward), .text "desc"]))]

/-- Alone the variable is written `forward`, and before a keyword it is not. -/
theorem compile_forwardQuery :
    ((readOperand (.atom (.direction .forward))).outcome.toOption.map fun e => spell e.render) =
      some "forward" ∧
    (Statement.compile forwardQuery .null .null).toOption.map (·.text) =
      some "MATCH (n) RETURN n ORDER BY Direction.FORWARD DESC" := by
  constructor <;> decide +kernel

end CypherCompose
