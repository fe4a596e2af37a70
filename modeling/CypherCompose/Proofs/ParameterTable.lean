import CypherCompose.Proofs.Lexeme
import CypherCompose.Proofs.Quoting
import CypherCompose.Proofs.Recording

/-!
# The table of parameters matches the text

The parameters that a statement's text mentions are the names of its table: read from left to right,
each name at its first mention.  The value under a name is the first one that the query gives it, or
else the caller's.

On the side of the text this needs that nothing but a parameter brings a dollar sign
(`Token.dollar_not_mem_marks`), so that the mentions are the parameters among the leaves
(`Token.params_lexemesAll`).  On the side of the table it is `Registry.Records`.
-/

namespace CypherCompose

/-! ## Mentions in a text -/

/-- Plain texts that no line end closes. -/
def Value.IsUnbroken (v : Value) : Prop :=
  ∃ s, v = .text s ∧ Unbroken s

theorem Lexeme.param?_ofChars {cs : List Char} {l : Lexeme} (h : '$' ∉ cs)
    (hl : ofChars cs = some l) : l.param? = none := by
  cases cs with
  | nil => cases hl
  | cons c cs =>
    have hc : c ≠ '$' := by
      rintro rfl
      exact h List.mem_cons_self
    rw [ofChars] at hl
    split_ifs at hl with _ _ hdollar
    · exact Option.some.inj hl ▸ rfl
    · exact absurd hdollar.1 hc
    · exact Option.some.inj hl ▸ rfl
    · exact Option.some.inj hl ▸ rfl

theorem Lexeme.param?_ofRun {ms : List Mark} {l : Lexeme} (h : Mark.char '$' ∉ ms)
    (hl : ofRun ms = some l) : l.param? = none := by
  unfold ofRun at hl
  split at hl
  · exact Option.some.inj hl ▸ rfl
  · exact Option.some.inj hl ▸ rfl
  · refine param?_ofChars (fun hmem => ?_) hl
    obtain ⟨m, hm, hc⟩ := List.mem_filterMap.1 hmem
    cases m with
    | char c =>
      obtain rfl := Option.some.inj hc
      exact h hm
    | string s => cases hc
    | quoted s => cases hc

/-- Marks without a dollar sign mention no parameter. -/
theorem params_lexemes_eq_nil {ms : List Mark} (h : Mark.char '$' ∉ ms) :
    (lexemes ms).filterMap Lexeme.param? = [] := by
  refine List.filterMap_eq_nil_iff.2 fun l hl => ?_
  obtain ⟨run, hrun, hl⟩ := List.mem_filterMap.1 hl
  refine Lexeme.param?_ofRun (fun hmem => h ?_) hl
  rw [← List.flatten_splitBy Mark.meets ms]
  exact List.mem_flatten_of_mem hrun hmem

theorem dollar_not_mem_chars {cs : List Char} (h : cs.all isSober = true) :
    Mark.char '$' ∉ cs.map Mark.char := by
  intro hmem
  obtain ⟨c, hc, hdollar⟩ := List.mem_map.1 hmem
  obtain rfl := Mark.char.inj hdollar
  exact absurd (List.all_eq_true.1 h _ hc) (by decide)

namespace Token

theorem dollar_not_mem_vocabulary : ∀ s ∈ vocabulary, '$' ∉ s.toList := by
  decide +kernel

theorem dollar_not_mem_ofName (s : String) : Mark.char '$' ∉ Mark.ofName s := by
  unfold Mark.ofName
  split_ifs with hp
  · exact dollar_not_mem_chars (Identifier.isSober_of_isPlain hp)
  · simp

theorem dollar_not_mem_marks {t : Token} (hk : t.isKnown = true) (hp : ∀ p, t ≠ param p) :
    Mark.char '$' ∉ t.marks := by
  cases t with
  | sym s =>
    have hs := dollar_not_mem_vocabulary s (by simpa [isKnown] using hk)
    simpa [marks, spelling] using hs
  | blank => decide
  | name n => exact dollar_not_mem_ofName n.text
  | filledName n =>
    rw [marks]
    split
    next s hs => exact dollar_not_mem_chars (all_isSober_symbol hs).1
    next => exact dollar_not_mem_ofName n.text
  | function f => exact dollar_not_mem_chars (all_isSober_functionName f)
  | param p => exact absurd rfl (hp p)
  | string s => simp [marks]
  | numeral n =>
    exact dollar_not_mem_chars (by simpa [spelling] using Binary64.all_isSober_digits n)
  | decimal x => exact dollar_not_mem_chars (Binary64.all_isSober_toText _ _)

theorem lexemes_of_isUnbroken {p : ParamName} (h : p.toValue.IsUnbroken) :
    (param p).lexemes = [.param p.text] := by
  obtain ⟨s, hs, hunbroken⟩ := h
  obtain ⟨w, plain⟩ := p
  cases w with
  | plain s' =>
    obtain rfl : s' = s := by simpa [ParamName.toValue, Word.toValue] using hs
    exact lexemes_param rfl hunbroken
  | direction d => cases hs
  | mode m => cases hs

theorem params_leaves_cons {t : Token} (h : ∀ p, t ≠ param p) (ts : List Token) :
    (leaves (t :: ts)).filterMap Leaf.param? = (leaves ts).filterMap Leaf.param? := by
  cases t with
  | param p => exact absurd rfl (h p)
  | _ => rfl

/-- The parameters that a text mentions are those among its leaves. -/
theorem params_lexemesAll {ts : List Token} (hk : ∀ t ∈ ts, t.isKnown = true)
    (hp : ∀ v ∈ (leaves ts).filterMap Leaf.param?, v.IsUnbroken) :
    (lexemesAll ts).filterMap Lexeme.param? =
      ((leaves ts).filterMap Leaf.param?).filterMap Value.text? := by
  induction ts with
  | nil => rfl
  | cons t ts ih =>
    have hts := ih fun u hu => hk u (List.mem_cons_of_mem t hu)
    rw [lexemesAll_cons, List.filterMap_append]
    by_cases ht : ∃ p, t = param p
    · obtain ⟨p, rfl⟩ := ht
      have hcons : (leaves (param p :: ts)).filterMap Leaf.param? =
        p.toValue :: (leaves ts).filterMap Leaf.param? := rfl
      have htext : p.toValue.text? = some p.text := p.word.text?_toValue
      rw [hcons] at hp ⊢
      rw [lexemes_of_isUnbroken (hp _ List.mem_cons_self),
        hts fun v hv => hp v (List.mem_cons_of_mem _ hv), List.filterMap_cons_some htext]
      rfl
    · have hne : ∀ p, t ≠ param p := fun p htp => ht ⟨p, htp⟩
      rw [params_leaves_cons hne] at hp ⊢
      rw [lexemes, params_lexemes_eq_nil (dollar_not_mem_marks (hk t List.mem_cons_self) hne),
        List.nil_append, hts hp]

end Token

/-! ## The table of a statement -/

namespace Query

/-- The parameters that a query asks for, in the order in which they are written. -/
def requests (query : Value) : List Request :=
  (leaves query).filterMap Leaf.param?

end Query

namespace Statement

variable {query parameters override : Value} {s : Statement}

/-- The names that the text of a statement mentions, each at its first mention, are the names of its
table; the value under a name is the first that the query gives it, or else the caller's. -/
theorem params_lex_compile (h : compile query parameters override = .ok s)
    (hnames : ∀ q ∈ Query.requests query, q.name.IsUnbroken) :
    ∃ ls, lex s.text = some ls ∧
      (ls.filterMap Lexeme.param?).eraseDups = s.parameters.map (·.1.text) ∧
      ∀ p ∈ s.parameters,
        (Request.firstValue? (Query.requests query) p.1.text).or
          (Registry.callerValue? parameters p.1) = some p.2 := by
  obtain ⟨rs, cs, r, htraces, henter, htable, htext⟩ := exists_traces h
  obtain rfl : rs = Query.requests query := htraces.requests
  have hfragment := Clause.fragment_renderAll cs
  have hrecords : Registry.Records r (Query.requests query) := by
    simpa using Registry.Records.empty.enterAll henter
  obtain ⟨hkeys, hvalues⟩ := hrecords.finalize htable
  refine ⟨Token.lexemesAll (Clause.renderAll cs), ?_, ?_, hvalues⟩
  · rw [htext]
    exact lex_spell hfragment
  · have hunbroken : ∀ v ∈ (Query.requests query).map Request.name, v.IsUnbroken := by
      intro v hv
      obtain ⟨q, hq, rfl⟩ := List.mem_map.1 hv
      exact hnames q hq
    rw [← htraces.params_eq_map] at hunbroken
    rw [Token.params_lexemesAll hfragment.known hunbroken, htraces.params_eq_map, hkeys,
      List.filterMap_map]
    rfl

/-- A query that mentions `x` twice, the second time with a value, `y` with a value and then without
one, and `z` without any.  It also has a string and a name that look like parameters. -/
def mentioningQuery : Value :=
  .list [
    .clause (.matching false (.nodeRef (.text "n") .null
      (.map [(.text "a", .param (.text "x") .unset), (.text "b", .param (.text "y") (.int 1))]))),
    .clause (.filter (.binary (.text "=") (.text "$no") (.var (.text "$q")))),
    .clause (.returning
      (.list [.param (.text "x") (.int 5), .param (.text "z") .unset, .param (.text "y") .unset])
      (.bool false))]

/-- A caller's values: one that the query does not ask for, one that it has itself, and `z`. -/
def spareEntries : List (Value × Value) :=
  [(.text "w", .int 4), (.text "x", .int 9), (.text "z", .int 3)]

theorem params_lex_compile_mentioningQuery :
    ∃ s ls, compile mentioningQuery (.map spareEntries) .null = .ok s ∧ lex s.text = some ls ∧
      (ls.filterMap Lexeme.param?).eraseDups = ["x", "y", "z"] ∧
      s.parameters.map (·.1.word) = [.plain "x", .plain "y", .plain "z"] ∧
      ∀ p ∈ s.parameters,
        (p.1.word, p.2) ∈ [(.plain "x", .int 5), (.plain "y", .int 1), (.plain "z", .int 3)] := by
  have hwords : (compile mentioningQuery (.map spareEntries) .null).toOption.map
      (fun s => s.parameters.map (·.1.word)) = some [.plain "x", .plain "y", .plain "z"] := by
    decide +kernel
  have hnames : ∀ q ∈ Query.requests mentioningQuery, q.name.IsUnbroken := by
    have hrequests : Query.requests mentioningQuery =
        [⟨.text "x", .unset⟩, ⟨.text "y", .int 1⟩, ⟨.text "x", .int 5⟩, ⟨.text "z", .unset⟩,
          ⟨.text "y", .unset⟩] := rfl
    rw [hrequests]
    simp [Value.IsUnbroken, Unbroken]
  cases h : compile mentioningQuery (.map spareEntries) .null with
  | error e =>
    rw [h] at hwords
    cases hwords
  | ok s =>
    rw [h] at hwords
    have hwords : s.parameters.map (·.1.word) = [.plain "x", .plain "y", .plain "z"] :=
      Option.some.inj hwords
    obtain ⟨ls, hlex, hkeys, hvalues⟩ := params_lex_compile h hnames
    refine ⟨s, ls, rfl, hlex, ?_, hwords, fun p hp => ?_⟩
    · have htexts : s.parameters.map (·.1.text) = (s.parameters.map (·.1.word)).map Word.text := by
        rw [List.map_map]
        rfl
      rw [hkeys, htexts, hwords]
      rfl
    · have hvalue : (Request.firstValue? (Query.requests mentioningQuery) p.1.word.text).or
          (Value.lookup p.1.word.toValue spareEntries) = some p.2 := hvalues p hp
      have hword : p.1.word ∈ s.parameters.map (·.1.word) := List.mem_map_of_mem hp
      rw [hwords] at hword
      generalize p.1.word = w at hword hvalue ⊢
      simp only [List.mem_cons, List.not_mem_nil, or_false] at hword
      rcases hword with rfl | rfl | rfl
      · have hx : some (.int 5) = some p.2 := hvalue
        simp [← Option.some.inj hx]
      · have hy : some (.int 1) = some p.2 := hvalue
        simp [← Option.some.inj hy]
      · have hz : Value.lookup (.text "z") spareEntries = some p.2 := hvalue
        have hthree : Value.lookup (.text "z") spareEntries = some (.int 3) := by
          simp [Value.lookup, spareEntries, Value.same, Value.same?, Value.outline, Outline.same?,
            Outline.identical, Outline.equal?, Atom.identical, Atom.equal?, Atom.number?, Atom.text?]
        rw [hthree] at hz
        simp [← Option.some.inj hz]

end Statement

end CypherCompose
