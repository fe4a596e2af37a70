import CypherCompose.Proofs.ClauseTrace
import CypherCompose.Statement

/-!
# Strings and names stay in their quotes

Whatever a query holds, the text of its statement is read back piece by piece: each string of the
query is one string of the text, each name that needs quotes is one quoted name, in the order in which
they are written, and nothing of either gets out.  The brackets around them are balanced.
-/

namespace CypherCompose

namespace Statement

variable {query parameters override : Value} {s : Statement}

/-- A statement is the text of the clauses that were read, with the table that their parameters
leave. -/
theorem compile_eq_ok :
    compile query parameters override = .ok s ↔
      ∃ clauses rs cs r, Query.clausesOf query = .ok clauses ∧
        Query.checkClauses .statement (.list clauses) clauses = .ok () ∧
        readClauses clauses = ⟨rs, .ok cs⟩ ∧ Registry.empty.enterAll rs = (r, none) ∧
        (r.finalize parameters).1 = .ok s.parameters ∧
        Query.inferMode (.list clauses) override = .ok s.mode ∧
        s.text = Token.spell (Clause.renderAll cs) := by
  unfold compile
  constructor
  · intro h
    split at h
    · cases h
    · rename_i clauses hclauses
      unfold ofClauses at h
      cases hcheck : Query.checkClauses .statement (.list clauses) clauses with
      | error e =>
        rw [hcheck] at h
        cases h
      | ok u =>
        rcases hrun : Registry.empty.run (readClauses clauses) with ⟨e | cs, r⟩
        · rw [hcheck, hrun] at h
          cases h
        · obtain ⟨hread, henter⟩ := Registry.run_eq_ok hrun
          cases htable : (r.finalize parameters).1 with
          | error e =>
            simp only [hcheck, hrun, htable] at h
            cases h
          | ok table =>
            simp only [hcheck, hrun, htable] at h
            cases hmode : Query.inferMode (.list clauses) override with
            | error m =>
              simp only [hmode] at h
              cases h
            | ok mode =>
              simp only [hmode] at h
              cases h
              exact ⟨clauses, _, cs, r, hclauses, hcheck, hread, henter, htable, hmode, rfl⟩
  · rintro ⟨clauses, rs, cs, r, hclauses, hcheck, hread, henter, htable, hmode, htext⟩
    have hrun : Registry.empty.run (readClauses clauses) = (.ok cs, r) := by
      rw [Registry.run, hread, henter]
    obtain ⟨text, table, mode⟩ := s
    cases htext
    simp only [hclauses, ofClauses, hcheck, hrun, htable, hmode]
    rfl

/-- A statement's text has the leaves of its query, and its table comes from the parameters among
them. -/
theorem exists_traces (h : compile query parameters override = .ok s) :
    ∃ rs cs r, Traces (Query.leaves query) rs (Token.leaves (Clause.renderAll cs)) ∧
      Registry.empty.enterAll rs = (r, none) ∧ (r.finalize parameters).1 = .ok s.parameters ∧
      s.text = Token.spell (Clause.renderAll cs) := by
  obtain ⟨clauses, rs, cs, r, hclauses, -, hread, henter, htable, -, htext⟩ := compile_eq_ok.1 h
  refine ⟨rs, cs, r, ?_, henter, htable, htext⟩
  rw [← Query.clauseLeavesAll_clausesOf hclauses]
  exact Traces.clauses hread

/-- The statement of a query reads back as the query's strings and quoted names, with balanced
brackets around them. -/
theorem scan_compile (h : compile query parameters override = .ok s) :
    ∃ ms, scan s.text = some ms ∧ Balanced ms ∧
      ms.filterMap Mark.string? = (Query.leaves query).filterMap Leaf.string? ∧
      ms.filterMap Mark.quoted? =
        ((Query.leaves query).filterMap Leaf.name?).filter fun n => !Identifier.isPlain n := by
  obtain ⟨rs, cs, -, htraces, -, -, htext⟩ := exists_traces h
  have hfragment := Clause.fragment_renderAll cs
  refine ⟨(Clause.renderAll cs).flatMap Token.marks, ?_, hfragment.nested [], ?_, ?_⟩
  · rw [htext]
    exact scan_spell hfragment
  · rw [Token.strings_marks, htraces.leaves, List.filterMap_map]
    exact List.filterMap_congr fun l _ => Leaf.string?_map _ l
  · rw [Token.quoted_marks, htraces.leaves, List.filterMap_map]
    refine congrArg (List.filter _) ?_
    exact List.filterMap_congr fun l _ => Leaf.name?_map _ l

/-- A query whose strings and names hold quotes and brackets of every kind. -/
def quotedQuery : Value :=
  .list [
    .clause (.loadCsv true (.text "it's \\ csv") (.text "a row") (.text "\x60")),
    .clause (.matching false
      (.nodeRef (.text "n") (.text "La\x60bel") (.map [(.text "k'", .text "')")]))),
    .clause (.filter (.binary (.text "or") (.text "\"") (.var (.text "(")))),
    .clause (.returning (.list [.var (.text "*")]) (.bool false))]

/-- The text of that query. -/
def quotedText : String :=
  "LOAD CSV WITH HEADERS FROM 'it\\'s \\\\ csv' AS \x60a row\x60 FIELDTERMINATOR '\x60' " ++
    "MATCH (n:\x60La\x60\x60bel\x60 \x7b\x60k'\x60: '\\')'\x7d) WHERE ('\"' OR \x60(\x60) RETURN *"

theorem scan_compile_quotedQuery :
    ∃ s ms, compile quotedQuery .null .null = .ok s ∧
      s.text = quotedText ∧
      scan s.text = some ms ∧ Balanced ms ∧
      ms.filterMap Mark.string? = ["it's \\ csv", "\x60", "')", "\""] ∧
      ms.filterMap Mark.quoted? = ["a row", "La\x60bel", "k'", "("] := by
  have htext : (compile quotedQuery .null .null).toOption.map (·.text) = some quotedText := by
    decide +kernel
  cases h : compile quotedQuery .null .null with
  | error e =>
    rw [h] at htext
    cases htext
  | ok s =>
    rw [h] at htext
    obtain ⟨ms, hscan, hbalanced, hstrings, hquoted⟩ := scan_compile h
    refine ⟨s, ms, rfl, Option.some.inj htext, hscan, hbalanced, hstrings.trans ?_, hquoted.trans ?_⟩
    · decide +kernel
    · decide +kernel

end Statement

end CypherCompose
