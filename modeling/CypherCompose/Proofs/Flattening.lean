import CypherCompose.Piece
import CypherCompose.Proofs.PatternReading
import CypherCompose.Proofs.Trace

/-!
# The paths of a pattern

`Value.flattened?` says which paths a value given as a pattern stands for, with the texts of the values in
their maps: a text is a node or a relationship by its position, a chain is a path, and the patterns of a
list follow each other, however deeply they are nested.  It knows nothing of errors, of parameters and of
tokens.

`flattened?_of_pathsOf`: what the reading of patterns accepts, it reads as these paths.  With
`readPaths_spell` it follows that the text of a pattern is read back as the paths the pattern stands for
(`readPaths_pattern`), so that patterns of one text stand for the same paths.
-/

namespace CypherCompose

namespace Value

/-! ## What is given -/

/-- The text of a value written as an expression and filled into a map. -/
def rendered? (v : Value) : Option String :=
  (Expr.ofValue v).outcome.toOption.map Expr.filledText

/-- A name that may be left out. -/
def givenName? : Value → Option (Option Name)
  | null => some none
  | v => (Name.ofValue? v).map some

/-- A bound of a range that may be left open. -/
def givenBound? : Value → Option (Option Nat)
  | null => some none
  | int n => if 0 ≤ n then some (some n.toNat) else none
  | _ => none

/-- Hops that may be left out: a number, or a pair of bounds. -/
def givenHops? : Value → Option (Option Hops)
  | null => some none
  | int n => if 0 ≤ n then some (some (.exactly n.toNat)) else none
  | tuple [min, max] => do some (some (.range (← min.givenBound?) (← max.givenBound?)))
  | list [min, max] => do some (some (.range (← min.givenBound?) (← max.givenBound?)))
  | _ => none

/-- The keys of a map with the texts of its values; what counts as false stands for no entries. -/
def givenProps? : Value → Option (List (Name × String))
  | map entries => entries.mapM fun e => do some (← Name.ofValue? e.1, ← e.2.rendered?)
  | v => if v.truth? = some false then some [] else none

/-- A node; a text is the name of one. -/
def givenNode? : Value → Option (Node String)
  | nodeRef name label props => do
      some ⟨← name.givenName?, ← label.givenName?, ← props.givenProps?⟩
  | v => if v.isText then do some ⟨← v.givenName?, none, []⟩ else none

/-- A relationship; a text is the type of one. -/
def givenRel? : Value → Option (Rel String)
  | relRef name type hops props => do
      some ⟨← name.givenName?, ← type.givenName?, ← hops.givenHops?, ← props.givenProps?⟩
  | v => if v.isText then do some ⟨none, ← v.givenName?, none, []⟩ else none

/-- The direction of a relationship, which the steps before and after it both give. -/
def givenDirection? (before after : Value) : Option Direction := do
  let s ← before.text?
  let t ← after.text?
  if s = t then Direction.ofText? s else none

/-- Relationships and nodes in turn, with the steps between them. -/
def givenLinks? : List Value → List Value → Option (List (Link String))
  | [], [] => some []
  | rel :: node :: elements, before :: after :: steps => do
      let link : Link String :=
        ⟨← givenDirection? before after, ← rel.givenRel?, ← node.givenNode?⟩
      some (link :: (← givenLinks? elements steps))
  | _, _ => none

/-- The path of a chain. -/
def givenPath? (elements steps : Value) : Option (Path String) := do
  match ← elements.items? with
  | start :: elements => some ⟨← start.givenNode?, ← givenLinks? elements (← steps.items?)⟩
  | [] => none

mutual

/-- The paths that a pattern stands for, from left to right. -/
def flattened? : Value → Option (List (Path String))
  | list items => flattenedAll? items
  | tuple items => flattenedAll? items
  | chain elements steps => (givenPath? elements steps).map ([·])
  | v => v.givenNode?.map fun n => [⟨n, []⟩]

/-- The paths of the patterns in a row. -/
def flattenedAll? : List Value → Option (List (Path String))
  | [] => some []
  | v :: vs => do some ((← v.flattened?) ++ (← flattenedAll? vs))

end

/-! ## What the reading takes -/

variable {v : Value} {rs : List Request}

theorem rendered?_of_ofValue {e : Expr} (h : Expr.ofValue v = ⟨rs, .ok e⟩) :
    v.rendered? = some e.filledText := by
  rw [rendered?, h]
  rfl

theorem givenName?_of_readName {role : NameRole} {owner : Value} {n : Option Name}
    (h : readName role owner v = ⟨rs, .ok n⟩) : v.givenName? = some n := by
  unfold readName at h
  unfold givenName?
  split at h
  · cases h
    rfl
  · simp only [Draft.bind_eq_ok, Draft.ofOption_eq_ok, Draft.pure_eq_ok] at h
    obtain ⟨_, n, _, ⟨hn, -⟩, ⟨rfl, -⟩, -⟩ := h
    simp [hn]

theorem givenBound?_of_readBound {rel : Value} {n : Option Nat} (h : readBound rel v = ⟨rs, .ok n⟩) :
    v.givenBound? = some n := by
  unfold readBound at h
  split at h
  · cases h
    rfl
  · split_ifs at h with hneg
    · cases h
    · obtain ⟨-, rfl, -⟩ := Draft.integer_bind_eq_ok.1 h
      exact if_pos (by omega)
  · cases h

theorem range_of_readRange {rel min max : Value} {hops : Option Hops}
    (h : readRange rel min max = ⟨rs, .ok hops⟩) :
    ∃ lo hi, min.givenBound? = some lo ∧ max.givenBound? = some hi ∧ hops = some (.range lo hi) := by
  unfold readRange at h
  simp only [Draft.bind_eq_ok] at h
  obtain ⟨_, lo, _, hlo, ⟨_, hi, _, hhi, h, -⟩, -⟩ := h
  refine ⟨lo, hi, givenBound?_of_readBound hlo, givenBound?_of_readBound hhi, ?_⟩
  split at h
  · split_ifs at h
    · cases h
    · exact (Draft.pure_eq_ok.1 h).1.symm
  · exact (Draft.pure_eq_ok.1 h).1.symm

theorem givenHops?_of_readHops {rel : Value} {hops : Option Hops}
    (h : readHops rel v = ⟨rs, .ok hops⟩) : v.givenHops? = some hops := by
  unfold readHops at h
  split at h
  · cases h
    rfl
  · split_ifs at h with hneg
    · cases h
    · obtain ⟨-, rfl, -⟩ := Draft.integer_bind_eq_ok.1 h
      exact if_pos (by omega)
  · obtain ⟨lo, hi, hlo, hhi, rfl⟩ := range_of_readRange h
    simp [givenHops?, hlo, hhi]
  · obtain ⟨lo, hi, hlo, hhi, rfl⟩ := range_of_readRange h
    simp [givenHops?, hlo, hhi]
  · cases h

theorem mapM_of_readEntries {whole : Value} {entries : List (Value × Value)} {es : List (Name × Expr)}
    (h : readEntries whole entries = ⟨rs, .ok es⟩) :
    entries.mapM (fun e => do some (← Name.ofValue? e.1, ← e.2.rendered?)) =
      some (mapValues Expr.filledText es) := by
  induction entries generalizing rs es with
  | nil =>
    rw [readEntries] at h
    cases h
    rfl
  | cons entry entries ih =>
    obtain ⟨k, v⟩ := entry
    rw [readEntries] at h
    simp only [Draft.bind_eq_ok, Draft.ofOption_eq_ok, Draft.pure_eq_ok] at h
    obtain ⟨_, key, _, ⟨hkey, -⟩, ⟨_, e, _, he, ⟨_, rest, _, hrest, ⟨rfl, -⟩, -⟩, -⟩, -⟩ := h
    rw [List.mapM_cons, ih hrest]
    simp [hkey, rendered?_of_ofValue he, mapValues]

theorem givenProps?_of_readProps {es : List (Name × Expr)} (h : readProps v = ⟨rs, .ok es⟩) :
    v.givenProps? = some (mapValues Expr.filledText es) := by
  unfold readProps at h
  split at h
  · exact mapM_of_readEntries h
  · rename_i _ hmap
    simp only [Draft.bind_eq_ok, Draft.ofMisuse_eq_ok] at h
    obtain ⟨_, b, _, ⟨hb, -⟩, h, -⟩ := h
    cases b with
    | true => cases h
    | false =>
      cases h
      have htruth : v.truth? = some false := by
        unfold truth at hb
        split at hb
        · cases hb
          assumption
        · cases hb
      unfold givenProps?
      split
      · exact (hmap _ rfl).elim
      · exact if_pos htruth

theorem givenNode?_of_readNode {name label props owner : Value} {n : Node Expr}
    (h : readNode name label (readProps props) owner = ⟨rs, .ok n⟩) :
    (nodeRef name label props).givenNode? = some (n.map Expr.filledText) := by
  simp only [readNode, Draft.bind_eq_ok, Draft.pure_eq_ok] at h
  obtain ⟨_, k, _, hk, ⟨_, l, _, hl, ⟨_, es, _, hes, ⟨rfl, -⟩, -⟩, -⟩, -⟩ := h
  simp [givenNode?, givenName?_of_readName hk, givenName?_of_readName hl,
    givenProps?_of_readProps hes, Node.map]

theorem givenRel?_of_readRel {name type hops props owner : Value} {r : Rel Expr}
    (h : readRel name type hops (readProps props) owner = ⟨rs, .ok r⟩) :
    (relRef name type hops props).givenRel? = some (r.map Expr.filledText) := by
  simp only [readRel, Draft.bind_eq_ok, Draft.pure_eq_ok] at h
  obtain ⟨_, k, _, hk, ⟨_, t, _, ht, ⟨_, hops, _, hhops, ⟨_, es, _, hes, ⟨rfl, -⟩, -⟩, -⟩, -⟩, -⟩ := h
  simp [givenRel?, givenName?_of_readName hk, givenName?_of_readName ht,
    givenHops?_of_readHops hhops, givenProps?_of_readProps hes, Rel.map]

theorem given_of_isText (h : v.isText = true) {n : Option Name} (hn : v.givenName? = some n) :
    v.givenNode? = some ⟨n, none, []⟩ ∧ v.givenRel? = some ⟨none, n, none, []⟩ := by
  cases v with
  | atom a => simp [givenNode?, givenRel?, h, hn]
  | _ => cases h

theorem givenNode?_of_namedNode (hv : v.isText = true) {n : Node Expr}
    (h : namedNode v = ⟨rs, .ok n⟩) : v.givenNode? = some (n.map Expr.filledText) := by
  simp only [namedNode, readNode, Draft.bind_eq_ok, Draft.pure_eq_ok, Draft.done_eq_ok] at h
  obtain ⟨_, k, _, hk, ⟨_, l, _, hl, ⟨_, es, _, ⟨rfl, -⟩, ⟨rfl, -⟩, -⟩, -⟩, -⟩ := h
  cases hl
  exact (given_of_isText hv (givenName?_of_readName hk)).1

theorem givenRel?_of_typedRel (hv : v.isText = true) {r : Rel Expr}
    (h : typedRel v = ⟨rs, .ok r⟩) : v.givenRel? = some (r.map Expr.filledText) := by
  simp only [typedRel, readRel, Draft.bind_eq_ok, Draft.pure_eq_ok, Draft.done_eq_ok] at h
  obtain ⟨_, k, _, hk, ⟨_, t, _, ht, ⟨_, hops, _, hhops, ⟨_, es, _, ⟨rfl, -⟩, ⟨rfl, -⟩, -⟩, -⟩, -⟩, -⟩ := h
  cases hk
  cases hhops
  exact (given_of_isText hv (givenName?_of_readName ht)).2

theorem givenNode?_of_station {chain : Value} {i : Nat} {n : Node Expr}
    (h : (readStation v).node chain i = ⟨rs, .ok n⟩) :
    v.givenNode? = some (n.map Expr.filledText) := by
  unfold readStation at h
  split at h
  · exact givenNode?_of_readNode h
  · cases h
  · unfold Station.plain at h
    split_ifs at h with htext
    · exact givenNode?_of_namedNode htext h
    · cases h

theorem text?_of_equal? {w : Value} {s : String} (hv : v.text? = some s)
    (h : v.equal? w = some true) : w.text? = some s := by
  cases v with
  | atom a =>
    cases w with
    | atom b =>
      have hab : a.equal? b = some true := by
        rwa [equal?, outline, outline, Outline.equal?] at h
      have ha : a.text? = some s := hv
      show b.text? = some s
      cases a <;> cases ha <;> cases b <;>
        simp_all [Atom.equal?, Atom.number?, Atom.text?]
    | _ => cases a <;> simp_all [text?, Atom.text?, equal?, outline, Outline.equal?]
  | _ => cases hv

theorem givenRel?_of_rel? {r : Rel Expr} (h : (readStation v).rel? = some ⟨rs, .ok r⟩) :
    v.givenRel? = some (r.map Expr.filledText) := by
  unfold readStation at h
  split at h
  · cases h
  · exact givenRel?_of_readRel (Option.some.inj h)
  · unfold Station.plain at h
    split_ifs at h with htext
    exact givenRel?_of_typedRel htext (Option.some.inj h)

theorem givenRel?_of_station {chain before after : Value} {i : Nat} {d : Direction} {r : Rel Expr}
    (h : (readStation v).link chain i before after = ⟨rs, .ok (d, r)⟩) :
    givenDirection? before after = some d ∧ v.givenRel? = some (r.map Expr.filledText) := by
  unfold Station.link at h
  split at h
  · cases h
  · rename_i draft hstation
    split at h
    · cases h
    · cases h
    · rename_i hequal
      simp only [Draft.bind_eq_ok, Draft.ofOption_eq_ok, Draft.pure_eq_ok, Prod.mk.injEq] at h
      obtain ⟨_, r, _, rfl, ⟨_, d, _, ⟨hd, -⟩, ⟨⟨rfl, rfl⟩, -⟩, -⟩, -⟩ := h
      obtain ⟨s, hs, hd⟩ := Option.bind_eq_some_iff.1 hd
      refine ⟨?_, givenRel?_of_rel? hstation⟩
      simp [givenDirection?, hs, text?_of_equal? hs hequal, hd]

/-- The links of a chain, two elements and two steps at a time. -/
theorem givenLinks?_of_readLinks {chain : Value} : ∀ {i : Nat} {elements steps : List Value}
    {rs : List Request} {ls : List (Link Expr)},
    readLinks chain i (elements.map readStation) steps = ⟨rs, .ok ls⟩ →
    steps.length = elements.length → elements.length % 2 = 0 →
    givenLinks? elements steps = some (ls.map (Link.map Expr.filledText))
  | _, [], [], _, _, h, _, _ => by
    cases h
    rfl
  | _, [_], _, _, _, _, _, heven => by cases heven
  | i, rel :: node :: elements, before :: after :: steps, _, _, h, hlength, heven => by
    simp only [List.map_cons, readLinks, Draft.bind_eq_ok, Draft.pure_eq_ok] at h
    obtain ⟨_, ⟨d, r⟩, _, hlink, ⟨_, n, _, hnode, ⟨_, ls, _, hlinks, ⟨rfl, -⟩, -⟩, -⟩, -⟩ := h
    obtain ⟨hd, hr⟩ := givenRel?_of_station hlink
    have hrest := givenLinks?_of_readLinks hlinks (by simpa using hlength)
      (by simp only [List.length_cons] at heven; omega)
    simp [givenLinks?, hd, hr, givenNode?_of_station hnode, hrest, Link.map]

theorem givenPath?_of_readChain {chain elements steps : Value} {es ss : List Value} {p : Path Expr}
    (hes : elements.items? = some es) (hss : steps.items? = some ss)
    (h : readChain chain (es.map readStation) ss = ⟨rs, .ok p⟩) :
    givenPath? elements steps = some (p.map Expr.filledText) := by
  cases es with
  | nil => cases h
  | cons start es =>
    simp only [List.map_cons, readChain, List.length_cons, List.length_map] at h
    split_ifs at h with hlength heven
    · cases h
    · cases h
    · simp only [Draft.bind_eq_ok, Draft.pure_eq_ok] at h
      obtain ⟨_, n, _, hnode, ⟨_, ls, _, hlinks, ⟨rfl, -⟩, -⟩, -⟩ := h
      have hrest := givenLinks?_of_readLinks hlinks (by simpa using hlength)
        (by simp only [beq_iff_eq] at heven; omega)
      simp [givenPath?, hes, hss, givenNode?_of_station hnode, hrest, Path.map]

theorem flattenedAll?_of_readPatterns {whole : Value} {vs : List Value} {ps : List (Path Expr)}
    (ih : ∀ v ∈ vs, ∀ {rs : List Request} {ps : List (Path Expr)}, pathsOf v = ⟨rs, .ok ps⟩ →
      v.flattened? = some (ps.map (Path.map Expr.filledText)) ∧ ps ≠ [])
    (h : readPatterns whole vs = ⟨rs, .ok ps⟩) :
    flattenedAll? vs = some (ps.map (Path.map Expr.filledText)) ∧ ps ≠ [] := by
  induction vs generalizing rs ps with
  | nil =>
    rw [readPatterns] at h
    cases h
  | cons v vs ihvs =>
    obtain ⟨ihv, ihrest⟩ := List.forall_mem_cons.1 ih
    cases vs with
    | nil =>
      rw [readPatterns] at h
      obtain ⟨hv, hne⟩ := ihv h
      simp [flattenedAll?, hv, hne]
    | cons w vs =>
      simp only [readPatterns, Draft.bind_eq_ok, Draft.pure_eq_ok] at h
      obtain ⟨_, ps, _, hps, ⟨_, qs, _, hqs, ⟨rfl, -⟩, -⟩, -⟩ := h
      obtain ⟨hv, hne⟩ := ihv hps
      obtain ⟨hvs, -⟩ := ihvs ihrest hqs
      rw [flattenedAll?, hv, hvs]
      simp [hne]

/-- What is read as paths stands for these paths, and there is at least one. -/
theorem flattened?_of_pathsOf (v : Value) {rs : List Request} {ps : List (Path Expr)}
    (h : pathsOf v = ⟨rs, .ok ps⟩) :
    v.flattened? = some (ps.map (Path.map Expr.filledText)) ∧ ps ≠ [] := by
  unfold pathsOf at h
  split at h
  · rw [flattened?]
    exact flattenedAll?_of_readPatterns (fun w _ => flattened?_of_pathsOf w) h
  · rw [flattened?]
    exact flattenedAll?_of_readPatterns (fun w _ => flattened?_of_pathsOf w) h
  · simp only [readElements?_eq_map, Draft.bind_eq_ok, Draft.ofOption_eq_ok, Draft.pure_eq_ok] at h
    obtain ⟨_, stations, _, ⟨hstations, -⟩, ⟨_, ss, _, ⟨hss, -⟩, ⟨_, p, _, hp, ⟨rfl, -⟩, -⟩, -⟩, -⟩ := h
    obtain ⟨es, hes, rfl⟩ := Option.map_eq_some_iff.1 hstations
    rw [flattened?, givenPath?_of_readChain hes hss hp]
    simp
  · simp only [Draft.bind_eq_ok, Draft.pure_eq_ok] at h
    obtain ⟨_, n, _, hn, ⟨rfl, -⟩, -⟩ := h
    simp [flattened?, givenNode?_of_readNode hn, Path.map]
  · cases h
  · split_ifs at h with htext
    · simp only [Draft.bind_eq_ok, Draft.pure_eq_ok] at h
      obtain ⟨_, n, _, hn, ⟨rfl, -⟩, -⟩ := h
      rw [flattened?, givenNode?_of_namedNode htext hn]
      · simp [Path.map]
      all_goals assumption
    · cases h
termination_by sizeOf v

end Value

/-! ## Reading back -/

/-- The text of a pattern is read back as the paths it stands for. -/
theorem readPaths_pattern (r : Registry) {v : Value} {ts : List Token}
    (h : (r.run (Piece.draft .pattern v)).1 = .ok ts) :
    ∃ ps, v.flattened? = some ps ∧
      ((∀ p ∈ ps, ∀ n ∈ p.names, n.IsLegible) → readPaths (Token.spell ts) = some ps) := by
  obtain ⟨hdraft, -⟩ := Registry.run_eq_ok (Prod.ext h rfl)
  obtain ⟨ps, hps, rfl⟩ :
      ∃ ps, pathsOf v = ⟨(Piece.draft .pattern v).requests, .ok ps⟩ ∧ pathTokens ps = ts :=
    Draft.map_eq_ok.1 hdraft
  obtain ⟨hflat, hne⟩ := Value.flattened?_of_pathsOf v hps
  refine ⟨_, hflat, fun hnames => readPaths_spell hne fun p hp => ?_⟩
  have hlegible := hnames _ (List.mem_map_of_mem hp)
  rwa [Path.names_map] at hlegible

/-- Nested lists, a chain in every direction, texts by position, and names and values that hold brackets,
commas and quotes. -/
def tangledPattern : Value :=
  .list [
    .text "a",
    .tuple [
      .chain
        (.list [
          .nodeRef (.text "m, (n") (.text "La\x60bel")
            (.map [(.text "k\x7d", .text "')], x"),
              (.text "xs", .list [.int 1, .param (.text "p") .null])]),
          .relRef (.text "r") (.text "KNOWS") (.tuple [.int 1, .null])
            (.map [(.text "seen", .existence (.chain (.list [.text "b", .text "]-(", .text "c"])
              (.list [.text "backward", .text "backward"])))]),
          .text "b",
          .text "LIKES",
          .nodeRef .null .null (.map []),
          .relRef .null .null (.int 3) .null,
          .nodeRef .null (.text "n") .null])
        (.tuple [.text "forward", .atom (.direction .forward), .text "backward", .text "backward",
          .text "undirected", .text "undirected"])]]

/-- The paths of that pattern. -/
def tangledPaths : List (Path String) :=
  [⟨⟨some ⟨.plain "a", by decide⟩, none, []⟩, []⟩,
    ⟨⟨some ⟨.plain "m, (n", by decide⟩, some ⟨.plain "La\x60bel", by decide⟩,
        [(⟨.plain "k\x7d", by decide⟩, "'\\')], x'"), (⟨.plain "xs", by decide⟩, "[1, $p]")]⟩,
      [⟨.forward,
          ⟨some ⟨.plain "r", by decide⟩, some ⟨.plain "KNOWS", by decide⟩, some (.range (some 1) none),
            [(⟨.plain "seen", by decide⟩, "EXISTS \x7b MATCH (b)<-[:\x60]-(\x60]-(c) \x7d")]⟩,
          ⟨some ⟨.plain "b", by decide⟩, none, []⟩⟩,
        ⟨.backward, ⟨none, some ⟨.plain "LIKES", by decide⟩, none, []⟩, ⟨none, none, []⟩⟩,
        ⟨.undirected, ⟨none, none, some (.exactly 3), []⟩, ⟨none, some ⟨.plain "n", by decide⟩, []⟩⟩]⟩]

/-- The text of that pattern. -/
def tangledText : String :=
  "(a), (\x60m, (n\x60:\x60La\x60\x60bel\x60 \x7b\x60k\x7d\x60: '\\')], x', xs: [1, $p]\x7d)" ++
    "-[r:KNOWS*1.. \x7bseen: EXISTS \x7b MATCH (b)<-[:\x60]-(\x60]-(c) \x7d\x7d]->(b)" ++
    "<-[:LIKES]-()-[*3]-(:n)"

theorem readPaths_pattern_tangledPattern :
    ∃ ts, (Registry.empty.run (Piece.draft .pattern tangledPattern)).1 = .ok ts ∧
      Token.spell ts = tangledText ∧
      tangledPattern.flattened? = some tangledPaths ∧
      readPaths tangledText = some tangledPaths := by
  have htext : (Registry.empty.run (Piece.draft .pattern tangledPattern)).1.toOption.map Token.spell =
      some tangledText := by
    decide +kernel
  have hpaths : tangledPattern.flattened? = some tangledPaths := by decide +kernel
  obtain ⟨ts, hts, hspell⟩ := Option.map_eq_some_iff.1 htext
  obtain ⟨ps, hps, hread⟩ := readPaths_pattern Registry.empty (eq_ok_of_toOption hts)
  obtain rfl : tangledPaths = ps := Option.some.inj (hpaths.symm.trans hps)
  refine ⟨ts, eq_ok_of_toOption hts, hspell, hpaths, ?_⟩
  rw [← hspell]
  exact hread (by decide +kernel)

end CypherCompose
