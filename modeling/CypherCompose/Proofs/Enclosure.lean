import CypherCompose.Proofs.Fragment
import CypherCompose.Proofs.Induction

/-!
# Whatever is rendered is a fragment

Every pattern, expression and clause is written as a `Fragment`: its text keeps to itself, whatever
names and strings it holds.
-/

namespace CypherCompose

open Token

namespace Fragment

/-! ## Patterns -/

/-- What stands between the braces of a map. -/
theorem entries {entries : List (Name × List Token)} (h : ∀ e ∈ entries, Fragment e.2) :
    Fragment (Token.commas
      (entries.map fun e => filledName e.1 :: sym ":" :: blank :: Token.fill e.2)) := by
  refine commas fun ts hts => ?_
  obtain ⟨e, he, rfl⟩ := List.mem_map.1 hts
  have hvalue : Fragment (blank :: Token.fill e.2) := (h e he).fill.cons rfl rfl rfl
  exact (token rfl rfl : Fragment [filledName e.1]).join hvalue rfl rfl rfl

theorem renderMap {entries : List (Name × List Token)} (h : ∀ e ∈ entries, Fragment e.2) :
    Fragment (renderMap entries) :=
  (Fragment.entries h).bracket (by simp [brackets])

theorem renderProps {entries : List (Name × List Token)} (h : ∀ e ∈ entries, Fragment e.2) :
    Fragment (renderProps entries) := by
  unfold CypherCompose.renderProps
  split_ifs
  · exact nil
  · exact (renderMap h).cons rfl rfl rfl

theorem startsLoose_renderProps (entries : List (Name × List Token)) :
    StartsLoose (CypherCompose.renderProps entries) := by
  unfold CypherCompose.renderProps
  split_ifs
  · exact fun t ht => by cases ht
  · exact fun t ht => Option.some.inj ht ▸ rfl

theorem renderName (n : Option Name) : Fragment (renderName n) := by
  cases n with
  | none => exact nil
  | some n => exact token rfl rfl

theorem renderLabel (n : Option Name) : Fragment (renderLabel n) := by
  cases n with
  | none => exact nil
  | some n => exact (token rfl rfl).cons rfl rfl rfl

theorem startsLoose_renderLabel (n : Option Name) : StartsLoose (CypherCompose.renderLabel n) := by
  cases n with
  | none => exact fun t ht => by cases ht
  | some n => exact fun t ht => Option.some.inj ht ▸ rfl

theorem renderBound (n : Option Nat) : Fragment (renderBound n) := by
  cases n with
  | none => exact nil
  | some n => exact token rfl rfl

theorem renderHops (h : Option Hops) : Fragment (renderHops h) := by
  rcases h with _ | ⟨n⟩ | ⟨min, max⟩
  · exact nil
  · exact (token rfl rfl).cons rfl rfl rfl
  · have hrange : Fragment (sym "*" :: (CypherCompose.renderBound min ++ [sym ".."]
        ++ CypherCompose.renderBound max)) := by
      rw [List.append_assoc]
      exact ((renderBound min).join (renderBound max) rfl rfl rfl).cons rfl rfl rfl
    cases min <;> cases max <;> first | exact hrange | exact token rfl rfl

theorem startsLoose_renderHops (h : Option Hops) : StartsLoose (CypherCompose.renderHops h) := by
  rcases h with _ | ⟨n⟩ | ⟨_ | min, _ | max⟩
  · exact fun t ht => by cases ht
  all_goals exact fun t ht => Option.some.inj ht ▸ rfl

/-- What stands between the parentheses of a node. -/
theorem nodeInside {n : Node (List Token)} (h : ∀ ts ∈ n.values, Fragment ts) :
    Fragment (CypherCompose.renderName n.name ++ CypherCompose.renderLabel n.label
      ++ CypherCompose.renderProps n.props) := by
  have hprops : Fragment (CypherCompose.renderProps n.props) :=
    renderProps fun e he => h e.2 (List.mem_map_of_mem he)
  have hlabel : Fragment (CypherCompose.renderName n.name ++ CypherCompose.renderLabel n.label) :=
    (renderName n.name).append (renderLabel n.label) (.inr (startsLoose_renderLabel n.label))
  exact hlabel.append hprops (.inr (startsLoose_renderProps n.props))

theorem node {n : Node (List Token)} (h : ∀ ts ∈ n.values, Fragment ts) : Fragment n.render :=
  (nodeInside h).bracket (by simp [brackets])

theorem startsLoose_node (n : Node (List Token)) : StartsLoose n.render :=
  fun _ ht => Option.some.inj ht ▸ rfl

theorem endsLoose_append {ts us : List Token} (h : EndsLoose us) (hne : us ≠ []) :
    EndsLoose (ts ++ us) := by
  intro t ht
  rw [List.getLast?_append_of_ne_nil _ hne] at ht
  exact h t ht

theorem endsLoose_concat (ts : List Token) {t : Token} (h : t.isLoose = true) :
    EndsLoose (ts ++ [t]) :=
  endsLoose_append (fun _ ht => Option.some.inj ht ▸ h) (by simp)

theorem endsLoose_node (n : Node (List Token)) : EndsLoose n.render :=
  endsLoose_concat (sym "(" :: (CypherCompose.renderName n.name ++ CypherCompose.renderLabel n.label
    ++ CypherCompose.renderProps n.props)) rfl

theorem rel {r : Rel (List Token)} (h : ∀ ts ∈ r.values, Fragment ts) : Fragment r.render := by
  have hprops : Fragment (CypherCompose.renderProps r.props) :=
    renderProps fun e he => h e.2 (List.mem_map_of_mem he)
  have htype : Fragment (CypherCompose.renderName r.name ++ CypherCompose.renderLabel r.type) :=
    (renderName r.name).append (renderLabel r.type) (.inr (startsLoose_renderLabel r.type))
  have hhops := htype.append (renderHops r.hops) (.inr (startsLoose_renderHops r.hops))
  exact hhops.append hprops (.inr (startsLoose_renderProps r.props))

theorem link {l : Link (List Token)} (h : ∀ ts ∈ l.values, Fragment ts) : Fragment l.render := by
  obtain ⟨d, r, n⟩ := l
  have hr : Fragment (sym "[" :: (r.render ++ [sym "]"])) :=
    (rel fun ts hts => h ts (List.mem_append_left _ hts)).bracket (by simp [brackets])
  have hn : Fragment n.render := node fun ts hts => h ts (List.mem_append_right _ hts)
  have hstarts : StartsLoose (sym "[" :: (r.render ++ [sym "]"])) :=
    fun _ ht => Option.some.inj ht ▸ rfl
  -- an arrow on either side of the brackets, whichever the direction asks for
  have harrows : ∀ a b : String, (sym a).isKnown = true → (sym a).isBracket = false →
      (sym b).isKnown = true → (sym b).isBracket = false →
      Fragment ([sym a, sym "["] ++ r.render ++ [sym "]", sym b] ++ n.render) := by
    intro a b ha ha' hb hb'
    have hleft := (token ha ha').append hr (.inr hstarts)
    have hlink := hleft.append (token hb hb')
      (.inl (endsLoose_concat (sym a :: sym "[" :: r.render) rfl))
    simpa using hlink.append hn (.inr (startsLoose_node n))
  cases d with
  | forward => exact harrows "-" "->" rfl rfl rfl rfl
  | backward => exact harrows "<-" "-" rfl rfl rfl rfl
  | undirected => exact harrows "-" "-" rfl rfl rfl rfl

theorem path {p : Path (List Token)} (h : ∀ ts ∈ p.values, Fragment ts) : Fragment p.render := by
  obtain ⟨start, links⟩ := p
  have hlinks : ∀ (links : List (Link (List Token))) {ts : List Token},
      (∀ l ∈ links, Fragment l.render) → Fragment ts → EndsLoose ts →
      Fragment (ts ++ links.flatMap Link.render) := by
    intro links
    induction links with
    | nil => exact fun _ hts _ => by simpa using hts
    | cons l links ih =>
      intro ts hl hts hends
      have hl' := hts.append (hl l (by simp)) (.inl hends)
      have := ih (fun m hm => hl m (by simp [hm])) hl' (by
        rw [Link.render, ← List.append_assoc]
        exact endsLoose_append (endsLoose_node l.node) (by simp [Node.render]))
      simpa using this
  refine hlinks links (fun l hl => link fun ts hts => ?_) (node fun ts hts => ?_)
    (endsLoose_node start)
  · exact h ts (List.mem_append_right _ (List.mem_flatMap.2 ⟨l, hl, hts⟩))
  · exact h ts (List.mem_append_left _ hts)

theorem renderPaths {ps : List (Path (List Token))} (h : ∀ p ∈ ps, ∀ ts ∈ p.values, Fragment ts) :
    Fragment (renderPaths ps) := by
  refine commas fun ts hts => ?_
  obtain ⟨p, hp, rfl⟩ := List.mem_map.1 hts
  exact path (h p hp)

/-! ## Expressions -/

theorem guarded {r : Rendering} (h : Fragment r.tokens) (needed : Bool) :
    Fragment (r.guarded needed) := by
  unfold Rendering.guarded
  split_ifs
  · exact h.parens
  · exact h.fill

theorem signed (negative : Bool) {t : Token} (hk : t.isKnown = true) (hb : t.isBracket = false) :
    Fragment (signed negative t) := by
  unfold CypherCompose.signed
  split_ifs
  · exact (token hk hb).cons rfl rfl rfl
  · exact token hk hb

theorem renderCase {branches : List (List Token × List Token)} {default : Option (List Token)}
    (hb : ∀ b ∈ branches, Fragment b.1 ∧ Fragment b.2) (hd : ∀ d ∈ default, Fragment d) :
    Fragment (renderCase branches default) := by
  refine blanks fun ts hts => ?_
  simp only [List.mem_append, List.mem_singleton, List.mem_map] at hts
  rcases hts with ((rfl | ⟨b, hmem, rfl⟩) | hts) | rfl
  · exact token rfl rfl
  · exact ((hb b hmem).1.fill.between (hb b hmem).2.fill rfl rfl).keyword rfl rfl
  · cases default with
    | none => cases hts
    | some d =>
      obtain rfl := List.mem_singleton.1 hts
      exact (hd d rfl).fill.keyword rfl rfl
  · exact token rfl rfl

end Fragment

theorem BinaryOp.isKnown_token (op : BinaryOp) :
    (sym op.token).isKnown = true ∧ (sym op.token).isBracket = false := by
  cases op <;> exact ⟨rfl, rfl⟩

/-- A rendering whose text and whose operands of an OR are fragments. -/
structure Rendering.Enclosed (r : Rendering) : Prop where
  tokens : Fragment r.tokens
  disjuncts : ∀ ts ∈ r.disjuncts, Fragment ts

namespace Rendering.Enclosed

theorem single {ts : List Token} (h : Fragment ts) (prec : Prec) :
    Enclosed (.single prec ts) where
  tokens := h
  disjuncts us hus := by
    obtain rfl := List.mem_singleton.1 hus
    exact h

theorem binary {l r : Rendering} (hl : Enclosed l) (hr : Enclosed r) (op : BinaryOp)
    (regroups : Bool) : Enclosed (.binary op l r regroups) := by
  unfold Rendering.binary
  split_ifs with hop
  · have hparts : ∀ ts ∈ l.disjuncts ++ r.disjuncts, Fragment ts :=
      List.forall_mem_append.2 ⟨hl.disjuncts, hr.disjuncts⟩
    refine ⟨?_, hparts⟩
    have hjoined : Fragment (List.intercalate [blank, sym BinaryOp.or.token, blank]
        (l.disjuncts ++ r.disjuncts)) :=
      Fragment.intercalate (fun ht hu => ht.between hu rfl rfl) hparts
    exact hjoined.bracket (by simp [Fragment.brackets])
  · obtain ⟨hk, hb⟩ := op.isKnown_token
    exact single ((hl.tokens.guarded _).between (hr.tokens.guarded _) hk hb) _

theorem unary {r : Rendering} (h : Enclosed r) (op : UnaryOp) : Enclosed (.unary op r) := by
  cases op with
  | not => exact single ((h.tokens.guarded true).keyword rfl rfl) _
  | neg => exact single ((h.tokens.guarded _).cons rfl rfl rfl) _
  | isNull =>
    exact single ((h.tokens.guarded _).join (.token rfl rfl : Fragment [sym "IS NULL"]) rfl rfl rfl) _
  | isNotNull =>
    exact single
      ((h.tokens.guarded _).join (.token rfl rfl : Fragment [sym "IS NOT NULL"]) rfl rfl rfl) _

end Rendering.Enclosed

namespace Expr

open Rendering (Enclosed)

theorem enclosed_rendering (e : Expr) : e.rendering.Enclosed := by
  induction e using Expr.induct with
  | null => exact .single (.token rfl rfl) _
  | bool b => cases b <;> exact .single (.token rfl rfl) _
  | int n => exact .single (.signed _ rfl rfl) _
  | float x => exact .single (.signed _ rfl rfl) _
  | text s => exact .single (.token rfl rfl) _
  | star => exact .single (.token rfl rfl) _
  | var n => exact .single (.token rfl rfl) _
  | property owner key =>
    exact .single ((.token rfl rfl : Fragment [filledName owner]).join
      (.token rfl rfl : Fragment [filledName key]) rfl rfl rfl) _
  | param p => exact .single (.token rfl rfl) _
  | list items ih =>
    rw [rendering, renderAll_eq_map]
    refine .single ((Fragment.commas fun ts hts => ?_).bracket (by simp [Fragment.brackets])) _
    obtain ⟨e, he, rfl⟩ := List.mem_map.1 hts
    exact (ih e he).tokens
  | map entries ih =>
    rw [rendering, renderEntries_eq_mapValues]
    refine .single (Fragment.renderMap fun e he => ?_) _
    obtain ⟨entry, hentry, rfl⟩ := List.mem_map.1 he
    exact (ih entry hentry).tokens
  | binary op l r ihl ihr =>
    rw [rendering]
    exact ihl.binary ihr op _
  | unary op e ih =>
    rw [rendering]
    exact ih.unary op
  | call f d args ih =>
    rw [rendering, renderAll_eq_map]
    have hargs : Fragment (commas (args.map render)) := Fragment.commas fun ts hts => by
      obtain ⟨e, he, rfl⟩ := List.mem_map.1 hts
      exact (ih e he).tokens
    have hinside :
        Fragment ((if d then [sym "DISTINCT", blank] else []) ++ commas (args.map render)) := by
      cases d with
      | false => exact hargs
      | true => exact hargs.keyword rfl rfl
    have hcall := hinside.bracket (o := "(") (c := ")") (by simp [Fragment.brackets])
    exact .single ((.token rfl rfl : Fragment [function f]).append hcall
      (.inr fun _ ht => Option.some.inj ht ▸ rfl)) _
  | case branches default ihb ihd =>
    rw [rendering, renderBranches_eq_map, renderOption_eq_map]
    refine .single (Fragment.renderCase (fun b hb => ?_) fun d hd => ?_) _
    · obtain ⟨branch, hbranch, rfl⟩ := List.mem_map.1 hb
      exact ⟨(ihb branch hbranch).1.tokens, (ihb branch hbranch).2.tokens⟩
    · obtain ⟨e, he, rfl⟩ := Option.map_eq_some_iff.1 hd
      exact (ihd e he).tokens
  | existence paths ih =>
    rw [rendering, renderPathList_eq_map]
    have hpaths : Fragment (CypherCompose.renderPaths (paths.map (Path.map render))) := by
      refine Fragment.renderPaths fun p hp ts hts => ?_
      obtain ⟨path, hpath, rfl⟩ := List.mem_map.1 hp
      rw [Path.values_map] at hts
      obtain ⟨e, he, rfl⟩ := List.mem_map.1 hts
      exact (ih path hpath e he).tokens
    have hinside := ((hpaths.keyword (t := sym "MATCH") rfl rfl).cons (t := blank) rfl rfl rfl).join
      .nil (t := blank) rfl rfl rfl
    have hbraces := hinside.bracket (o := "\x7b") (c := "\x7d") (by simp [Fragment.brackets])
    refine .single ?_ _
    simpa using hbraces.keyword (t := sym "EXISTS") rfl rfl
  | enclosed e ih => exact .single ih.tokens _

theorem fragment_render (e : Expr) : Fragment e.render :=
  e.enclosed_rendering.tokens

end Expr

theorem fragment_pathTokens (ps : List (Path Expr)) : Fragment (pathTokens ps) := by
  rw [pathTokens, Expr.renderPathList_eq_map]
  refine Fragment.renderPaths fun p hp ts hts => ?_
  obtain ⟨p, -, rfl⟩ := List.mem_map.1 hp
  rw [Path.values_map] at hts
  obtain ⟨e, -, rfl⟩ := List.mem_map.1 hts
  exact e.fragment_render

/-! ## Clauses -/

namespace Fragment

theorem commas_map {α : Type} {f : α → List Token} (h : ∀ a, Fragment (f a)) (xs : List α) :
    Fragment (Token.commas (xs.map f)) := by
  refine commas fun ts hts => ?_
  obtain ⟨a, -, rfl⟩ := List.mem_map.1 hts
  exact h a

theorem named {ts : List Token} (h : Fragment ts) (n : Name) :
    Fragment (ts ++ [blank, sym "AS", blank, filledName n]) := by
  have hn : Fragment [filledName n] := token rfl rfl
  exact h.join (hn.keyword rfl rfl) rfl rfl rfl

theorem flagged {ts : List Token} (h : Fragment ts) (flag : Bool) {keyword : String}
    (hk : (sym keyword).isKnown = true) (hb : (sym keyword).isBracket = false) :
    Fragment (flagged flag keyword ++ ts) := by
  cases flag with
  | false => exact h
  | true => exact h.keyword hk hb

theorem assignment (a : Assignment) : Fragment a.render :=
  a.target.fragment_render.fill.between a.value.fragment_render.fill rfl rfl

theorem assignments (as : List Assignment) : Fragment (renderAssignments as) :=
  commas_map assignment as

theorem sortKey (k : SortKey) : Fragment k.render := by
  obtain ⟨e, o⟩ := k
  cases o with
  | none => exact e.fragment_render
  | some o =>
    have ho : Fragment [sym o.keyword] := by cases o <;> exact token rfl rfl
    exact e.fragment_render.fill.join ho rfl rfl rfl

theorem projection (p : Projection) : Fragment p.render := by
  obtain ⟨e, n⟩ := p
  cases n with
  | none => exact e.fragment_render
  | some n => exact e.fragment_render.fill.named n

theorem projections (ps : List Projection) : Fragment (renderProjections ps) := by
  unfold renderProjections
  split_ifs
  · exact token rfl rfl
  · exact commas_map projection ps

theorem removal (r : Removal) : Fragment r.render := by
  cases r with
  | property e => exact e.fragment_render
  | label n l =>
    exact (token rfl rfl : Fragment [filledName n]).join (token rfl rfl : Fragment [filledName l])
      rfl rfl rfl

theorem rowCount (c : RowCount) : Fragment c.render := by
  cases c <;> exact token rfl rfl

theorem csvSource (s : CsvSource) : Fragment s.render := by
  cases s <;> exact token rfl rfl

theorem key (k : Name) : Fragment (renderKey k) :=
  (token rfl rfl : Fragment [sym "n"]).join (token rfl rfl : Fragment [filledName k]) rfl rfl rfl

theorem head {what : String} (hk : (sym what).isKnown = true) (hb : (sym what).isBracket = false)
    (n : Option Name) (ifNotExists : Bool) : Fragment (renderHead what n ifNotExists) := by
  have hwhat : Fragment [sym "CREATE", blank, sym what] := (token hk hb).keyword rfl rfl
  have hguard : ∀ {ts : List Token}, Fragment ts →
      Fragment (ts ++ if ifNotExists then [blank, sym "IF NOT EXISTS"] else []) := by
    intro ts hts
    cases ifNotExists with
    | false => simpa using hts
    | true => exact hts.join (token rfl rfl : Fragment [sym "IF NOT EXISTS"]) rfl rfl rfl
  cases n with
  | none => exact hguard hwhat
  | some n => exact hguard (hwhat.join (token rfl rfl : Fragment [name n]) rfl rfl rfl)

/-- The start of a definition and the nodes it is for, in front of what it defines. -/
theorem definition {ts us : List Token} (hts : Fragment ts) (hus : Fragment us) (label : Name) :
    Fragment (ts ++ renderFor label ++ us) := by
  have hnode : Fragment (sym "(" :: ([sym "n", sym ":", filledName label] ++ [sym ")"])) :=
    ((token rfl rfl : Fragment [sym "n"]).join (token rfl rfl : Fragment [filledName label])
      rfl rfl rfl).bracket (by simp [brackets])
  have hfor := (hnode.join hus (t := blank) rfl rfl rfl).keyword (t := sym "FOR") rfl rfl
  simpa [renderFor] using hts.join hfor (t := blank) rfl rfl rfl

theorem demand (kind : Constraint) (properties : List Name) :
    Fragment (renderDemand kind properties) := by
  have hkeys : ∀ ks : List Name,
      Fragment (sym "(" :: (Token.commas (ks.map renderKey) ++ [sym ")"])) :=
    fun ks => (commas_map key ks).bracket (by simp [brackets])
  have hdemand : ∀ {ts}, Fragment ts → Fragment (ts ++ [blank, sym "IS NOT NULL"]) ∧
      Fragment (ts ++ [blank, sym "IS UNIQUE"]) := by
    intro ts hts
    have hnull : Fragment [sym "IS NOT NULL"] := token rfl rfl
    have hunique : Fragment [sym "IS UNIQUE"] := token rfl rfl
    exact ⟨hts.join hnull rfl rfl rfl, hts.join hunique rfl rfl rfl⟩
  -- only a single key stands without parentheses
  rcases properties with _ | ⟨k, _ | ⟨k', ks⟩⟩
  · cases kind
    · exact (hdemand (hkeys [])).2
    · exact (hdemand (hkeys [])).1
  · cases kind
    · exact (hdemand (key k)).2
    · exact (hdemand (key k)).1
  · cases kind
    · exact (hdemand (hkeys (k :: k' :: ks))).2
    · exact (hdemand (hkeys (k :: k' :: ks))).1

theorem drop (n : Name) {what : String} (hk : (sym what).isKnown = true)
    (hb : (sym what).isBracket = false) : Fragment (renderDrop what n) := by
  have hguard : Fragment [filledName n, blank, sym "IF EXISTS"] := (token rfl rfl).keyword rfl rfl
  exact (hguard.keyword hk hb).keyword rfl rfl

end Fragment

namespace Clause

open Fragment

mutual

theorem fragment_render : ∀ c : Clause, Fragment c.render
  | matching optional paths =>
    ((fragment_pathTokens paths).keyword rfl rfl).flagged optional rfl rfl
  | filter condition => condition.fragment_render.keyword rfl rfl
  | returning distinct items => ((projections items).flagged distinct rfl rfl).keyword rfl rfl
  | passing distinct items => ((projections items).flagged distinct rfl rfl).keyword rfl rfl
  | unwind source n => (source.fragment_render.fill.named n).keyword rfl rfl
  | create paths => (fragment_pathTokens paths).keyword rfl rfl
  | merge paths => (fragment_pathTokens paths).keyword rfl rfl
  | set as => (assignments as).keyword rfl rfl
  | onMerge .onCreate as => (assignments as).keyword rfl rfl
  | onMerge .onMatch as => (assignments as).keyword rfl rfl
  | remove items => (commas_map removal items).keyword rfl rfl
  | delete detach items =>
    ((commas_map Expr.fragment_render items).keyword rfl rfl).flagged detach rfl rfl
  | orderBy keys => (commas_map sortKey keys).keyword rfl rfl
  | skip count => (rowCount count).keyword rfl rfl
  | limit count => (rowCount count).keyword rfl rfl
  | union false => token rfl rfl
  | union true => token rfl rfl
  | subquery body => by
    have hbody : Fragment (blank :: (Token.blanks (renderEach body) ++ [blank])) :=
      ((blanks (fragment_renderEach body)).join nil rfl rfl rfl).cons rfl rfl rfl
    have hbraces := hbody.bracket (o := "\x7b") (c := "\x7d") (by simp [brackets])
    simpa [render] using hbraces.keyword (t := sym "CALL") rfl rfl
  | loadCsv headers source n terminator => by
    have hfrom : Fragment (after "FROM" source.render) := (csvSource source).keyword rfl rfl
    have hflag :
        Fragment (CypherCompose.flagged headers "WITH HEADERS" ++ after "FROM" source.render) :=
      hfrom.flagged headers rfl rfl
    have hload := (hflag.keyword (t := sym "LOAD CSV") rfl rfl).named n
    cases terminator with
    | none => simpa [render, after] using hload
    | some t =>
      have ht : Fragment [sym "FIELDTERMINATOR", blank, string t] := (token rfl rfl).keyword rfl rfl
      simpa [render, after] using hload.join ht (t := blank) rfl rfl rfl
  | forEach binding source body => by
    have hbody := blanks (fragment_renderEach body)
    have hbinding : Fragment [filledName binding] := token rfl rfl
    have hloop := (hbinding.between source.fragment_render.fill (t := sym "IN") rfl rfl).between
      hbody (t := sym "|") rfl rfl
    have hparens := hloop.bracket (o := "(") (c := ")") (by simp [brackets])
    simpa [render] using hparens.keyword (t := sym "FOREACH") rfl rfl
  | createIndex label properties n ifNotExists => by
    have hkeys := (commas_map key properties).bracket (o := "(") (c := ")") (by simp [brackets])
    have hon := hkeys.keyword (t := sym "ON") rfl rfl
    have hhead : Fragment (renderHead "INDEX" n ifNotExists) := head rfl rfl n ifNotExists
    simpa [render] using hhead.definition hon label
  | dropIndex n => drop n rfl rfl
  | createConstraint kind label properties n ifNotExists =>
    (head rfl rfl n ifNotExists).definition ((demand kind properties).keyword rfl rfl) label
  | dropConstraint n => drop n rfl rfl

theorem fragment_renderEach : ∀ cs : List Clause, ∀ ts ∈ renderEach cs, Fragment ts
  | [] => fun _ hts => by cases hts
  | c :: cs => List.forall_mem_cons.2 ⟨fragment_render c, fragment_renderEach cs⟩

end

theorem fragment_renderAll (cs : List Clause) : Fragment (renderAll cs) :=
  blanks (fragment_renderEach cs)

end Clause

end CypherCompose
