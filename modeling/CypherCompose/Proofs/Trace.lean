import CypherCompose.Proofs.Drafts
import CypherCompose.Proofs.Leaves

/-!
# The leaves of a query

`Value.leaves` lists the names, strings and parameters that a caller put into an expression or a
pattern, in the order in which they are to be written; what a value holds depends on what it is read
as, its `Role`.

`Traces` relates them to a reading: the requests are the parameters among the leaves, in order, and
the text has the same leaves.  Traces of parts make up the trace of the whole, so that each way to
read a value adds one lemma.
-/

namespace CypherCompose

/-- What a value is read as. -/
inductive Role where
  | expr
  | pattern
  /-- An element of a chain. -/
  | station
  /-- The properties of a node or a relationship. -/
  | props
  /-- A value that is walked through, its items being read as something. -/
  | each (r : Role)

/-! ## Leaves of values -/

/-- The leaf of a name. -/
def Value.nameLeaves (v : Value) : List (Leaf Request) :=
  (v.text?.map Leaf.name).toList

/-- The leaf of a variable; the star for all of them is none. -/
def Value.varLeaves (v : Value) : List (Leaf Request) :=
  if v.text? = some "*" then [] else v.nameLeaves

/-- The leaves of an atom: a text is a string or a name, or is taken character by character. -/
def atomLeaves : Role → Atom → List (Leaf Request)
  | .expr, a => (a.text?.map Leaf.string).toList
  | .pattern, a => (a.text?.map Leaf.name).toList
  | .station, a => (a.text?.map Leaf.name).toList
  | .props, _ => []
  | .each r, a =>
      ((Value.atomItems? a).getD []).flatMap fun v => match v with
        | .atom b => atomLeaves r b
        | _ => []

mutual

/-- The leaves of a value, as they are written. -/
def Value.leaves : Role → Value → List (Leaf Request)
  | r, .atom a => atomLeaves r a
  | .expr, .list xs => leavesAll .expr xs
  | .expr, .tuple xs => leavesAll .expr xs
  | .expr, .map es => leavesEntries es
  | .expr, .property owner key => owner.nameLeaves ++ key.nameLeaves
  | .expr, .param name value => [.param ⟨name, value⟩]
  | .expr, .var name => name.varLeaves
  | .expr, .literal v => Value.leaves .expr v
  | .expr, .binary _ left right => Value.leaves .expr left ++ Value.leaves .expr right
  | .expr, .unary _ operand => Value.leaves .expr operand
  | .expr, .call _ args _ => Value.leaves (.each .expr) args
  | .expr, .case whens default => Value.leaves (.each (.each .expr)) whens ++ Value.leaves .expr default
  | .expr, .existence pattern => Value.leaves .pattern pattern
  | .pattern, .list xs => leavesAll .pattern xs
  | .pattern, .tuple xs => leavesAll .pattern xs
  | .pattern, .chain elements _ => Value.leaves (.each .station) elements
  | .pattern, .nodeRef name label props =>
      name.nameLeaves ++ label.nameLeaves ++ Value.leaves .props props
  | .station, .nodeRef name label props =>
      name.nameLeaves ++ label.nameLeaves ++ Value.leaves .props props
  | .station, .relRef name type _ props =>
      name.nameLeaves ++ type.nameLeaves ++ Value.leaves .props props
  | .props, .map es => leavesEntries es
  | .each r, .list xs => leavesAll r xs
  | .each r, .tuple xs => leavesAll r xs
  | .each r, .builder _ xs => leavesAll r xs
  | .each r, .map es => leavesKeys r es
  | _, _ => []

/-- The leaves of items. -/
def leavesAll (r : Role) : List Value → List (Leaf Request)
  | [] => []
  | v :: vs => Value.leaves r v ++ leavesAll r vs

/-- The leaves of keys. -/
def leavesKeys (r : Role) : List (Value × Value) → List (Leaf Request)
  | [] => []
  | (k, _) :: es => Value.leaves r k ++ leavesKeys r es

/-- The leaves of the entries of a map. -/
def leavesEntries : List (Value × Value) → List (Leaf Request)
  | [] => []
  | (k, v) :: es => k.nameLeaves ++ Value.leaves .expr v ++ leavesEntries es

end

/-! ## Walking through values -/

namespace Value

/-- What walking through a value visits. -/
def walk (v : Value) : List Value :=
  v.items?.getD []

theorem exists_atom_of_mem_atomItems? {a : Atom} {vs : List Value} (h : atomItems? a = some vs)
    {v : Value} (hv : v ∈ vs) : ∃ b, v = .atom b := by
  unfold atomItems? at h
  split at h
  · obtain rfl := Option.some.inj h
    obtain ⟨b, -, rfl⟩ := List.mem_map.1 hv
    exact ⟨_, rfl⟩
  · obtain ⟨s, -, rfl⟩ := Option.map_eq_some_iff.1 h
    obtain ⟨c, -, rfl⟩ := List.mem_map.1 hv
    exact ⟨_, rfl⟩

theorem leavesAll_eq_flatMap (r : Role) (vs : List Value) : leavesAll r vs = vs.flatMap (leaves r) := by
  induction vs with
  | nil => rfl
  | cons v vs ih => rw [leavesAll, ih, List.flatMap_cons]

theorem leavesKeys_eq_flatMap (r : Role) (es : List (Value × Value)) :
    leavesKeys r es = (es.map (·.1)).flatMap (leaves r) := by
  induction es with
  | nil => rfl
  | cons e es ih =>
    obtain ⟨k, v⟩ := e
    rw [leavesKeys, ih, List.map_cons, List.flatMap_cons]

theorem leaves_each (r : Role) (v : Value) : leaves (.each r) v = v.walk.flatMap (leaves r) := by
  cases v with
  | atom a =>
    rw [leaves, atomLeaves, walk, items?]
    refine List.flatMap_congr fun v hv => ?_
    cases ha : atomItems? a with
    | none =>
      rw [ha] at hv
      cases hv
    | some vs =>
      rw [ha] at hv
      obtain ⟨b, rfl⟩ := exists_atom_of_mem_atomItems? ha hv
      rw [leaves]
  | list xs => exact leavesAll_eq_flatMap r xs
  | tuple xs => exact leavesAll_eq_flatMap r xs
  | builder _ xs => exact leavesAll_eq_flatMap r xs
  | map es => exact leavesKeys_eq_flatMap r es
  | _ => rfl

theorem readAll_eq_map (vs : List Value) : readAll vs = vs.map Expr.ofValue := by
  induction vs with
  | nil => rfl
  | cons v vs ih => rw [readAll, ih, List.map_cons]

theorem readKeys_eq_map (es : List (Value × Value)) :
    readKeys es = (es.map (·.1)).map Expr.ofValue := by
  induction es with
  | nil => rfl
  | cons e es ih =>
    obtain ⟨k, v⟩ := e
    rw [readKeys, ih, List.map_cons, List.map_cons]

theorem readItems?_eq_map (v : Value) : readItems? v = v.items?.map (List.map Expr.ofValue) := by
  cases v with
  | atom a =>
    rw [readItems?, items?]
    refine Option.map_congr fun vs hvs => ?_
    refine List.map_congr_left fun v hv => ?_
    obtain ⟨b, rfl⟩ := exists_atom_of_mem_atomItems? hvs hv
    rw [Expr.ofValue]
  | list xs => rw [readItems?, readAll_eq_map]; rfl
  | tuple xs => rw [readItems?, readAll_eq_map]; rfl
  | builder _ xs => rw [readItems?, readAll_eq_map]; rfl
  | map es => rw [readItems?, readKeys_eq_map]; rfl
  | _ => rfl

theorem readStations_eq_map (vs : List Value) : readStations vs = vs.map readStation := by
  induction vs with
  | nil => rfl
  | cons v vs ih => rw [readStations, ih, List.map_cons]

theorem readStationKeys_eq_map (es : List (Value × Value)) :
    readStationKeys es = (es.map (·.1)).map readStation := by
  induction es with
  | nil => rfl
  | cons e es ih =>
    obtain ⟨k, v⟩ := e
    rw [readStationKeys, ih, List.map_cons, List.map_cons]

theorem readElements?_eq_map (v : Value) : readElements? v = v.items?.map (List.map readStation) := by
  cases v with
  | atom a =>
    rw [readElements?, items?]
    refine Option.map_congr fun vs hvs => ?_
    refine List.map_congr_left fun v hv => ?_
    obtain ⟨b, rfl⟩ := exists_atom_of_mem_atomItems? hvs hv
    rw [readStation]
    · intro _ _ _ h
      cases h
    · intro _ _ _ _ h
      cases h
  | list xs => rw [readElements?, readStations_eq_map]; rfl
  | tuple xs => rw [readElements?, readStations_eq_map]; rfl
  | builder _ xs => rw [readElements?, readStations_eq_map]; rfl
  | map es => rw [readElements?, readStationKeys_eq_map]; rfl
  | _ => rfl

/-- A branch is a pair of what walking through it visits. -/
theorem items?_of_readPair? {v : Value} {parts : Draft Expr × Draft Expr}
    (h : readPair? v = some parts) :
    ∃ a b, v.items? = some [a, b] ∧ parts = (Expr.ofValue a, Expr.ofValue b) := by
  unfold readPair? at h
  split at h
  · rename_i a
    have hitems : (atomItems? a).map plainItems = (atomItems? a).map (List.map Expr.ofValue) :=
      readItems?_eq_map (.atom a)
    rw [plainPair?, hitems] at h
    rw [items?]
    generalize atomItems? a = items at h ⊢
    rcases items with _ | _ | ⟨b, _ | ⟨c, _ | ⟨d, vs⟩⟩⟩ <;> cases h
    exact ⟨b, c, rfl, rfl⟩
  all_goals cases h
  all_goals exact ⟨_, _, rfl, rfl⟩

/-- A branch read from what walking through a CASE visits. -/
def branchReading (v : Value) : BranchReading :=
  ⟨v, readPair? v⟩

theorem readBranchList_eq_map (vs : List Value) : readBranchList vs = vs.map branchReading := by
  induction vs with
  | nil => rfl
  | cons v vs ih =>
    rw [readBranchList, ih, List.map_cons]
    rfl

theorem readBranchKeys_eq_map (es : List (Value × Value)) :
    readBranchKeys es = (es.map (·.1)).map branchReading := by
  induction es with
  | nil => rfl
  | cons e es ih =>
    obtain ⟨k, v⟩ := e
    rw [readBranchKeys, ih, List.map_cons, List.map_cons]
    rfl

/-- A character or a byte is no pair. -/
theorem readPair?_of_mem_atomItems? {a : Atom} {vs : List Value} (h : atomItems? a = some vs)
    {v : Value} (hv : v ∈ vs) : readPair? v = none := by
  unfold atomItems? at h
  split at h
  · obtain rfl := Option.some.inj h
    obtain ⟨b, -, rfl⟩ := List.mem_map.1 hv
    rw [readPair?]
    rfl
  · obtain ⟨s, -, rfl⟩ := Option.map_eq_some_iff.1 h
    obtain ⟨c, -, rfl⟩ := List.mem_map.1 hv
    have hitems : atomItems? (.text (String.singleton c)) = some [text (String.singleton c)] := by
      simp [atomItems?, Atom.text?, characters]
    rw [readPair?, plainPair?, hitems]
    rfl

theorem readBranchItems?_eq_map (v : Value) :
    readBranchItems? v = v.items?.map (List.map branchReading) := by
  cases v with
  | atom a =>
    rw [readBranchItems?, items?]
    refine Option.map_congr fun vs hvs => ?_
    refine List.map_congr_left fun v hv => ?_
    rw [branchReading, readPair?_of_mem_atomItems? hvs hv]
  | list xs => rw [readBranchItems?, readBranchList_eq_map]; rfl
  | tuple xs => rw [readBranchItems?, readBranchList_eq_map]; rfl
  | builder _ xs => rw [readBranchItems?, readBranchList_eq_map]; rfl
  | map es => rw [readBranchItems?, readBranchKeys_eq_map]; rfl
  | _ => rfl

end Value

/-! ## Traces -/

/-- A reading of something with the leaves `ls` makes the requests `rs` and comes to something with
the leaves `ks`. -/
structure Traces (ls : List (Leaf Request)) (rs : List Request) (ks : List (Leaf Value)) : Prop where
  requests : rs = ls.filterMap Leaf.param?
  leaves : ks = ls.map (Leaf.map Request.name)

namespace Traces

variable {ls ls' : List (Leaf Request)} {rs rs' : List Request} {ks ks' : List (Leaf Value)}

theorem nil : Traces [] [] [] :=
  ⟨rfl, rfl⟩

theorem append (h : Traces ls rs ks) (h' : Traces ls' rs' ks') :
    Traces (ls ++ ls') (rs ++ rs') (ks ++ ks') := by
  obtain ⟨rfl, rfl⟩ := h
  obtain ⟨rfl, rfl⟩ := h'
  exact ⟨List.filterMap_append.symm, List.map_append.symm⟩

/-- The parameters of what is written are those that were asked for. -/
theorem params_eq_map (h : Traces ls rs ks) : ks.filterMap Leaf.param? = rs.map Request.name := by
  obtain ⟨rfl, rfl⟩ := h
  rw [List.filterMap_map, List.map_filterMap]
  exact List.filterMap_congr fun l _ => by cases l <;> rfl

theorem requests_eq_nil (h : Traces ls rs ks) (hks : ks.filterMap Leaf.param? = []) : rs = [] := by
  rw [h.params_eq_map] at hks
  exact List.map_eq_nil_iff.1 hks

/-! ### Leaves -/

theorem name {v : Value} {n : Name} (h : Name.ofValue? v = some n) :
    Traces v.nameLeaves [] [.name n.text] := by
  rw [Value.nameLeaves, Name.text?_of_ofValue? h]
  exact ⟨rfl, rfl⟩

theorem parameter {name value : Value} {p : ParamName}
    (h : Draft.parameter name value = ⟨rs, .ok p⟩) :
    Traces [.param ⟨name, value⟩] rs [.param p.toValue] := by
  obtain ⟨hp, rfl⟩ := Draft.parameter_eq_ok.1 h
  rw [ParamName.toValue_of_ofValue? hp]
  exact ⟨rfl, rfl⟩

theorem ofAtom {a : Atom} {e : Expr} (h : Expr.ofAtom a = ⟨rs, .ok e⟩) :
    Traces (atomLeaves .expr a) rs (Token.leaves e.render) := by
  cases a with
  | null =>
    cases h
    exact nil
  | bool b =>
    cases h
    exact nil
  | int n =>
    obtain ⟨-, rfl, rfl⟩ := Draft.integer_bind_eq_ok.1 h
    refine ⟨rfl, ?_⟩
    rw [Expr.render, Expr.rendering, Rendering.single, signed]
    split_ifs <;> rfl
  | float x =>
    cases x with
    | finite x =>
      cases h
      refine ⟨rfl, ?_⟩
      rw [Expr.render, Expr.rendering, Rendering.single, signed]
      split_ifs <;> rfl
    | _ => cases h
  | text s =>
    cases h
    exact ⟨rfl, rfl⟩
  | direction d =>
    cases h
    exact ⟨rfl, rfl⟩
  | mode m =>
    cases h
    exact ⟨rfl, rfl⟩
  | _ => cases h

theorem readName {role : NameRole} {owner v : Value} {n : Option Name}
    (h : readName role owner v = ⟨rs, .ok n⟩) : Traces v.nameLeaves rs (optionLeaves n) := by
  unfold CypherCompose.readName at h
  split at h
  · cases h
    exact nil
  · simp only [Draft.bind_eq_ok, Draft.ofOption_eq_ok, Draft.pure_eq_ok] at h
    obtain ⟨-, m, -, ⟨hm, rfl⟩, ⟨rfl, rfl⟩, rfl⟩ := h
    exact name hm

theorem readProperty {owner key : Value} {e : Expr} (h : readProperty owner key = ⟨rs, .ok e⟩) :
    Traces (owner.nameLeaves ++ key.nameLeaves) rs (Token.leaves e.render) := by
  simp only [CypherCompose.readProperty, Draft.bind_eq_ok, Draft.ofOption_eq_ok, Draft.pure_eq_ok] at h
  obtain ⟨-, o, -, ⟨ho, rfl⟩, ⟨-, k, -, ⟨hk, rfl⟩, ⟨rfl, rfl⟩, rfl⟩, rfl⟩ := h
  exact (name ho).append (name hk)

theorem readVar {v : Value} {e : Expr} (h : readVar v = ⟨rs, .ok e⟩) :
    Traces v.varLeaves rs (Token.leaves e.render) := by
  obtain ⟨rfl, ⟨hstar, rfl⟩ | ⟨hstar, n, hn, rfl⟩⟩ := readVar_eq_ok h
  · rw [Value.varLeaves, if_pos hstar]
    exact nil
  · rw [Value.varLeaves, if_neg hstar]
    exact name hn

theorem requests_readBound {rel v : Value} {n : Option Nat} (h : readBound rel v = ⟨rs, .ok n⟩) :
    rs = [] := by
  unfold readBound at h
  split at h
  · exact (Draft.done_eq_ok.1 h).2
  · split_ifs at h
    · cases h
    · exact (Draft.integer_bind_eq_ok.1 h).2.2
  · cases h

theorem requests_readRange {rel min max : Value} {hops : Option Hops}
    (h : readRange rel min max = ⟨rs, .ok hops⟩) : rs = [] := by
  simp only [readRange, Draft.bind_eq_ok] at h
  obtain ⟨ps, lo, _, hlo, ⟨qs, hi, us, hhi, h, rfl⟩, rfl⟩ := h
  have hus : us = [] := by
    split at h
    · split_ifs at h
      · cases h
      · exact (Draft.pure_eq_ok.1 h).2
    · exact (Draft.pure_eq_ok.1 h).2
  rw [requests_readBound hlo, requests_readBound hhi, hus]
  rfl

theorem requests_readHops {rel v : Value} {hops : Option Hops}
    (h : readHops rel v = ⟨rs, .ok hops⟩) : rs = [] := by
  unfold readHops at h
  split at h
  · exact (Draft.done_eq_ok.1 h).2
  · split_ifs at h
    · cases h
    · exact (Draft.integer_bind_eq_ok.1 h).2.2
  · exact requests_readRange h
  · exact requests_readRange h
  · cases h

/-! ### Patterns -/

theorem readNode {name label owner : Value} {props : Draft (List (Name × Expr))} {n : Node Expr}
    (hprops : ∀ {rs es}, props = ⟨rs, .ok es⟩ → Traces ls rs (entryLeaves es))
    (h : readNode name label props owner = ⟨rs, .ok n⟩) :
    Traces (name.nameLeaves ++ label.nameLeaves ++ ls) rs n.leaves := by
  simp only [CypherCompose.readNode, Draft.bind_eq_ok, Draft.pure_eq_ok] at h
  obtain ⟨ps, nm, _, hname, ⟨qs, lb, _, hlabel, ⟨us, es, _, hes, ⟨rfl, rfl⟩, rfl⟩, rfl⟩, rfl⟩ := h
  rw [← List.append_assoc, List.append_nil]
  exact ((readName hname).append (readName hlabel)).append (hprops hes)

theorem readRel {name type hops owner : Value} {props : Draft (List (Name × Expr))} {r : Rel Expr}
    (hprops : ∀ {rs es}, props = ⟨rs, .ok es⟩ → Traces ls rs (entryLeaves es))
    (h : readRel name type hops props owner = ⟨rs, .ok r⟩) :
    Traces (name.nameLeaves ++ type.nameLeaves ++ ls) rs r.leaves := by
  simp only [CypherCompose.readRel, Draft.bind_eq_ok, Draft.pure_eq_ok] at h
  obtain ⟨ps, nm, _, hname, ⟨qs, tp, _, htype, ⟨_, hp, _, hhops, ⟨us, es, _, hes, ⟨rfl, rfl⟩, rfl⟩,
    rfl⟩, rfl⟩, rfl⟩ := h
  rw [requests_readHops hhops, List.nil_append, ← List.append_assoc, List.append_nil]
  exact ((readName hname).append (readName htype)).append (hprops hes)

end Traces

/-- Whatever a value is read as, the reading is a trace of its leaves. -/
structure Value.Traced (v : Value) : Prop where
  expr : ∀ {rs e}, Expr.ofValue v = ⟨rs, .ok e⟩ → Traces (v.leaves .expr) rs (Token.leaves e.render)
  props : ∀ {rs es}, readProps v = ⟨rs, .ok es⟩ → Traces (v.leaves .props) rs (entryLeaves es)
  node : ∀ {rs n}, (readStation v).node? = some ⟨rs, .ok n⟩ → Traces (v.leaves .station) rs n.leaves
  rel : ∀ {rs r}, (readStation v).rel? = some ⟨rs, .ok r⟩ → Traces (v.leaves .station) rs r.leaves
  paths : ∀ {rs ps}, pathsOf v = ⟨rs, .ok ps⟩ →
    Traces (v.leaves .pattern) rs (ps.flatMap Path.leaves)

namespace Traces

variable {rs : List Request}

theorem all {vs : List Value} (hvs : ∀ v ∈ vs, v.Traced) {es : List Expr}
    (h : Draft.all (vs.map Expr.ofValue) = ⟨rs, .ok es⟩) :
    Traces (vs.flatMap (Value.leaves .expr)) rs (es.flatMap fun e => Token.leaves e.render) := by
  induction vs generalizing rs es with
  | nil =>
    obtain ⟨rfl, rfl⟩ := Draft.done_eq_ok.1 h
    exact nil
  | cons v vs ih =>
    rw [List.forall_mem_cons] at hvs
    rw [List.map_cons, Draft.all] at h
    simp only [Draft.bind_eq_ok, Draft.pure_eq_ok] at h
    obtain ⟨ps, e, _, he, ⟨qs, es, _, hes, ⟨rfl, rfl⟩, rfl⟩, rfl⟩ := h
    rw [List.append_nil]
    exact (hvs.1.expr he).append (ih hvs.2 hes)

theorem entries {whole : Value} {es : List (Value × Value)} (hes : ∀ e ∈ es, e.2.Traced)
    {entries : List (Name × Expr)} (h : readEntries whole es = ⟨rs, .ok entries⟩) :
    Traces (leavesEntries es) rs (entryLeaves entries) := by
  induction es generalizing rs entries with
  | nil =>
    obtain ⟨rfl, rfl⟩ := Draft.done_eq_ok.1 h
    exact nil
  | cons e es ih =>
    obtain ⟨k, v⟩ := e
    rw [List.forall_mem_cons] at hes
    simp only [readEntries, Draft.bind_eq_ok, Draft.ofOption_eq_ok, Draft.pure_eq_ok] at h
    obtain ⟨_, n, _, ⟨hn, rfl⟩, ⟨qs, e, _, he, ⟨us, rest, _, hrest, ⟨rfl, rfl⟩, rfl⟩, rfl⟩, rfl⟩ := h
    rw [List.append_nil]
    exact ((name hn).append (hes.1.expr he)).append (ih hes.2 hrest)

theorem branches {e : Value} {vs : List Value} (hvs : ∀ v ∈ vs, ∀ w ∈ v.walk, w.Traced)
    {bs : List (Expr × Expr)} (h : readBranches e (vs.map Value.branchReading) = ⟨rs, .ok bs⟩) :
    Traces (vs.flatMap (Value.leaves (.each .expr))) rs
      (bs.flatMap fun b => Token.leaves b.1.render ++ Token.leaves b.2.render) := by
  induction vs generalizing rs bs with
  | nil =>
    obtain ⟨rfl, rfl⟩ := Draft.done_eq_ok.1 h
    exact nil
  | cons v vs ih =>
    rw [List.forall_mem_cons] at hvs
    simp only [List.map_cons, readBranches, Draft.bind_eq_ok, Draft.ofOption_eq_ok,
      Draft.pure_eq_ok] at h
    obtain ⟨_, parts, _, ⟨hparts, rfl⟩, ⟨ps, c, _, hc, ⟨qs, d, _, hd, ⟨us, rest, _, hrest, ⟨rfl, rfl⟩,
      rfl⟩, rfl⟩, rfl⟩, rfl⟩ := h
    obtain ⟨a, b, hab, rfl⟩ := Value.items?_of_readPair? hparts
    have hwalk : v.walk = [a, b] := by rw [Value.walk, hab]; rfl
    have hleaves : v.leaves (.each .expr) = a.leaves .expr ++ b.leaves .expr := by
      rw [Value.leaves_each, hwalk]
      simp
    rw [hwalk] at hvs
    have ha := (hvs.1 a (by simp)).expr hc
    have hb := (hvs.1 b (by simp)).expr hd
    rw [List.flatMap_cons, List.flatMap_cons, hleaves, List.append_nil, List.nil_append,
      ← List.append_assoc]
    exact (ha.append hb).append (ih hvs.2 hrest)

/-! ### Chains -/

theorem station_node {chain : Value} {i : Nat} {s : Station} {n : Node Expr}
    (h : s.node chain i = ⟨rs, .ok n⟩) : s.node? = some ⟨rs, .ok n⟩ := by
  rw [Station.node] at h
  cases hs : s.node? with
  | none =>
    rw [hs] at h
    cases h
  | some d =>
    rw [hs] at h
    exact congrArg some h

theorem station_link {chain before after : Value} {i : Nat} {s : Station} {l : Direction × Rel Expr}
    (h : s.link chain i before after = ⟨rs, .ok l⟩) : s.rel? = some ⟨rs, .ok l.2⟩ := by
  unfold Station.link at h
  split at h
  · cases h
  · rename_i rel hrel
    split at h
    · cases h
    · cases h
    · simp only [Draft.bind_eq_ok, Draft.ofOption_eq_ok, Draft.pure_eq_ok] at h
      obtain ⟨ps, r, _, rfl, ⟨_, d, _, ⟨-, rfl⟩, ⟨rfl, rfl⟩, rfl⟩, rfl⟩ := h
      simp [hrel]

/-- The links of a chain, when as many steps are left as elements, and these come in pairs. -/
theorem links {chain : Value} : ∀ {vs steps : List Value} {i : Nat} {rs : List Request}
    {links : List (Link Expr)}, (∀ v ∈ vs, v.Traced) → steps.length = vs.length → vs.length % 2 = 0 →
      readLinks chain i (vs.map readStation) steps = ⟨rs, .ok links⟩ →
      Traces (vs.flatMap (Value.leaves .station)) rs
        (links.flatMap fun l => l.rel.leaves ++ l.node.leaves)
  | [], steps, i, rs, links, _, _, _, h => by
    have hnil : readLinks chain i [] steps = .done [] := by simp [readLinks]
    rw [List.map_nil, hnil] at h
    obtain ⟨rfl, rfl⟩ := Draft.done_eq_ok.1 h
    exact nil
  | [v], _, _, _, _, _, _, heven, _ => by simp at heven
  | v :: w :: vs, [], _, _, _, _, hlength, _, _ => by simp at hlength
  | v :: w :: vs, [_], _, _, _, _, hlength, _, _ => by simp at hlength
  | v :: w :: vs, before :: after :: steps, i, rs, links, hvs, hlength, heven, h => by
    rw [List.forall_mem_cons, List.forall_mem_cons] at hvs
    simp only [List.map_cons, readLinks, Draft.bind_eq_ok, Draft.pure_eq_ok] at h
    obtain ⟨ps, l, _, hl, ⟨qs, n, _, hn, ⟨us, rest, _, hrest, ⟨rfl, rfl⟩, rfl⟩, rfl⟩, rfl⟩ := h
    have hlink := (hvs.1.rel (station_link hl)).append (hvs.2.1.node (station_node hn))
    have hlength' : steps.length = vs.length := by simpa using hlength
    have heven' : vs.length % 2 = 0 := by
      simp only [List.length_cons] at heven
      omega
    rw [List.flatMap_cons, List.flatMap_cons, ← List.append_assoc, List.append_nil,
      ← List.append_assoc, List.flatMap_cons]
    exact hlink.append (Traces.links hvs.2.2 hlength' heven' hrest)

theorem chain {whole : Value} {vs steps : List Value} (hvs : ∀ v ∈ vs, v.Traced) {p : Path Expr}
    (h : readChain whole (vs.map readStation) steps = ⟨rs, .ok p⟩) :
    Traces (vs.flatMap (Value.leaves .station)) rs p.leaves := by
  cases vs with
  | nil => cases h
  | cons v vs =>
    rw [List.forall_mem_cons] at hvs
    rw [List.map_cons, readChain] at h
    split_ifs at h with hcount hparity
    · cases h
    · cases h
    · simp only [Draft.bind_eq_ok, Draft.pure_eq_ok] at h
      obtain ⟨ps, n, _, hn, ⟨qs, ls, _, hls, ⟨rfl, rfl⟩, rfl⟩, rfl⟩ := h
      have hlength : steps.length = vs.length := by simpa using hcount
      have heven : vs.length % 2 = 0 := by
        simp only [List.length_cons, List.length_map, beq_iff_eq] at hparity
        omega
      rw [List.append_nil, List.flatMap_cons]
      exact (hvs.1.node (station_node hn)).append (links hvs.2 hlength heven hls)

theorem patterns {whole : Value} : ∀ {vs : List Value} {rs : List Request} {ps : List (Path Expr)},
    (∀ v ∈ vs, v.Traced) → readPatterns whole vs = ⟨rs, .ok ps⟩ →
      Traces (leavesAll .pattern vs) rs (ps.flatMap Path.leaves)
  | [], _, _, _, h => by cases h
  | [v], rs, ps, hvs, h => by
    rw [readPatterns] at h
    rw [leavesAll, leavesAll, List.append_nil]
    exact (hvs v (by simp)).paths h
  | v :: w :: vs, rs, ps, hvs, h => by
    rw [List.forall_mem_cons] at hvs
    simp only [readPatterns, Draft.bind_eq_ok, Draft.pure_eq_ok] at h
    obtain ⟨us, ps, _, hps, ⟨ts, qs, _, hqs, ⟨rfl, rfl⟩, rfl⟩, rfl⟩ := h
    rw [leavesAll, List.append_nil, List.flatMap_append]
    exact (hvs.1.paths hps).append (patterns hvs.2 hqs)

end Traces

/-! ## Values -/

namespace Value

variable {rs : List Request}

theorem requests_readProps {v : Value} (hv : ∀ es, v ≠ .map es) {es : List (Name × Expr)}
    (h : readProps v = ⟨rs, .ok es⟩) : rs = [] ∧ es = [] := by
  rw [readProps] at h
  · simp only [Draft.bind_eq_ok, Draft.ofMisuse_eq_ok] at h
    obtain ⟨_, b, _, ⟨-, rfl⟩, h, rfl⟩ := h
    split_ifs at h
    · cases h
    · obtain ⟨rfl, rfl⟩ := Draft.pure_eq_ok.1 h
      exact ⟨rfl, rfl⟩
  · exact hv

theorem nameLeaves_null : null.nameLeaves = [] := rfl

theorem traces_noProps {es : List (Name × Expr)}
    (h : (.done [] : Draft (List (Name × Expr))) = ⟨rs, .ok es⟩) : Traces [] rs (entryLeaves es) := by
  obtain ⟨rfl, rfl⟩ := Draft.done_eq_ok.1 h
  exact .nil

theorem traces_namedNode {v : Value} {n : Node Expr} (h : namedNode v = ⟨rs, .ok n⟩) :
    Traces v.nameLeaves rs n.leaves := by
  simpa [nameLeaves_null] using Traces.readNode traces_noProps h

theorem traces_typedRel {v : Value} {r : Rel Expr} (h : typedRel v = ⟨rs, .ok r⟩) :
    Traces v.nameLeaves rs r.leaves := by
  simpa [nameLeaves_null] using Traces.readRel traces_noProps h

theorem readStation_atom (a : Atom) : readStation (atom a) = .plain (atom a) := by
  simp [readStation]

theorem pathsOf_atom (a : Atom) :
    pathsOf (atom a) =
      if (atom a).isText then do
        let n ← namedNode (atom a)
        pure [⟨n, []⟩]
      else .fail (.pattern (.notPattern (atom a))) := by
  simp [pathsOf]

theorem traced_atom (a : Atom) : (atom a).Traced where
  expr h := by
    rw [Expr.ofValue] at h
    exact .ofAtom h
  props h := by
    obtain ⟨rfl, rfl⟩ := requests_readProps (v := atom a) (fun _ h => by cases h) h
    exact .nil
  node h := by
    rw [readStation_atom, Station.plain] at h
    split_ifs at h
    exact traces_namedNode (Option.some.inj h)
  rel h := by
    rw [readStation_atom, Station.plain] at h
    split_ifs at h
    exact traces_typedRel (Option.some.inj h)
  paths h := by
    rw [pathsOf_atom] at h
    split_ifs at h
    · simp only [Draft.bind_eq_ok, Draft.pure_eq_ok] at h
      obtain ⟨ps, n, _, hn, ⟨rfl, rfl⟩, rfl⟩ := h
      simpa [Path.leaves, leaves, atomLeaves, nameLeaves, text?] using traces_namedNode hn
    · cases h

theorem exists_atom_of_mem_walk {a : Atom} {w : Value} (h : w ∈ (atom a).walk) : ∃ b, w = atom b := by
  rw [walk, items?] at h
  cases ha : atomItems? a with
  | none =>
    rw [ha] at h
    cases h
  | some vs =>
    rw [ha] at h
    exact exists_atom_of_mem_atomItems? ha h

theorem requests_readBinaryOp {op e : Value} {o : BinaryOp} (h : readBinaryOp op e = ⟨rs, .ok o⟩) :
    rs = [] := by
  unfold readBinaryOp at h
  split at h
  · exact (Draft.ofOption_eq_ok.1 h).2
  · cases h

theorem requests_readUnaryOp {op e : Value} {o : UnaryOp} (h : readUnaryOp op e = ⟨rs, .ok o⟩) :
    rs = [] := by
  unfold readUnaryOp at h
  split at h
  · exact (Draft.ofOption_eq_ok.1 h).2
  · cases h

theorem eq_null_of_isNull {v : Value} (h : v.isNull = true) : v = null := by
  unfold isNull at h
  split at h
  · rfl
  · cases h

/-- What walking through a value visits is smaller, or has no parts. -/
theorem sizeOf_lt_of_mem_walk {v w : Value} (h : w ∈ v.walk) :
    (∃ a, w = atom a) ∨ sizeOf w < sizeOf v := by
  cases v with
  | atom a => exact .inl (exists_atom_of_mem_walk h)
  | list xs =>
    have hlt := List.sizeOf_lt_of_mem (show w ∈ xs from h)
    exact .inr (by rw [list.sizeOf_spec]; omega)
  | tuple xs =>
    have hlt := List.sizeOf_lt_of_mem (show w ∈ xs from h)
    exact .inr (by rw [tuple.sizeOf_spec]; omega)
  | builder _ xs =>
    have hlt := List.sizeOf_lt_of_mem (show w ∈ xs from h)
    exact .inr (by rw [builder.sizeOf_spec]; omega)
  | map es =>
    obtain ⟨e, he, rfl⟩ := List.mem_map.1 (show w ∈ es.map (·.1) from h)
    have hlt := List.sizeOf_lt_of_mem he
    obtain ⟨k, v⟩ := e
    exact .inr (by simp at hlt ⊢; omega)
  | _ => cases h

section Parts

variable {v : Value} (ih : ∀ w : Value, sizeOf w < sizeOf v → w.Traced)

include ih

theorem traced_of_mem_walk {w x : Value} (hw : sizeOf w ≤ sizeOf v) (hx : x ∈ w.walk) : x.Traced := by
  rcases sizeOf_lt_of_mem_walk hx with ⟨a, rfl⟩ | hlt
  · exact traced_atom a
  · exact ih x (hlt.trans_le hw)

theorem traced_of_mem_entries {es : List (Value × Value)} (hv : v = map es) : ∀ e ∈ es, e.2.Traced := by
  intro e he
  have hlt := List.sizeOf_lt_of_mem he
  obtain ⟨k, w⟩ := e
  refine ih w ?_
  rw [hv]
  simp at hlt ⊢
  omega

theorem traces_props {es : List (Name × Expr)} (h : readProps v = ⟨rs, .ok es⟩) :
    Traces (v.leaves .props) rs (entryLeaves es) := by
  by_cases hv : ∃ es, v = map es
  · obtain ⟨es', hes⟩ := hv
    have hentries := traced_of_mem_entries ih hes
    rw [hes, readProps] at h
    rw [hes, leaves]
    exact .entries hentries h
  · obtain ⟨rfl, rfl⟩ := requests_readProps (fun es hes => hv ⟨es, hes⟩) h
    have hleaves : v.leaves .props = [] := by
      cases v with
      | map es => exact absurd ⟨es, rfl⟩ hv
      | atom a => rfl
      | _ => rfl
    rw [hleaves]
    exact .nil

theorem traces_paths {ps : List (Path Expr)} (h : pathsOf v = ⟨rs, .ok ps⟩) :
    Traces (v.leaves .pattern) rs (ps.flatMap Path.leaves) := by
  cases v with
  | atom a => exact (traced_atom a).paths h
  | list xs =>
    rw [pathsOf] at h
    exact .patterns (fun x hx => traced_of_mem_walk ih (Nat.le_refl _) hx) h
  | tuple xs =>
    rw [pathsOf] at h
    exact .patterns (fun x hx => traced_of_mem_walk ih (Nat.le_refl _) hx) h
  | chain elements steps =>
    simp only [pathsOf, Draft.bind_eq_ok, Draft.ofOption_eq_ok, Draft.pure_eq_ok] at h
    obtain ⟨_, es, _, ⟨hes, rfl⟩, ⟨_, ss, _, ⟨-, rfl⟩, ⟨us, p, _, hp, ⟨rfl, rfl⟩, rfl⟩, rfl⟩, rfl⟩ := h
    rw [readElements?_eq_map] at hes
    obtain ⟨vs, hvs, rfl⟩ := Option.map_eq_some_iff.1 hes
    have hwalk : elements.walk = vs := by rw [walk, hvs]; rfl
    have hlt : sizeOf elements ≤ sizeOf (chain elements steps) := by rw [chain.sizeOf_spec]; omega
    have hchain := Traces.chain (fun x hx => traced_of_mem_walk ih hlt (hwalk ▸ hx)) hp
    rw [leaves, leaves_each, hwalk]
    simpa using hchain
  | nodeRef name label props =>
    simp only [pathsOf, Draft.bind_eq_ok, Draft.pure_eq_ok] at h
    obtain ⟨us, n, _, hn, ⟨rfl, rfl⟩, rfl⟩ := h
    have hprops := ih props (by rw [nodeRef.sizeOf_spec]; omega)
    rw [leaves]
    simpa [Path.leaves] using Traces.readNode hprops.props hn
  | _ => simp [pathsOf, isText, text?, Draft.fail] at h

theorem traces_node {n : Node Expr} (h : (readStation v).node? = some ⟨rs, .ok n⟩) :
    Traces (v.leaves .station) rs n.leaves := by
  cases v with
  | atom a => exact (traced_atom a).node h
  | nodeRef name label props =>
    rw [readStation] at h
    have hprops := ih props (by rw [nodeRef.sizeOf_spec]; omega)
    rw [leaves]
    exact Traces.readNode hprops.props (Option.some.inj h)
  | _ => simp [readStation, Station.plain, isText, text?] at h

theorem traces_rel {r : Rel Expr} (h : (readStation v).rel? = some ⟨rs, .ok r⟩) :
    Traces (v.leaves .station) rs r.leaves := by
  cases v with
  | atom a => exact (traced_atom a).rel h
  | relRef name type hops props =>
    rw [readStation] at h
    have hprops := ih props (by rw [relRef.sizeOf_spec]; omega)
    rw [leaves]
    exact Traces.readRel hprops.props (Option.some.inj h)
  | _ => simp [readStation, Station.plain, isText, text?] at h

theorem traces_items {w : Value} (hw : sizeOf w ≤ sizeOf v) {ds : List (Draft Expr)}
    (hds : readItems? w = some ds) {es : List Expr} (h : Draft.all ds = ⟨rs, .ok es⟩) :
    Traces (w.leaves (.each .expr)) rs (es.flatMap fun e => Token.leaves e.render) := by
  rw [readItems?_eq_map] at hds
  obtain ⟨vs, hvs, rfl⟩ := Option.map_eq_some_iff.1 hds
  have hwalk : w.walk = vs := by rw [walk, hvs]; rfl
  rw [leaves_each, hwalk]
  exact .all (fun x hx => traced_of_mem_walk ih hw (hwalk ▸ hx)) h

theorem traces_branches {e w : Value} (hw : sizeOf w < sizeOf v) {readings : List BranchReading}
    (hreadings : readBranchItems? w = some readings) {bs : List (Expr × Expr)}
    (h : readBranches e readings = ⟨rs, .ok bs⟩) :
    Traces (w.leaves (.each (.each .expr))) rs
      (bs.flatMap fun b => Token.leaves b.1.render ++ Token.leaves b.2.render) := by
  rw [readBranchItems?_eq_map] at hreadings
  obtain ⟨vs, hvs, rfl⟩ := Option.map_eq_some_iff.1 hreadings
  have hwalk : w.walk = vs := by rw [walk, hvs]; rfl
  rw [leaves_each, hwalk]
  refine .branches (fun x hx y hy => ?_) h
  rcases sizeOf_lt_of_mem_walk (hwalk ▸ hx) with ⟨a, rfl⟩ | hlt
  · obtain ⟨b, rfl⟩ := exists_atom_of_mem_walk hy
    exact traced_atom b
  · exact traced_of_mem_walk ih (hlt.trans hw).le hy

theorem traces_expr {e : Expr} (h : Expr.ofValue v = ⟨rs, .ok e⟩) :
    Traces (v.leaves .expr) rs (Token.leaves e.render) := by
  cases v with
  | atom a => exact (traced_atom a).expr h
  | list xs =>
    simp only [Expr.ofValue, Draft.bind_eq_ok, Draft.pure_eq_ok] at h
    obtain ⟨ps, es, _, hes, ⟨rfl, rfl⟩, rfl⟩ := h
    rw [leaves, Expr.leaves_list, List.append_nil]
    exact traces_items ih (w := list xs) (Nat.le_refl _) (by rw [readItems?]) hes
  | tuple xs =>
    simp only [Expr.ofValue, Draft.bind_eq_ok, Draft.pure_eq_ok] at h
    obtain ⟨ps, es, _, hes, ⟨rfl, rfl⟩, rfl⟩ := h
    rw [leaves, Expr.leaves_list, List.append_nil]
    exact traces_items ih (w := tuple xs) (Nat.le_refl _) (by rw [readItems?]) hes
  | map es =>
    simp only [Expr.ofValue, Draft.bind_eq_ok, Draft.pure_eq_ok] at h
    obtain ⟨ps, entries, _, hentries, ⟨rfl, rfl⟩, rfl⟩ := h
    rw [leaves, Expr.leaves_map, List.append_nil]
    exact .entries (traced_of_mem_entries ih rfl) hentries
  | property owner key =>
    rw [Expr.ofValue] at h
    exact .readProperty h
  | param name value =>
    simp only [Expr.ofValue, Draft.bind_eq_ok, Draft.pure_eq_ok] at h
    obtain ⟨ps, p, _, hp, ⟨rfl, rfl⟩, rfl⟩ := h
    rw [List.append_nil]
    exact .parameter hp
  | var name =>
    rw [Expr.ofValue] at h
    exact .readVar h
  | literal w =>
    simp only [Expr.ofValue, Draft.bind_eq_ok, Draft.pure_eq_ok] at h
    obtain ⟨ps, e, _, he, ⟨rfl, rfl⟩, rfl⟩ := h
    have henclosed : Token.leaves (Expr.enclosed e).render = Token.leaves e.render := rfl
    rw [leaves, henclosed, List.append_nil]
    exact (ih w (by simp)).expr he
  | binary op left right =>
    simp only [Expr.ofValue, Draft.bind_eq_ok, Draft.pure_eq_ok] at h
    obtain ⟨us, o, _, ho, ⟨ps, l, _, hl, ⟨qs, r, _, hr, ⟨rfl, rfl⟩, rfl⟩, rfl⟩, rfl⟩ := h
    rw [leaves, Expr.leaves_binary, requests_readBinaryOp ho, List.append_nil, List.nil_append]
    have hleft := ih left (by rw [binary.sizeOf_spec]; omega)
    have hright := ih right (by rw [binary.sizeOf_spec]; omega)
    exact (hleft.expr hl).append (hright.expr hr)
  | unary op operand =>
    simp only [Expr.ofValue, Draft.bind_eq_ok, Draft.pure_eq_ok] at h
    obtain ⟨us, o, _, ho, ⟨ps, e, _, he, ⟨rfl, rfl⟩, rfl⟩, rfl⟩ := h
    rw [leaves, Expr.leaves_unary, requests_readUnaryOp ho, List.append_nil, List.nil_append]
    exact (ih operand (by rw [unary.sizeOf_spec]; omega)).expr he
  | call name args distinct =>
    simp only [Expr.ofValue, Draft.bind_eq_ok, Draft.ofOption_eq_ok, Draft.ofMisuse_eq_ok,
      Draft.pure_eq_ok] at h
    obtain ⟨_, f, _, ⟨-, rfl⟩, ⟨_, ds, _, ⟨hds, rfl⟩, ⟨ps, es, _, hes, ⟨_, d, _, ⟨-, rfl⟩, ⟨rfl, rfl⟩,
      rfl⟩, rfl⟩, rfl⟩, rfl⟩ := h
    rw [leaves, Expr.leaves_call]
    simpa using traces_items ih (by rw [call.sizeOf_spec]; omega) hds hes
  | case whens default =>
    simp only [Expr.ofValue, Draft.bind_eq_ok, Draft.ofMisuse_eq_ok] at h
    obtain ⟨_, b, _, ⟨-, rfl⟩, h, rfl⟩ := h
    by_cases hb : b = true
    · rw [if_pos hb] at h
      simp only [Draft.bind_eq_ok, Draft.ofOption_eq_ok] at h
      obtain ⟨_, readings, _, ⟨hreadings, rfl⟩, ⟨ps, bs, qs, hbs, h, rfl⟩, rfl⟩ := h
      have hbranches := traces_branches ih (by rw [case.sizeOf_spec]; omega) hreadings hbs
      obtain ⟨d, rfl, hdefault⟩ : ∃ d, Expr.case bs d = e ∧ Traces (default.leaves .expr) qs
          (d.toList.flatMap fun e => Token.leaves e.render) := by
        split_ifs at h with hnull
        · simp only [Draft.bind_eq_ok, Draft.pure_eq_ok] at h
          obtain ⟨_, d, _, ⟨rfl, rfl⟩, ⟨rfl, rfl⟩, rfl⟩ := h
          rw [eq_null_of_isNull hnull]
          exact ⟨none, rfl, .nil⟩
        · simp only [Draft.bind_eq_ok, Draft.map_eq_ok, Draft.pure_eq_ok] at h
          obtain ⟨us, d, _, ⟨f, hf, rfl⟩, ⟨rfl, rfl⟩, rfl⟩ := h
          exact ⟨some f, rfl, by simpa using (ih default (by rw [case.sizeOf_spec]; omega)).expr hf⟩
      rw [leaves, Expr.leaves_case]
      simpa using hbranches.append hdefault
    · rw [if_neg hb] at h
      cases h
  | existence pattern =>
    simp only [Expr.ofValue, Draft.bind_eq_ok, Draft.pure_eq_ok] at h
    obtain ⟨us, ps, _, hps, ⟨rfl, rfl⟩, rfl⟩ := h
    rw [leaves, Expr.leaves_existence, List.append_nil]
    exact (ih pattern (by simp)).paths hps
  | _ => simp [Expr.ofValue, Draft.fail] at h

end Parts

/-- Reading a value is a trace of its leaves. -/
theorem traced (v : Value) : v.Traced := by
  induction hn : sizeOf v using Nat.strong_induction_on generalizing v with
  | _ n ih =>
    have ih' : ∀ w : Value, sizeOf w < sizeOf v → w.Traced := fun w hw => ih _ (hn ▸ hw) w rfl
    exact ⟨traces_expr ih', traces_props ih', traces_node ih', traces_rel ih', traces_paths ih'⟩

end Value

end CypherCompose
