import CypherCompose.Proofs.Granting
import CypherCompose.Proofs.MutationBinding

/-!
# What a merge leaves when nothing matches

A merge is checked against a schema with the properties of all its sections together, but it applies
them by outcome: a node that is found is given those of `ON MATCH SET`, a new one those of
`ON CREATE SET` (`Mutation.keysAfter`).

* `Schema.check_eq_ok` says exactly which properties pass the check.
* `Mutation.merges_of_provides`: it is enough for a merge that its sections together have every required
  property.
* `Mutation.created_complete_iff`: a new node has them all if and only if none of them is given only for
  a node that is found.
* `Mutation.merge_user_without_email`: a merge that is accepted and leaves a new node without a required
  property.
-/

namespace CypherCompose

/-! ## Required properties -/

namespace Schema

/-- A property that is declared as required. -/
def Requires (properties name : Value) : Prop :=
  ∃ ds, properties.itemsOf = .ok ds ∧
    ∃ d ∈ ds, ∃ required, declaration d = .ok (name, required) ∧ required.truth = .ok true

/-- A key that a name is found under. -/
def Provides (keys : List Value) (name : Value) : Prop :=
  ∃ k ∈ keys, name.same k = true

/-- Keys among which every required property is found. -/
def Complete (properties : Value) (keys : List Value) : Prop :=
  ∀ name, Requires properties name → Provides keys name

theorem contains_map_eq_true {es : List (Value × Value)} {name : Value} (hkey : name.isKey = true) :
    (Value.map es).contains name = .ok true ↔ Provides (es.map (·.1)) name := by
  rw [Value.contains, if_pos hkey, Except.ok.injEq, Value.lookup, Option.isSome_map, List.find?_isSome]
  simp only [Provides, List.mem_map, exists_exists_and_eq_and]

theorem isMissing_eq_false {props name required : Value} :
    isMissing props name required = .ok false ↔
      required.truth = .ok false ∨ required.truth = .ok true ∧ props.contains name = .ok true := by
  rw [isMissing]
  cases required.truth with
  | error m => simp [Bind.bind, Except.bind]
  | ok b =>
    cases b with
    | false => simp [Bind.bind, Except.bind]
    | true => cases props.contains name <;> simp [Bind.bind, Except.bind]

theorem isKey_of_declaration {d name required : Value} (h : declaration d = .ok (name, required)) :
    name.isKey = true := by
  rw [declaration.eq_def] at h
  split at h
  · split_ifs at h with hkey
    cases h
    exact hkey
  · cases h

theorem checkRequired_eq_ok {place : String} {props : Value} {ds : List Value} :
    (∃ names, checkRequired place props ds = .ok names) ↔ ∀ d ∈ ds, ∃ name required,
      declaration d = .ok (name, required) ∧ isMissing props name required = .ok false := by
  induction ds with
  | nil => simp [checkRequired]
  | cons d ds ih =>
    rw [List.forall_mem_cons, ← ih, checkRequired]
    cases hd : declaration d with
    | error m => simp
    | ok r =>
      obtain ⟨name, required⟩ := r
      cases hmissing : isMissing props name required with
      | error m => simp [hmissing]
      | ok b => cases b <;> simp [hmissing, Except.bind_eq_ok]

theorem checkKeys_eq_ok {place : String} {declared keys : List Value} :
    (checkKeys place declared keys).outcome = .ok () ↔ ∀ k ∈ keys, k.isKey = true := by
  induction keys with
  | nil => simp [checkKeys]
  | cons k keys ih =>
    rw [List.forall_mem_cons, ← ih, checkKeys]
    split_ifs with hkey hdeclared <;> simp [hkey]

theorem checkProperties_eq_ok {place : String} {declared : Value} {es : List (Value × Value)} :
    (checkProperties place declared (.map es)).outcome = .ok () ↔
      ∃ ds, declared.itemsOf = .ok ds ∧ (∀ d ∈ ds, ∃ name required,
        declaration d = .ok (name, required) ∧ (required.truth = .ok false ∨
          required.truth = .ok true ∧ Provides (es.map (·.1)) name)) ∧
        ∀ k ∈ es.map (·.1), k.isKey = true := by
  have hdeclared : ∀ d, (∃ name required, declaration d = .ok (name, required) ∧
      isMissing (.map es) name required = .ok false) ↔ ∃ name required,
        declaration d = .ok (name, required) ∧ (required.truth = .ok false ∨
          required.truth = .ok true ∧ Provides (es.map (·.1)) name) := fun d =>
    exists₂_congr fun name required => and_congr_right fun hd => by
      rw [isMissing_eq_false, contains_map_eq_true (isKey_of_declaration hd)]
  have hrequired : ∀ ds, (∃ names, checkRequired place (.map es) ds = .ok names) ↔
      ∀ d ∈ ds, ∃ name required, declaration d = .ok (name, required) ∧
        isMissing (.map es) name required = .ok false := fun _ => checkRequired_eq_ok
  have hitems : (Value.map es).itemsOf = .ok (es.map (·.1)) := rfl
  simp only [← hdeclared, ← hrequired]
  rw [checkProperties]
  cases declared.itemsOf with
  | error m => simp
  | ok ds =>
    cases hnames : checkRequired place (.map es) ds with
    | error e => simp [hnames]
    | ok names => simp [hnames, hitems, checkKeys_eq_ok]

/-- Properties pass the check of a schema that can be named and read if every required one is among
them. -/
theorem check_eq_ok {label properties : Value} {es : List (Value × Value)} :
    (check (.nodeSchema label properties) (.map es)).outcome = .ok () ↔
      label.isWritable = true ∧ ∃ ds, properties.itemsOf = .ok ds ∧ (∀ d ∈ ds, ∃ name required,
        declaration d = .ok (name, required) ∧ (required.truth = .ok false ∨
          required.truth = .ok true ∧ Provides (es.map (·.1)) name)) ∧
        ∀ k ∈ es.map (·.1), k.isKey = true := by
  have hplace : (Message.text? ["node :", .bare label]).isSome = label.isWritable := by
    simp [Message.isSome_text?]
  rw [check, checkAt, ← hplace]
  cases Message.text? ["node :", .bare label] with
  | none => simp
  | some place => simpa using checkProperties_eq_ok

theorem complete_of_check {label properties : Value} {es : List (Value × Value)}
    (h : (check (.nodeSchema label properties) (.map es)).outcome = .ok ()) :
    Complete properties (es.map (·.1)) := by
  obtain ⟨-, ds, hds, hall, -⟩ := check_eq_ok.1 h
  rintro name ⟨ds', hds', d, hd, required, hdecl, htruth⟩
  rw [hds] at hds'
  cases hds'
  obtain ⟨name', required', hdecl', hrequired⟩ := hall d hd
  rw [hdecl] at hdecl'
  cases hdecl'
  rw [htruth] at hrequired
  exact hrequired.elim nofun And.right

end Schema

/-! ## The keys of a merge by outcome -/

namespace Mutation

open Schema

/-- The key that an assignment sets. -/
def assignedKey? : Value → Option Value
  | .assign (.property _ key) _ => some key
  | _ => none

/-- The keys that a clause of a merge gives the node on an outcome. -/
def keysOf (event : MergeEvent) : Value → List Value
  | .clause (.merge (.nodeRef _ _ (.map es))) => es.map (·.1)
  | .clause (.onMerge e (.list vs)) => if e = event then vs.filterMap assignedKey? else []
  | _ => []

/-- The keys that the clauses of a merge give the node on an outcome: those of the pattern, which a new
node is made from and a found one has, and those set for the outcome. -/
def keysAfter (event : MergeEvent) (clauses : List Value) : List Value :=
  clauses.flatMap (keysOf event)

theorem keys_bind (pool : NamePool) (sec : String) (es : List (Value × Value)) :
    (pool.bind sec es).1.map (·.1) = es.map (·.1) := by
  induction es generalizing pool with
  | nil => rfl
  | cons e es ih =>
    rw [NamePool.bind]
    exact congrArg (e.1 :: ·) (ih _)

theorem keysOf_merge (event : MergeEvent) (name label : Value) (es : List (Value × Value)) :
    keysOf event (.clause (.merge (.nodeRef name label (mapOrNull es)))) = es.map (·.1) := by
  cases es <;> rfl

theorem keysAfter_section (event e : MergeEvent) (es : List (Value × Value)) :
    keysAfter event (if es.isEmpty then [] else [.clause (.onMerge e (assignments es))]) =
      if e = event then es.map (·.1) else [] := by
  cases es with
  | nil => cases e <;> cases event <;> rfl
  | cons f es =>
    have hkeys : ((f :: es).map fun e => Value.assign (.property (.text "n") e.1) e.2).filterMap
        assignedKey? = (f :: es).map (·.1) := by
      rw [List.filterMap_map]
      exact congrFun List.filterMap_eq_map _
    simp only [List.isEmpty_cons, Bool.false_eq_true, if_false, keysAfter, List.flatMap_singleton,
      keysOf, assignments, hkeys]

theorem keysAfter_onCreate (label : Value) (fs cs ms : List (Value × Value)) :
    keysAfter .onCreate (mergeClauses label fs cs ms) = fs.map (·.1) ++ cs.map (·.1) := by
  have happend : ∀ vs ws, keysAfter .onCreate (vs ++ ws) =
      keysAfter .onCreate vs ++ keysAfter .onCreate ws := fun _ _ => List.flatMap_append
  have hmerge : ∀ es, keysAfter .onCreate [.clause (.merge (.nodeRef (.text "n") label
      (mapOrNull es)))] = es.map (·.1) := fun es => by
    rw [keysAfter, List.flatMap_singleton, keysOf_merge]
  have hreturn : keysAfter .onCreate [returning "n"] = [] := rfl
  simp only [mergeClauses, happend, hmerge, keysAfter_section, hreturn, keys_bind, if_true,
    reduceCtorEq, if_false, List.append_nil]

theorem mem_keys_put {k v key : Value} {es : List (Value × Value)}
    (h : key ∈ (Value.put k v es).map (·.1)) : key ∈ es.map (·.1) ∨ key = k := by
  induction es with
  | nil => exact .inr (List.mem_singleton.1 h)
  | cons e es ih =>
    rw [Value.put] at h
    split_ifs at h with hsame
    · exact .inl h
    · rw [List.map_cons, List.mem_cons] at h ⊢
      obtain rfl | h := h
      · exact .inl (.inl rfl)
      · exact (ih h).imp_left .inr

theorem mem_keys_merged {key : Value} {first later : List (Value × Value)}
    (h : key ∈ (merged first later).map (·.1)) : key ∈ first.map (·.1) ∨ key ∈ later.map (·.1) := by
  induction later generalizing first with
  | nil => exact .inl h
  | cons e later ih =>
    obtain h | h := ih h
    · exact (mem_keys_put h).imp_right fun he => List.mem_cons.2 (.inl he)
    · exact .inr (List.mem_cons_of_mem _ h)

/-- A schema that is found is asked, and what it accepts is compiled. -/
theorem checked_eq_ok {c : Catalog} {label schema : Value} {props : List (Value × Value)}
    {clauses : List Value} {s : Statement} (hschema : c.nodeSchema? label = .ok (some schema)) :
    (checked (some c) (·.nodeSchema? label) props clauses).outcome = .ok s ↔
      (Schema.check schema (.map props)).outcome = .ok () ∧
        Statement.compile (.list clauses) .null .null = .ok s := by
  have hsize : (c.size == 0) = false := by
    obtain ⟨nodes, rels⟩ := c
    cases nodes with
    | nil =>
      rw [Catalog.nodeSchema?, Catalog.find?] at hschema
      split_ifs at hschema
      cases hschema
    | cons e nodes => simp [Catalog.size]
  simp only [checked, hsize, hschema, Bool.false_eq_true, if_false]
  split
  · next hcheck => simp [hcheck, failed]
  · next hcheck => simp [hcheck]

/-- The sections of a merge that a schema accepts. -/
theorem mergeNode_eq_ok {c : Catalog} {label schema found onCreate onMatch : Value} {s : Statement}
    (hschema : c.nodeSchema? label = .ok (some schema))
    (h : (mergeNode label found onCreate onMatch (some c)).outcome = .ok s) :
    ∃ fs cs ms, propsOf found = .ok fs ∧ propsOf onCreate = .ok cs ∧ propsOf onMatch = .ok ms ∧
      (Schema.check schema (.map (merged (merged fs cs) ms))).outcome = .ok () ∧
      Statement.compile (.list (mergeClauses label fs cs ms)) .null .null = .ok s := by
  rw [mergeNode] at h
  split at h
  · cases h
  · next fs cs ms hgiven =>
    obtain ⟨fs', hfound, hrest⟩ := Except.bind_eq_ok.1 hgiven
    obtain ⟨cs', hcreate, hrest⟩ := Except.bind_eq_ok.1 hrest
    obtain ⟨ms', hmatch, hrest⟩ := Except.bind_eq_ok.1 hrest
    cases hrest
    exact ⟨fs, cs, ms, hfound, hcreate, hmatch, (checked_eq_ok hschema).1 h⟩

/-! ## Merges that are accepted -/

theorem same_text (s : String) (v : Value) : (Value.text s).same v = (v.text? == some s) :=
  Registry.same_toValue (.plain s) v

theorem provides_put {s t : String} {v : Value} {es : List (Value × Value)} :
    Provides ((Value.put (.text t) v es).map (·.1)) (.text s) ↔
      Provides (es.map (·.1)) (.text s) ∨ s = t := by
  induction es with
  | nil => simpa [Provides, Value.put, same_text, Value.text?, Atom.text?] using eq_comm
  | cons e es ih =>
    simp only [Provides, List.map_cons, List.exists_mem_cons_iff] at ih ⊢
    rw [Value.put]
    split_ifs with hsame
    · have hkey : s = t → (Value.text s).same e.1 = true := fun h => h ▸ hsame
      simp only [List.map_cons, List.exists_mem_cons_iff]
      exact ⟨.inl, fun h => h.elim id fun hst => .inl (hkey hst)⟩
    · simp only [List.map_cons, List.exists_mem_cons_iff, ih, or_assoc]

theorem provides_merged {s : String} {first : List (Value × Value)} {ps : List Property} :
    Provides ((merged first (ps.map Property.entry)).map (·.1)) (.text s) ↔
      Provides (first.map (·.1)) (.text s) ∨ s ∈ ps.map Property.key := by
  induction ps generalizing first with
  | nil => simp [merged]
  | cons p ps ih =>
    have hstep : merged first ((p :: ps).map Property.entry) =
        merged (Value.put (.text p.key) p.value first) (ps.map Property.entry) := rfl
    rw [hstep, ih, provides_put, List.map_cons, List.mem_cons, or_assoc]

theorem provides_entries {s : String} {ps : List Property} :
    Provides ((ps.map Property.entry).map (·.1)) (.text s) ↔ s ∈ ps.map Property.key := by
  simp [Provides, Property.entry, same_text, Value.text?, Atom.text?]

/-- A merge is accepted where its sections together have what the schema of its label requires. -/
theorem merges_of_provides {c : Catalog} {label : String} (hlabel : label ≠ "")
    {key properties found onCreate onMatch : Value} {fs cs ms : List Property}
    (hkey : key.isWritable = true)
    (hschema : c.nodeSchema? (.text label) = .ok (some (.nodeSchema key properties)))
    (hfound : Property.GivenBy found fs) (hcreate : Property.GivenBy onCreate cs)
    (hmatch : Property.GivenBy onMatch ms) {ds : List Value} (hds : properties.itemsOf = .ok ds)
    (hread : ∀ d ∈ ds, ∃ name required, declaration d = .ok (.text name, .bool required) ∧
      (required = true → name ∈ (fs ++ cs ++ ms).map Property.key)) :
    (mergeNode (.text label) found onCreate onMatch (some c)).Merges label fs cs ms := by
  obtain ⟨s, bf, bc, bm, hcompile, hrest⟩ := merges_mergeClauses hlabel fs cs ms []
  refine ⟨s, bf, bc, bm, ?_, hrest⟩
  rw [mergeNode_of_propsOf hfound.propsOf_eq hcreate.propsOf_eq hmatch.propsOf_eq,
    checked_eq_ok hschema]
  refine ⟨Schema.check_eq_ok.2 ⟨hkey, ds, hds, fun d hd => ?_, fun k hk => ?_⟩, hcompile⟩
  · obtain ⟨name, required, hdecl, hname⟩ := hread d hd
    refine ⟨_, _, hdecl, ?_⟩
    cases required with
    | false => exact .inl rfl
    | true =>
      have hkeys := hname rfl
      rw [List.map_append, List.map_append, List.mem_append, List.mem_append,
        ← provides_entries, ← provides_merged, ← provides_merged] at hkeys
      exact .inr ⟨rfl, hkeys⟩
  · have htext : ∀ {ps : List Property}, k ∈ (ps.map Property.entry).map (·.1) → k.isKey = true := by
      rintro ps hk
      obtain ⟨_, hmem, rfl⟩ := List.mem_map.1 hk
      obtain ⟨p, -, rfl⟩ := List.mem_map.1 hmem
      rfl
    exact (mem_keys_merged hk).elim (fun hk => (mem_keys_merged hk).elim htext htext) htext

/-! ## New nodes -/

/-- What the schema requires of a merge, one of the sections gives. -/
theorem provides_of_check {properties key : Value} {fs cs ms : List (Value × Value)}
    (h : (check (.nodeSchema key properties) (.map (merged (merged fs cs) ms))).outcome = .ok ())
    {name : Value} (hname : Requires properties name) :
    Provides (fs.map (·.1) ++ cs.map (·.1)) name ∨ Provides (ms.map (·.1)) name := by
  obtain ⟨key, hkey, hsame⟩ := Schema.complete_of_check h name hname
  obtain hkey | hkey := mem_keys_merged hkey
  · exact .inl ⟨key, List.mem_append.2 (mem_keys_merged hkey), hsame⟩
  · exact .inr ⟨key, hkey, hsame⟩

/-- A merge that the schema of its label accepts compiles its clauses.  A node that they create has
every property that the schema requires if and only if it has those of them that `ON MATCH SET`
gives. -/
theorem created_complete_iff {c : Catalog} {label key properties found onCreate onMatch : Value}
    {s : Statement} (hschema : c.nodeSchema? label = .ok (some (.nodeSchema key properties)))
    (h : (mergeNode label found onCreate onMatch (some c)).outcome = .ok s) :
    ∃ fs cs ms, propsOf found = .ok fs ∧ propsOf onCreate = .ok cs ∧ propsOf onMatch = .ok ms ∧
      Statement.compile (.list (mergeClauses label fs cs ms)) .null .null = .ok s ∧
      (Complete properties (keysAfter .onCreate (mergeClauses label fs cs ms)) ↔
        ∀ name, Requires properties name → Provides (ms.map (·.1)) name →
          Provides (fs.map (·.1) ++ cs.map (·.1)) name) := by
  obtain ⟨fs, cs, ms, hfound, hcreate, hmatch, hcheck, hcompile⟩ := mergeNode_eq_ok hschema h
  refine ⟨fs, cs, ms, hfound, hcreate, hmatch, hcompile, ?_⟩
  rw [keysAfter_onCreate]
  constructor
  · intro hcomplete name hname _
    exact hcomplete name hname
  · intro hgiven name hname
    exact (provides_of_check hcheck hname).elim id (hgiven name hname)

/-- Users must have a name and an address. -/
def userProperties : Value :=
  .list [.propertyDef (.text "name") (.text "str") (.bool true) .null,
    .propertyDef (.text "email") (.text "str") (.bool true) .null]

/-- A catalog with the schema of users. -/
def users : Catalog :=
  ⟨[(.text "User", .nodeSchema (.text "User") userProperties)], []⟩

def userName : Property :=
  ⟨"name", .text "Ann", by decide, by decide, rfl⟩

def userEmail : Property :=
  ⟨"email", .text "ann@example.org", by decide, by decide, rfl⟩

theorem nodeSchema?_users :
    users.nodeSchema? (.text "User") = .ok (some (.nodeSchema (.text "User") userProperties)) := by
  simp [users, Catalog.nodeSchema?, Catalog.find?, Value.isKey, Value.lookup, same_text, Value.text?,
    Atom.text?]

/-- Users are accepted with an address in any section. -/
theorem merges_user {onCreate onMatch : Value} {cs ms : List Property}
    (hcreate : Property.GivenBy onCreate cs) (hmatch : Property.GivenBy onMatch ms)
    (hemail : "email" ∈ (cs ++ ms).map Property.key) :
    (mergeNode (.text "User") (.map [userName.entry]) onCreate onMatch (some users)).Merges "User"
      [userName] cs ms := by
  refine merges_of_provides (by decide) rfl nodeSchema?_users (.inl rfl) hcreate hmatch rfl ?_
  rintro d hd
  obtain rfl | rfl := List.mem_pair.1 hd
  · exact ⟨"name", true, rfl, fun _ => List.mem_cons_self⟩
  · exact ⟨"email", true, rfl, fun _ => List.mem_cons_of_mem _ hemail⟩

/-- A merge by name with the address on both outcomes. -/
theorem created_complete_iff_user :
    ∃ s, (mergeNode (.text "User") (.map [userName.entry]) (.map [userEmail.entry])
        (.map [userEmail.entry]) (some users)).outcome = .ok s ∧
      ∃ fs cs ms, propsOf (.map [userName.entry]) = .ok fs ∧ propsOf (.map [userEmail.entry]) = .ok cs ∧
        propsOf (.map [userEmail.entry]) = .ok ms ∧
        Statement.compile (.list (mergeClauses (.text "User") fs cs ms)) .null .null = .ok s ∧
        (Complete userProperties (keysAfter .onCreate (mergeClauses (.text "User") fs cs ms)) ↔
          ∀ name, Requires userProperties name → Provides (ms.map (·.1)) name →
            Provides (fs.map (·.1) ++ cs.map (·.1)) name) := by
  obtain ⟨s, _, _, _, hs, -⟩ := merges_user (.inl rfl : Property.GivenBy _ [userEmail])
    (.inl rfl : Property.GivenBy _ [userEmail]) (by decide)
  exact ⟨s, hs, created_complete_iff nodeSchema?_users hs⟩

/-- A merge by name with the address of a user that is found only: it is accepted, and the node that it
creates has no address. -/
theorem merge_user_without_email :
    (mergeNode (.text "User") (.map [userName.entry]) .null (.map [userEmail.entry])
      (some users)).Merges "User" [userName] [] [userEmail] ∧
    Requires userProperties (.text "email") ∧
    ¬ Provides (keysAfter .onCreate (mergeClauses (.text "User") [userName.entry] []
      [userEmail.entry])) (.text "email") := by
  refine ⟨merges_user (.inr ⟨rfl, rfl⟩) (.inl rfl) (by decide), ?_, ?_⟩
  · exact ⟨_, rfl, _, List.mem_cons_of_mem _ List.mem_cons_self, _, rfl, rfl⟩
  · have hkeys : Provides (([userName].map Property.entry).map (·.1)) (.text "email") ↔
        "email" ∈ [userName].map Property.key := provides_entries
    rw [keysAfter_onCreate, List.map_nil, List.append_nil]
    exact mt hkeys.1 (by decide)

end Mutation

end CypherCompose
