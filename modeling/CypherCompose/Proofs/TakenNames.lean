import CypherCompose.Proofs.Leaves
import CypherCompose.Proofs.NameReading

/-!
# The names that a pool gives away

What a pool hands out for a key is settled by its search (`NamePool.Picks`).  A name that is picked is
valid, with one exception: behind a section, a key that is a symbol stands under its qualified name, and
the point in it is no part of a valid name (`NamePool.Picks.isPlain_iff`).  A name that is picked is new, so
the names for any sequence of keys are all different (`NamePool.exists_takeAll`).

`NamePool.take_finds_fresh` says so for every pool, key and section.  `NamePool.take_forward_again` is a merge
that is refused for the name of one of its own parameters.
-/

namespace CypherCompose

namespace Identifier

theorem dropLineEnd_append (xs : List Char) {ys : List Char} (hys : ys ≠ []) :
    dropLineEnd (xs ++ ys) = xs ++ dropLineEnd ys := by
  induction xs with
  | nil => rfl
  | cons c xs ih =>
    have hne : xs ++ ys ≠ [] := List.append_ne_nil_of_right_ne_nil xs hys
    rw [List.cons_append, dropLineEnd, ih, List.cons_append]
    exact fun _ h => hne h

theorem isPlain_append {s t : String} (hs : isWord s.toList = true) (ht : isPlain t = true) :
    isPlain (s ++ t) = true := by
  have hne : t.toList ≠ [] := by
    intro hnil
    rw [isPlain, hnil] at ht
    cases ht
  rw [isPlain, String.toList_append, dropLineEnd_append _ hne]
  exact isWord_append hs (all_isTail_of_isWord ht)

theorem isPlain_of_point_mem {s : String} (h : '.' ∈ s.toList) : isPlain s = false := by
  by_contra hplain
  rw [Bool.not_eq_false] at hplain
  have hmem : '.' ∈ dropLineEnd s.toList := (mem_dropLineEnd h).resolve_right (by decide)
  exact absurd (isTail_of_isWord hplain hmem) (by decide)

end Identifier

namespace NamePool

open Identifier

variable {pool : NamePool} {sec : String} {key name : Word}

/-! ## Valid names -/

/-- The key is a symbol that is given away, and behind the section it is free under its qualified
name. -/
def Qualifies (pool : NamePool) (sec : String) (key : Word) : Prop :=
  key.symbol? ≠ none ∧ key.text ∈ pool.used ∧ sectioned sec key ∉ pool.used

/-- Behind a section a valid key stays valid, unless it is a symbol: the qualified name has a point. -/
theorem isPlain_sectioned_iff (hsec : isWord sec.toList = true) (hkey : isPlain key.text = true) :
    isPlain (sectioned sec key) = true ↔ key.symbol? = none := by
  rw [sectioned, Word.filled]
  cases hsymbol : key.symbol? with
  | none =>
    have hplain := isPlain_append (isWord_underscore hsec) hkey
    simpa using hplain
  | some q =>
    obtain ⟨first, more, hq, -, -⟩ := exists_of_symbol? hsymbol
    have hpoint : '.' ∈ (sec ++ "_" ++ q).toList := by
      rw [String.toList_append, hq]
      simp
    simp [isPlain_of_point_mem hpoint]

/-- A name that is picked is valid, unless it is the qualified name of a symbol behind its section. -/
theorem Picks.isPlain_iff (hsec : isWord sec.toList = true) (h : pool.Picks sec key name) :
    isPlain name.text = true ↔ ¬ pool.Qualifies sec key := by
  cases h with
  | key hkey =>
    exact iff_of_true hkey.1 fun hqualifies => hkey.2 hqualifies.2.1
  | sectioned hkey hadmits =>
    have hused : key.text ∈ pool.used := not_not.1 fun hfree => hkey ⟨hadmits.1, hfree⟩
    rw [Word.text, isPlain_sectioned_iff hsec hadmits.1, Qualifies]
    simp [hused, hadmits.2]
  | @numbered i hkey hadmits hends =>
    have hplain := isPlain_of_isWord (isWord_numbered hsec i)
    refine iff_of_true hplain fun hqualifies => ?_
    -- a symbol is a valid key, so its name behind the section would have been had
    obtain ⟨q, hq⟩ := Option.ne_none_iff_exists'.1 hqualifies.1
    exact hadmits ⟨Token.isPlain_of_symbol hq, hqualifies.2.2⟩

/-! ## Sequences of keys -/

/-- Names taken one after the other, each for a key and a section. -/
def takeAll (pool : NamePool) : List (Word × String) → List Value × NamePool
  | [] => ([], pool)
  | (key, sec) :: requests =>
      let (name, pool) := pool.take key.toValue sec
      let (names, pool) := takeAll pool requests
      (name :: names, pool)

theorem exists_takeAll (pool : NamePool) (requests : List (Word × String)) :
    ∃ names : List Word, pool.takeAll requests =
        (names.map Word.toValue, ⟨(names.map Word.text).reverse ++ pool.used⟩) ∧
      (names.map Word.text).Nodup ∧ ∀ name ∈ names, name.text ∉ pool.used := by
  induction requests generalizing pool with
  | nil => exact ⟨[], rfl, .nil, nofun⟩
  | cons request requests ih =>
    obtain ⟨key, sec⟩ := request
    obtain ⟨name, htake, hpicks⟩ := pool.exists_picks sec key
    -- what is free after the first name is neither that name nor given away before
    obtain ⟨names, hnames, hnodup, hfree⟩ := ih ⟨name.text :: pool.used⟩
    refine ⟨name :: names, ?_, ?_, ?_⟩
    · rw [takeAll, htake]
      simp [hnames]
    · rw [List.map_cons, List.nodup_cons]
      refine ⟨fun hmem => ?_, hnodup⟩
      obtain ⟨other, hother, htext⟩ := List.mem_map.1 hmem
      exact hfree other hother (htext ▸ List.mem_cons_self)
    · refine List.forall_mem_cons.2 ⟨hpicks.not_mem, fun other hother hused => ?_⟩
      exact hfree other hother (List.mem_cons_of_mem _ hused)

theorem bind_eq_takeAll (pool : NamePool) (sec : String) (props : List (Word × Value)) :
    pool.bind sec (props.map fun p => (p.1.toValue, p.2)) =
      let taken := pool.takeAll (props.map fun p => (p.1, sec))
      (List.zipWith (fun p name => (p.1.toValue, .param name p.2)) props taken.1, taken.2) := by
  induction props generalizing pool with
  | nil => rfl
  | cons p props ih =>
    simp only [List.map_cons, bind, ih, takeAll, List.zipWith_cons_cons]

/-! ## Every key -/

/-- For every key and every section that is a word, a pool hands out a name that was not given away, and
gives away this name and no other.  It is the key, the key behind its section, or, where neither can be
had, the numbered name where the search ends; it is valid unless it is the qualified name of a symbol
behind the section.  The names handed out one after the other are all different, and none was given away
before.  To bind properties is to take a name for each of their keys in this way. -/
theorem take_finds_fresh {sec : String} (hsec : isWord sec.toList = true) (pool : NamePool) (key : Word) :
    (∃ name : Word, pool.take key.toValue sec = (name.toValue, ⟨name.text :: pool.used⟩) ∧
      name.text ∉ pool.used ∧ pool.Picks sec key name ∧
      (isPlain name.text = true ↔ ¬ pool.Qualifies sec key)) ∧
    (∀ requests : List (Word × String), ∃ names : List Word,
      pool.takeAll requests =
        (names.map Word.toValue, ⟨(names.map Word.text).reverse ++ pool.used⟩) ∧
      (names.map Word.text).Nodup ∧ ∀ name ∈ names, name.text ∉ pool.used) ∧
    ∀ props : List (Word × Value),
      pool.bind sec (props.map fun p => (p.1.toValue, p.2)) =
        let taken := pool.takeAll (props.map fun p => (p.1, sec))
        (List.zipWith (fun p name => (p.1.toValue, .param name p.2)) props taken.1, taken.2) := by
  obtain ⟨name, htake, hpicks⟩ := pool.exists_picks sec key
  exact ⟨⟨name, htake, hpicks.not_mem, hpicks, hpicks.isPlain_iff hsec⟩, pool.exists_takeAll,
    pool.bind_eq_takeAll sec⟩

/-- A pool that has given away a key, the key behind its section, and two numbered names. -/
def crowdedPool : NamePool :=
  ⟨["props_p1", "name", "props_p0", "props_name"]⟩

/-- Keys that come back, that look like a numbered name, and that are not valid. -/
def crowdingRequests : List (Word × String) :=
  [(.plain "name", "props"), (.plain "props_p2", "props"), (.plain "props_p2", "match"),
    (.plain "a b", "match")]

theorem take_finds_fresh_crowdedPool :
    isWord "props".toList = true ∧
      crowdedPool.take (.text "name") "props" =
        (.text "props_p2", ⟨"props_p2" :: crowdedPool.used⟩) ∧
      "props_p2" ∉ crowdedPool.used ∧
      crowdedPool.Picks "props" (.plain "name") (.plain "props_p2") ∧
      isPlain "props_p2" = true ∧
      ∃ names : List Word, (crowdedPool.takeAll crowdingRequests).1 = names.map Word.toValue ∧
        names.map Word.text = ["props_p2", "props_props_p2", "match_props_p2", "match_p0"] ∧
        (names.map Word.text).Nodup := by
  have hsec : isWord "props".toList = true := by decide
  have htake : crowdedPool.take (Word.plain "name").toValue "props" =
      ((Word.plain "props_p2").toValue, ⟨"props_p2" :: crowdedPool.used⟩) := rfl
  have hused : (crowdedPool.takeAll crowdingRequests).2.used =
      ["match_p0", "match_props_p2", "props_props_p2", "props_p2"] ++ crowdedPool.used := rfl
  obtain ⟨⟨name, hname, hfree, hpicks, hvalid⟩, hsequence, -⟩ :=
    take_finds_fresh hsec crowdedPool (.plain "name")
  obtain rfl : name = .plain "props_p2" := by
    have hvalue : name.toValue = .text "props_p2" := congrArg Prod.fst (hname.symm.trans htake)
    cases name <;> cases hvalue
    rfl
  obtain ⟨names, hnames, hnodup, -⟩ := hsequence crowdingRequests
  have htexts : (names.map Word.text).reverse =
      ["match_p0", "match_props_p2", "props_props_p2", "props_p2"] := by
    rw [hnames] at hused
    exact List.append_cancel_right hused
  refine ⟨hsec, htake, hfree, hpicks, hvalid.2 fun h => h.1 rfl, names, by rw [hnames], ?_, hnodup⟩
  rw [← List.reverse_reverse (names.map Word.text), htexts]
  rfl

/-- A symbol that is given away already: the name handed out for it is not valid, and a merge that needs
it is refused. -/
theorem take_forward_again :
    NamePool.take ⟨["forward"]⟩ (.atom (.direction .forward)) "on_create" =
      (.text "on_create_Direction.FORWARD", ⟨["on_create_Direction.FORWARD", "forward"]⟩) ∧
    isPlain "on_create_Direction.FORWARD" = false ∧
    (Mutation.mergeNode (.text "T") (.map [(.text "forward", .int 1)])
      (.map [(.atom (.direction .forward), .int 2)]) .null none).outcome =
        .error (.expr (.badParameterName (.text "on_create_Direction.FORWARD"))) :=
  ⟨rfl, by decide, rfl⟩

end NamePool

end CypherCompose
