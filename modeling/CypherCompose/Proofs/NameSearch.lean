import CypherCompose.Mutation
import CypherCompose.Proofs.Drafts
import Mathlib.Data.Finset.Card
import Mathlib.Order.Nat

/-!
# The search for a name

A pool offers a key itself as a name, then the key behind its section, and then the numbered names of
the section in turn.  `NamePool.Searches` is this last search as it runs, and nothing bounds it.  It ends
all the same, at the least number that is free, and tries at most one name more than are given away
(`NamePool.exists_endsAt`): the numbered names are all different, so they outrun any list of names.

`NamePool.take` picks its names in this order, and gives each away that it picks
(`NamePool.exists_picks`).
-/

namespace CypherCompose

namespace NamePool

open Identifier

variable {pool : NamePool} {sec : String} {key name : Word}

/-! ## The numbered names -/

theorem numbered_injective (sec : String) : Function.Injective (numbered sec) := by
  intro i j h
  have htext : (toString i).toList = (toString j).toList := by
    simpa [numbered] using congrArg String.toList h
  rw [Nat.toString_eq_repr, Nat.toString_eq_repr, Nat.toList_repr, Nat.toList_repr] at htext
  have hnumber := congrArg (Nat.ofDigitChars 10 · 0) htext
  simpa only [Nat.ofDigitChars_ten_toDigits] using hnumber

/-- There are more numbers to try than names given away. -/
theorem exists_numbered_not_mem (pool : NamePool) (sec : String) :
    ∃ i ≤ pool.used.toFinset.card, numbered sec i ∉ pool.used := by
  by_contra! hused
  have hsubset : (Finset.range (pool.used.toFinset.card + 1)).image (numbered sec) ⊆
      pool.used.toFinset := by
    intro name hname
    obtain ⟨i, hi, rfl⟩ := Finset.mem_image.1 hname
    exact List.mem_toFinset.2 (hused i (Nat.lt_succ_iff.1 (Finset.mem_range.1 hi)))
  have hcard := Finset.card_le_card hsubset
  rw [Finset.card_image_of_injective _ (numbered_injective sec), Finset.card_range] at hcard
  omega

/-- The search through the numbered names from a number on: it passes over names given away and stops
at the first that is free, after so many tries. -/
inductive Searches (pool : NamePool) (sec : String) : Nat → Nat → String → Prop
  | stop {i : Nat} (hfree : numbered sec i ∉ pool.used) : Searches pool sec i 1 (numbered sec i)
  | pass {i tries : Nat} {found : String} (hused : numbered sec i ∈ pool.used)
      (hrest : Searches pool sec (i + 1) tries found) : Searches pool sec i (tries + 1) found

theorem searches_iff {start tries : Nat} {found : String} :
    pool.Searches sec start tries found ↔
      ∃ n, tries = n + 1 ∧ found = numbered sec (start + n) ∧
        numbered sec (start + n) ∉ pool.used ∧ ∀ j < n, numbered sec (start + j) ∈ pool.used := by
  -- a name passed over moves the start on by one, and every later number stays where it is
  have hshift (i j : Nat) : i + (j + 1) = i + 1 + j := by omega
  constructor
  · intro h
    induction h with
    | stop hfree => exact ⟨0, rfl, rfl, hfree, nofun⟩
    | @pass i tries found hused _ ih =>
      obtain ⟨n, rfl, rfl, hfree, hbefore⟩ := ih
      rw [← hshift i n] at hfree ⊢
      refine ⟨n + 1, rfl, rfl, hfree, fun j hj => ?_⟩
      cases j with
      | zero => exact hused
      | succ j =>
        rw [hshift i j]
        exact hbefore j (by omega)
  · rintro ⟨n, rfl, rfl, hfree, hbefore⟩
    induction n generalizing start with
    | zero => exact .stop hfree
    | succ n ih =>
      rw [hshift start n] at hfree ⊢
      refine .pass (hbefore 0 n.succ_pos) (ih hfree fun j hj => ?_)
      rw [← hshift start j]
      exact hbefore (j + 1) (by omega)

/-- The search ends at a number: it is the least that is free, and it is reached within one try more than
there are names given away. -/
structure EndsAt (pool : NamePool) (sec : String) (i : Nat) : Prop where
  least : IsLeast {j | numbered sec j ∉ pool.used} i
  bound : i + 1 ≤ pool.used.toFinset.card + 1
  searches : ∀ tries found,
    pool.Searches sec 0 tries found ↔ tries = i + 1 ∧ found = numbered sec i

theorem numbered_mem_of_lt {i j : Nat} (h : IsLeast {j | numbered sec j ∉ pool.used} i) (hj : j < i) :
    numbered sec j ∈ pool.used := by
  by_contra hfree
  exact absurd (h.2 hfree) (Nat.not_le.2 hj)

theorem searches_iff_of_isLeast {i : Nat} (h : IsLeast {j | numbered sec j ∉ pool.used} i)
    (tries : Nat) (found : String) :
    pool.Searches sec 0 tries found ↔ tries = i + 1 ∧ found = numbered sec i := by
  rw [searches_iff]
  simp only [Nat.zero_add]
  constructor
  · rintro ⟨n, rfl, rfl, hfree, hn⟩
    have hle : n ≤ i := Nat.not_lt.1 fun hlt => h.1 (hn i hlt)
    obtain rfl := hle.antisymm (h.2 hfree)
    exact ⟨rfl, rfl⟩
  · rintro ⟨rfl, rfl⟩
    exact ⟨i, rfl, rfl, h.1, fun j hj => numbered_mem_of_lt h hj⟩

theorem exists_endsAt (pool : NamePool) (sec : String) : ∃ i, pool.EndsAt sec i := by
  obtain ⟨k, hk, hfree⟩ := exists_numbered_not_mem pool sec
  have hleast := Nat.isLeast_find (p := fun j => numbered sec j ∉ pool.used) ⟨k, hfree⟩
  exact ⟨_, hleast, Nat.succ_le_succ ((hleast.2 hfree).trans hk), searches_iff_of_isLeast hleast⟩

theorem EndsAt.firstFree_eq {i : Nat} (h : pool.EndsAt sec i) : pool.firstFree sec = numbered sec i := by
  have hrange : i ∈ List.range (pool.used.length + 1) :=
    List.mem_range.2 (h.bound.trans (Nat.succ_le_succ pool.used.toFinset_card_le))
  have hfind : (List.range (pool.used.length + 1)).find?
      (fun j => !pool.used.contains (numbered sec j)) = some i := by
    refine List.find?_range_eq_some.2 ⟨?_, hrange, fun j hj => ?_⟩
    · simpa using h.least.1
    · simpa using numbered_mem_of_lt h.least hj
  rw [firstFree, hfind, Option.getD_some]

/-! ## The names that are picked -/

/-- The key behind its section. -/
def sectioned (sec : String) (key : Word) : String :=
  sec ++ "_" ++ key.filled

/-- A name that is made from a key can be had if the key is valid and the name is free. -/
def Admits (pool : NamePool) (key : Word) (s : String) : Prop :=
  isPlain key.text = true ∧ s ∉ pool.used

instance (pool : NamePool) (key : Word) (s : String) : Decidable (pool.Admits key s) :=
  inferInstanceAs (Decidable (_ ∧ _))

/-- The name that is picked for a key: the key itself if it can be had, otherwise the key behind its
section, and otherwise the numbered name where the search ends. -/
inductive Picks (pool : NamePool) (sec : String) (key : Word) : Word → Prop
  | key (hkey : pool.Admits key key.text) : Picks pool sec key key
  | sectioned (hkey : ¬ pool.Admits key key.text) (hsec : pool.Admits key (sectioned sec key)) :
      Picks pool sec key (.plain (sectioned sec key))
  | numbered {i : Nat} (hkey : ¬ pool.Admits key key.text)
      (hsec : ¬ pool.Admits key (sectioned sec key)) (hends : pool.EndsAt sec i) :
      Picks pool sec key (.plain (numbered sec i))

theorem candidates_toValue (key : Word) (sec : String) :
    candidates key.toValue sec =
      if isPlain key.text then [key.toValue, (Word.plain (sectioned sec key)).toValue] else [] := by
  have hname : ParamName.ofValue? key.toValue = ParamName.ofWord? key := by
    cases key <;> rfl
  rw [candidates, hname, ParamName.ofWord?]
  split_ifs with hplain
  · rfl
  · rfl

theorem isFree_toValue {w : Word} : pool.isFree w.toValue = true ↔ w.text ∉ pool.used := by
  rw [isFree, w.text?_toValue]
  simp

theorem find?_candidates (pool : NamePool) (key : Word) (sec : String) :
    (candidates key.toValue sec).find? pool.isFree =
      if pool.Admits key key.text then some key.toValue
      else if pool.Admits key (sectioned sec key) then some (Word.plain (sectioned sec key)).toValue
      else none := by
  rw [candidates_toValue]
  by_cases hplain : isPlain key.text = true
  · rw [if_pos hplain]
    split_ifs with hkey hsec
    · exact List.find?_cons_of_pos (isFree_toValue.2 hkey.2)
    · rw [List.find?_cons_of_neg fun h => hkey ⟨hplain, isFree_toValue.1 h⟩]
      exact List.find?_cons_of_pos (isFree_toValue.2 hsec.2)
    · rw [List.find?_cons_of_neg fun h => hkey ⟨hplain, isFree_toValue.1 h⟩,
        List.find?_cons_of_neg fun h => hsec ⟨hplain, isFree_toValue.1 h⟩]
      rfl
  · rw [if_neg hplain, if_neg fun h => hplain h.1, if_neg fun h => hplain h.1]
    rfl

theorem take_toValue (hname :
      ((candidates key.toValue sec).find? pool.isFree).getD (.text (pool.firstFree sec)) =
        name.toValue) :
    pool.take key.toValue sec = (name.toValue, ⟨name.text :: pool.used⟩) := by
  simp only [take, hname, name.text?_toValue, Option.toList_some, List.singleton_append]

/-- A name is picked for every key, and it is given away from then on. -/
theorem exists_picks (pool : NamePool) (sec : String) (key : Word) :
    ∃ name : Word, pool.take key.toValue sec = (name.toValue, ⟨name.text :: pool.used⟩) ∧
      pool.Picks sec key name := by
  have hfind := find?_candidates pool key sec
  split_ifs at hfind with hkey hsec
  · refine ⟨key, take_toValue ?_, .key hkey⟩
    rw [hfind, Option.getD_some]
  · refine ⟨_, take_toValue ?_, .sectioned hkey hsec⟩
    rw [hfind, Option.getD_some]
  · obtain ⟨i, hi⟩ := pool.exists_endsAt sec
    refine ⟨_, take_toValue ?_, .numbered hkey hsec hi⟩
    rw [hfind, Option.getD_none, hi.firstFree_eq]
    rfl

theorem Picks.not_mem (h : pool.Picks sec key name) : name.text ∉ pool.used := by
  cases h with
  | key hkey => exact hkey.2
  | sectioned _ hsec => exact hsec.2
  | numbered _ _ hends => exact hends.least.1

end NamePool

end CypherCompose
