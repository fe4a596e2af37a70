import CypherCompose.Proofs.Lexeme
import CypherCompose.Proofs.NameSearch
import Mathlib.Data.List.Nodup

/-!
# Names for parameters

A pool hands out names for the keys of property maps.  Keys may be any texts: they may be no
identifiers, they may come back in another map, and they may look like a name that the pool would make
up.  Whatever they are,

* a name handed out is a word that was not handed out before (`NamePool.exists_take`), since the search
  for it ends at one that is free (`NamePool.exists_picks`);
* the names for a whole map are all different (`NamePool.exists_bind`).
-/

namespace CypherCompose

/-! ## Words -/

namespace Identifier

theorem isWord_append {cs ds : List Char} (hcs : isWord cs = true) (hds : ds.all isTail = true) :
    isWord (cs ++ ds) = true := by
  cases cs with
  | nil => cases hcs
  | cons c cs =>
    rw [isWord, Bool.and_eq_true] at hcs
    rw [List.cons_append, isWord, List.all_append, hcs.1, hcs.2, hds]
    rfl

theorem unbroken_of_isWord {s : String} (h : isWord s.toList = true) : Unbroken s := by
  intro hlast
  have htail := isTail_of_isWord h (List.mem_of_getLast? hlast)
  exact absurd htail (by decide)

theorem isPlain_of_isWord {s : String} (h : isWord s.toList = true) : isPlain s = true := by
  rw [isPlain, dropLineEnd_of_unbroken (unbroken_of_isWord h), h]

theorem isWord_of_isPlain {s : String} (hs : Unbroken s) (h : isPlain s = true) :
    isWord s.toList = true := by
  rwa [isPlain, dropLineEnd_of_unbroken hs] at h

theorem all_isTail_of_isWord {cs : List Char} (h : isWord cs = true) : cs.all isTail = true :=
  List.all_eq_true.2 fun _ hc => isTail_of_isWord h hc

theorem all_isTail_toString (n : Nat) : (toString n).toList.all isTail = true := by
  rw [Nat.toString_eq_repr, Nat.toList_repr, List.all_eq_true]
  intro c hc
  have hdigit : c.isDigit = true := Nat.isDigit_of_mem_toDigits (by omega) (by omega) hc
  simp [isTail, Char.isAlphanum, hdigit]

end Identifier

/-! ## Names handed out -/

namespace NamePool

open Identifier

variable {sec key : String}

theorem isWord_numbered (hsec : isWord sec.toList = true) (i : Nat) :
    isWord (numbered sec i).toList = true := by
  rw [numbered, String.toList_append, String.toList_append]
  exact isWord_append (isWord_append hsec (by decide)) (all_isTail_toString i)

theorem isWord_underscore (hsec : isWord sec.toList = true) : isWord (sec ++ "_").toList = true := by
  rw [String.toList_append]
  exact isWord_append hsec (by decide)

/-- A name handed out is a word, and it is new. -/
theorem exists_take (pool : NamePool) (hsec : isWord sec.toList = true) (hkey : Unbroken key) :
    ∃ name, pool.take (.text key) sec = (.text name, ⟨name :: pool.used⟩) ∧
      isWord name.toList = true ∧ name ∉ pool.used := by
  obtain ⟨name, htake, hpicks⟩ := pool.exists_picks sec (.plain key)
  cases hpicks with
  | key hadmits => exact ⟨key, htake, isWord_of_isPlain hkey hadmits.1, hadmits.2⟩
  | sectioned _ hadmits =>
    have hword := isWord_of_isPlain hkey hadmits.1
    refine ⟨sec ++ "_" ++ key, htake, ?_, hadmits.2⟩
    rw [String.toList_append]
    exact isWord_append (isWord_underscore hsec) (all_isTail_of_isWord hword)
  | @numbered i _ _ hends =>
    exact ⟨numbered sec i, htake, isWord_numbered hsec i, hends.least.1⟩

end NamePool

/-! ## Properties and their parameters -/

/-- A property with a key that can be written and a value of its own. -/
structure Property where
  key : String
  value : Value
  nonempty : key ≠ ""
  unbroken : Unbroken key
  isSet : Registry.isUnset value = false

/-- The entry of a property in a map. -/
def Property.entry (p : Property) : Value × Value :=
  (.text p.key, p.value)

/-- A property with the name of the parameter that stands for its value. -/
structure Binding where
  property : Property
  name : String
  isWord : Identifier.isWord name.toList = true

namespace Binding

/-- The parameter in the place of the value. -/
def entry (b : Binding) : Value × Value :=
  (.text b.property.key, .param (.text b.name) b.property.value)

/-- The name with the value it stands for. -/
def bound (b : Binding) : String × Value :=
  (b.name, b.property.value)

end Binding

/-- Every property has a parameter with a name of its own, and none of the names was used before. -/
theorem NamePool.exists_bind {sec : String} (hsec : Identifier.isWord sec.toList = true)
    (ps : List Property) (pool : NamePool) (hused : pool.used.Nodup) :
    ∃ bs : List Binding, bs.map Binding.property = ps ∧
      pool.bind sec (ps.map Property.entry) =
        (bs.map Binding.entry, ⟨(bs.map Binding.name).reverse ++ pool.used⟩) ∧
      ((bs.map Binding.name).reverse ++ pool.used).Nodup := by
  induction ps generalizing pool with
  | nil => exact ⟨[], rfl, rfl, hused⟩
  | cons p ps ih =>
    obtain ⟨name, htake, hword, hnew⟩ := pool.exists_take hsec p.unbroken
    obtain ⟨bs, rfl, hbind, hnodup⟩ := ih ⟨name :: pool.used⟩ (List.nodup_cons.2 ⟨hnew, hused⟩)
    refine ⟨⟨p, name, hword⟩ :: bs, rfl, ?_, ?_⟩
    · rw [List.map_cons, Property.entry, bind, htake]
      simp only [hbind]
      simp [Binding.entry]
    · simpa using hnodup

end CypherCompose
