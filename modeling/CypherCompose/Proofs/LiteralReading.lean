import CypherCompose.Text.Literal
import Mathlib.Tactic.SplitIfs

/-!
# Literals read back

`takeLiteral` takes one string literal off the front of a text, from its opening quote on: a backslash
takes the character behind it as it is, and the first quote that no backslash takes closes the literal.

* `escapeChars_eq_replaced`: escaping in one pass is doubling the backslashes of the whole text and then
  putting a backslash in front of its quotes.
* `takeLiteral_quote`: a written literal is read back as its text, whatever follows it.
* `takeLiteral_append`: what is read does not depend on what follows, so no part of a literal is a
  literal.
-/

namespace CypherCompose

namespace Literal

/-- The inside of a literal up to the quote that closes it, and what follows. -/
def takeEscaped : List Char → Option (List Char × List Char)
  | [] => none
  | '\\' :: c :: cs => (takeEscaped cs).map (Prod.map (c :: ·) id)
  | '\'' :: cs => some ([], cs)
  | c :: cs => (takeEscaped cs).map (Prod.map (c :: ·) id)

/-- Takes a literal. -/
def takeLiteral : List Char → Option (List Char × List Char)
  | '\'' :: cs => takeEscaped cs
  | _ => none

/-- A text with other characters in the place of a character, wherever it stands. -/
def replaced (c : Char) (new : List Char) (cs : List Char) : List Char :=
  cs.flatMap fun d => if d = c then new else [d]

/-! ## Escaping -/

/-- The backslashes come first: those in front of the quotes are not doubled. -/
theorem escapeChars_eq_replaced (s : List Char) :
    escapeChars s = replaced '\'' ['\\', '\''] (replaced '\\' ['\\', '\\'] s) := by
  induction s with
  | nil => rfl
  | cons c s ih =>
    have hcons : replaced '\'' ['\\', '\''] (replaced '\\' ['\\', '\\'] (c :: s)) =
        replaced '\'' ['\\', '\''] (if c = '\\' then ['\\', '\\'] else [c]) ++ escapeChars s := by
      rw [ih, replaced, replaced, List.flatMap_cons, List.flatMap_append]
      rfl
    rw [hcons, escapeChars]
    by_cases hb : c = '\\'
    · simp [hb, replaced]
    · by_cases hq : c = '\''
      · simp [hq, replaced]
      · simp [hb, hq, replaced]

theorem toList_quote (s : String) : (quote s).toList = '\'' :: (escapeChars s.toList ++ ['\'']) := by
  simp [quote, escape]

/-! ## Reading -/

theorem takeEscaped_escapeChars (s rest : List Char) :
    takeEscaped (escapeChars s ++ '\'' :: rest) = some (s, rest) := by
  induction s with
  | nil => rfl
  | cons c s ih =>
    rw [escapeChars]
    split_ifs with hc
    · -- the backslash takes the character, whichever of the two it is
      simp [takeEscaped, ih]
    · have hb : c ≠ '\\' ∧ c ≠ '\'' := by simpa using hc
      simp [takeEscaped, ih, hb]

theorem takeLiteral_quote (s : String) (rest : List Char) :
    takeLiteral ((quote s).toList ++ rest) = some (s.toList, rest) := by
  rw [toList_quote, List.cons_append, List.append_assoc, takeLiteral]
  exact takeEscaped_escapeChars s.toList rest

theorem takeEscaped_append {cs s rest : List Char} (h : takeEscaped cs = some (s, rest))
    (more : List Char) : takeEscaped (cs ++ more) = some (s, rest ++ more) := by
  fun_induction takeEscaped cs generalizing s with
  | case1 => cases h
  | case2 c cs ih =>
    obtain ⟨⟨t, rest'⟩, ht, heq⟩ := Option.map_eq_some_iff.1 h
    obtain ⟨rfl, rfl⟩ := Prod.mk.inj heq
    simp [takeEscaped, ih ht]
  | case3 cs =>
    cases h
    rfl
  | case4 c cs hb hq ih =>
    obtain ⟨⟨t, rest'⟩, ht, heq⟩ := Option.map_eq_some_iff.1 h
    obtain ⟨rfl, rfl⟩ := Prod.mk.inj heq
    -- a backslash at the end takes nothing and closes nothing
    have hc : c ≠ '\\' := by
      rintro rfl
      cases cs with
      | nil => cases ht
      | cons d ds => exact hb d ds rfl rfl
    simp [takeEscaped, ih ht, hc]

theorem takeLiteral_append {cs s rest : List Char} (h : takeLiteral cs = some (s, rest))
    (more : List Char) : takeLiteral (cs ++ more) = some (s, rest ++ more) := by
  unfold takeLiteral at h
  split at h
  · exact takeEscaped_append h more
  · cases h

theorem quote_append_eq_iff (s t : String) (rest rest' : List Char) :
    (quote s).toList ++ rest = (quote t).toList ++ rest' ↔ s = t ∧ rest = rest' := by
  constructor
  · intro h
    have hread := takeLiteral_quote s rest
    rw [h, takeLiteral_quote] at hread
    obtain ⟨hs, hrest⟩ := Prod.mk.inj (Option.some.inj hread)
    exact ⟨String.toList_injective hs.symm, hrest.symm⟩
  · rintro ⟨rfl, rfl⟩
    rfl

/-- The first characters of a literal make up a literal only if they are all of it. -/
theorem takeLiteral_take_quote (s : String) (n : Nat) :
    (takeLiteral ((quote s).toList.take n)).isSome = true ↔ (quote s).length ≤ n := by
  constructor
  · intro h
    obtain ⟨⟨t, rest⟩, hread⟩ := Option.isSome_iff_exists.1 h
    have hwhole := takeLiteral_append hread ((quote s).toList.drop n)
    have hquote := takeLiteral_quote s []
    rw [List.append_nil, ← List.take_append_drop n (quote s).toList, hwhole] at hquote
    have hnil := (Prod.mk.inj (Option.some.inj hquote)).2
    rw [List.append_eq_nil_iff, List.drop_eq_nil_iff, String.length_toList] at hnil
    exact hnil.2
  · intro h
    have hquote := takeLiteral_quote s []
    rw [List.append_nil] at hquote
    rw [List.take_of_length_le (by rwa [String.length_toList]), hquote]
    rfl

/-- A literal delimits itself.  It is the text with its backslashes doubled and then its quotes escaped,
between quotes; in front of any text it is read back as its own text, with all that follows left over;
no two texts have the same literal; and it is not complete before its last character. -/
theorem quote_delimits_itself (s : String) :
    (quote s).toList =
      '\'' :: (replaced '\'' ['\\', '\''] (replaced '\\' ['\\', '\\'] s.toList) ++ ['\'']) ∧
    (∀ rest, takeLiteral ((quote s).toList ++ rest) = some (s.toList, rest)) ∧
    (∀ t, quote s = quote t ↔ s = t) ∧
    ∀ n, (takeLiteral ((quote s).toList.take n)).isSome = true ↔ (quote s).length ≤ n := by
  refine ⟨?_, takeLiteral_quote s, fun t => ?_, takeLiteral_take_quote s⟩
  · rw [toList_quote, escapeChars_eq_replaced]
  · have hiff := quote_append_eq_iff s t [] []
    rw [List.append_nil, List.append_nil, String.toList_inj] at hiff
    simpa using hiff

example : takeLiteral "'it\\'s \\\\' = 'x'".toList = some ("it's \\".toList, " = 'x'".toList) := by
  decide

end Literal

end CypherCompose
