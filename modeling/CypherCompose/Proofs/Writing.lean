import CypherCompose.Error
import Mathlib.Algebra.Order.Ring.Nat

/-!
# What can be written

An integer is written if it has at most `Numeral.maxDigits` digits (`Numeral.isWritable_iff`), and a
value if all the integers that it shows are.  A message is written if its values are
(`Message.isSome_text?`).  So an error is raised as it is, unless its message holds a value that
cannot be written (`Error.raised_cases`).
-/

namespace CypherCompose

/-! ## Integers -/

namespace Numeral

theorem fits_iff (d n : Nat) : fits d n = true ↔ n < 10 ^ d := by
  induction d generalizing n with
  | zero => simp [fits]
  | succ d ih =>
    have hpos : 0 < 10 ^ (d + 1) := Nat.pow_pos (by decide)
    have hdiv : n / 10 < 10 ^ d ↔ n < 10 ^ (d + 1) := by
      rw [Nat.pow_succ, Nat.div_lt_iff_lt_mul (by decide)]
    rw [fits, Bool.or_eq_true, ih, hdiv, beq_iff_eq]
    omega

theorem isWritable_iff (n : Int) : isWritable n = true ↔ n.natAbs < 10 ^ maxDigits :=
  fits_iff maxDigits n.natAbs

/-- An integer of more than five thousand digits. -/
def tooLong : Int := (16 ^ maxDigits : Nat)

theorem isWritable_tooLong : isWritable tooLong = false := by
  have hle : 10 ^ maxDigits ≤ 16 ^ maxDigits := Nat.pow_le_pow_left (by decide) maxDigits
  rw [Bool.eq_false_iff, Ne, isWritable_iff]
  exact Nat.not_lt.2 hle

end Numeral

/-! ## Values -/

namespace Value

variable {v : Value}

theorem isWritable_int (n : Int) : (int n).isWritable = Numeral.isWritable n := rfl

theorem isWritable_of_isText (h : v.isText = true) : v.isWritable = true := by
  cases v with
  | atom a => cases a <;> first | rfl | cases h
  | _ => cases h

theorem isSome_inspect? (v : Value) : v.inspect?.isSome = v.isWritable := by
  unfold inspect?
  cases v.isWritable <;> rfl

theorem isSome_display? (v : Value) : v.display?.isSome = v.isWritable := by
  unfold display?
  split
  · rfl
  · rfl
  · rfl
  · rfl
  · exact isSome_inspect? v

end Value

/-! ## Messages -/

theorem Phrase.isSome_text? (p : Phrase) : p.text?.isSome = p.isWritable := by
  cases p with
  | words s => rfl
  | shown v => exact v.isSome_inspect?
  | bare v => exact v.isSome_display?

/-- A message has a text exactly if it can be written. -/
theorem Message.isSome_text? (m : Message) : m.text?.isSome = m.isWritable := by
  rw [Message.text?, Option.isSome_map]
  induction m with
  | nil => rfl
  | cons p m ih =>
    rw [List.mapM_cons, Message.isWritable_cons, ← p.isSome_text?, ← ih]
    cases p.text? with
    | none => rfl
    | some s => cases m.mapM Phrase.text? <;> rfl

/-! ## Errors -/

namespace Error

variable {e : Error}

theorem raised_of_isWritable (h : e.isWritable = true) : e.raised = e :=
  if_pos h

theorem raised_of_not_isWritable (h : e.isWritable = false) : e.raised = .misuse .unwritable :=
  if_neg (by simp [h])

theorem raised_cases (e : Error) :
    e.isWritable = true ∧ e.raised = e ∨ e.isWritable = false ∧ e.raised = .misuse .unwritable := by
  cases h : e.isWritable with
  | true => exact .inl ⟨rfl, raised_of_isWritable h⟩
  | false => exact .inr ⟨rfl, raised_of_not_isWritable h⟩

end Error

end CypherCompose
