import CypherCompose.Token
import Mathlib.Data.List.Chain
import Mathlib.Tactic.ByContra
import Mathlib.Tactic.SplitIfs

/-!
# Scanning a text

`scan` reads a text from left to right and tells what stands inside strings and backticks from what
stands outside.  A string goes from a single quote to the next one, a backslash taking the character
behind it as it is; a quoted name goes from a backtick to the next lone one, two in a row standing
for one.  A text that ends inside either has no scan.

The scan of a text goes on behind a string or a quoted name as if it began there
(`scanFrom_literal`, `scanFrom_quote`), and the characters of plain names and of numbers are marks
of their own.
-/

namespace CypherCompose

/-- What a scan finds: a character outside, a whole string, or a whole quoted name. -/
inductive Mark where
  | char (c : Char)
  | string (s : String)
  | quoted (s : String)
  deriving DecidableEq, Repr

namespace Mark

/-- The character that a mark is. -/
def char? : Mark → Option Char
  | char c => some c
  | _ => none

/-- The string that a mark is. -/
def string? : Mark → Option String
  | string s => some s
  | _ => none

/-- The name that a mark quotes. -/
def quoted? : Mark → Option String
  | quoted s => some s
  | _ => none

end Mark

/-- Where a scan is, with the characters read of what it is inside of.  `escape` is behind a
backslash of a string, and `closing` behind a backtick that may close a quoted name. -/
inductive ScanMode where
  | outside
  | string (read : List Char)
  | escape (read : List Char)
  | quoted (read : List Char)
  | closing (read : List Char)

namespace ScanMode

/-- What a character outside opens, or the mark that it is. -/
def opening (c : Char) : List Mark × ScanMode :=
  if c = '\'' then ([], string [])
  else if c = '`' then ([], quoted [])
  else ([.char c], outside)

/-- The marks that the next character completes, and the mode behind it. -/
def step : ScanMode → Char → List Mark × ScanMode
  | outside, c => opening c
  | string read, c =>
      if c = '\\' then ([], escape read)
      else if c = '\'' then ([.string (String.ofList read)], outside)
      else ([], string (read ++ [c]))
  | escape read, c => ([], string (read ++ [c]))
  | quoted read, c => ([], if c = '`' then closing read else quoted (read ++ [c]))
  | closing read, c =>
      if c = '`' then ([], quoted (read ++ [c]))
      else (.quoted (String.ofList read) :: (opening c).1, (opening c).2)

/-- The marks that the end of the text completes; inside a string or a quoted name it may not
come. -/
def finish : ScanMode → Option (List Mark)
  | outside => some []
  | closing read => some [.quoted (String.ofList read)]
  | _ => none

end ScanMode

/-- The marks of the characters from a mode on. -/
def scanFrom (m : ScanMode) : List Char → Option (List Mark)
  | [] => m.finish
  | c :: cs => (scanFrom (m.step c).2 cs).map ((m.step c).1 ++ ·)

/-- The marks of a text, if it ends outside strings and quoted names. -/
def scan (s : String) : Option (List Mark) :=
  scanFrom .outside s.toList

/-! ## Characters, strings and quoted names -/

/-- Characters that open neither a string nor a quoted name. -/
def isOrdinary (c : Char) : Bool :=
  c != '\'' && c != '`'

theorem scanFrom_ordinary {cs : List Char} (h : cs.all isOrdinary = true) (rest : List Char) :
    scanFrom .outside (cs ++ rest) = (scanFrom .outside rest).map (cs.map .char ++ ·) := by
  induction cs with
  | nil => simp
  | cons c cs ih =>
    simp only [List.all_cons, isOrdinary, Bool.and_eq_true, bne_iff_ne, ne_eq] at h
    have hrest := ih (by simpa [isOrdinary] using h.2)
    simp [scanFrom, ScanMode.step, ScanMode.opening, h.1.1, h.1.2, hrest, Function.comp_def]

theorem scanFrom_escapeChars (s read rest : List Char) :
    scanFrom (.string read) (Literal.escapeChars s ++ '\'' :: rest) =
      (scanFrom .outside rest).map (.string (String.ofList (read ++ s)) :: ·) := by
  induction s generalizing read with
  | nil => simp [Literal.escapeChars, scanFrom, ScanMode.step]
  | cons c s ih =>
    -- behind the character, escaped or not, the scan has read one more
    have hstep := ih (read ++ [c])
    rw [List.append_assoc, List.singleton_append] at hstep
    rw [← hstep]
    by_cases hb : c = '\\'
    · simp [Literal.escapeChars, scanFrom, ScanMode.step, hb]
    · by_cases hq : c = '\''
      · simp [Literal.escapeChars, scanFrom, ScanMode.step, hq]
      · simp [Literal.escapeChars, scanFrom, ScanMode.step, hb, hq]

theorem scanFrom_closing (read : List Char) {rest : List Char} (h : rest.head? ≠ some '`') :
    scanFrom (.closing read) rest =
      (scanFrom .outside rest).map (.quoted (String.ofList read) :: ·) := by
  cases rest with
  | nil => rfl
  | cons c cs =>
    have hc : c ≠ '`' := by simpa using h
    simp [scanFrom, ScanMode.step, hc, Function.comp_def]

theorem scanFrom_doubled (s read : List Char) {rest : List Char} (h : rest.head? ≠ some '`') :
    scanFrom (.quoted read) (Identifier.doubled s ++ '`' :: rest) =
      (scanFrom .outside rest).map (.quoted (String.ofList (read ++ s)) :: ·) := by
  induction s generalizing read with
  | nil => simp [Identifier.doubled, scanFrom, ScanMode.step, scanFrom_closing read h,
      Function.comp_def]
  | cons c s ih =>
    have hstep := ih (read ++ [c])
    rw [List.append_assoc, List.singleton_append] at hstep
    rw [← hstep]
    by_cases hc : c = '`'
    · simp [Identifier.doubled, scanFrom, ScanMode.step, hc]
    · simp [Identifier.doubled, scanFrom, ScanMode.step, hc]

theorem scanFrom_literal (s : String) (rest : List Char) :
    scanFrom .outside ((Literal.quote s).toList ++ rest) =
      (scanFrom .outside rest).map (.string s :: ·) := by
  simp [Literal.quote, Literal.escape, scanFrom, ScanMode.step, ScanMode.opening,
    scanFrom_escapeChars, Function.comp_def]

theorem scanFrom_quote {s : String} (hs : Identifier.isPlain s = false) {rest : List Char}
    (h : rest.head? ≠ some '`') :
    scanFrom .outside ((Identifier.quote s).toList ++ rest) =
      (scanFrom .outside rest).map (.quoted s :: ·) := by
  simp [Identifier.quote, hs, scanFrom, ScanMode.step, ScanMode.opening, scanFrom_doubled _ _ h,
    Function.comp_def]

/-! ## Characters of names and numbers -/

/-- Characters that open no string, quoted name or parameter and neither open nor close a bracket. -/
def isSober (c : Char) : Bool :=
  !List.contains ['\'', '`', '$', '(', ')', '[', ']', '\x7b', '\x7d'] c

theorem isOrdinary_of_isSober {c : Char} (h : isSober c = true) : isOrdinary c = true := by
  simp only [isSober, List.contains_cons, Bool.not_or, Bool.and_eq_true, Bool.not_eq_true',
    beq_eq_false_iff_ne, ne_eq] at h
  simp [isOrdinary, h.1, h.2.1]

theorem all_isOrdinary_of_isSober {cs : List Char} (h : cs.all isSober = true) :
    cs.all isOrdinary = true :=
  List.all_eq_true.2 fun c hc => isOrdinary_of_isSober (List.all_eq_true.1 h c hc)

theorem isSober_of_isTail {c : Char} (h : Identifier.isTail c = true) : isSober c = true := by
  by_contra hs
  simp only [isSober, Bool.not_eq_true', Bool.not_eq_false, List.contains_iff_mem, List.mem_cons,
    List.not_mem_nil, or_false] at hs
  rcases hs with rfl | rfl | rfl | rfl | rfl | rfl | rfl | rfl | rfl <;> revert h <;> decide

theorem isTail_of_isDigit {c : Char} (h : c.isDigit = true) : Identifier.isTail c = true := by
  simp [Identifier.isTail, Char.isAlphanum, h]

namespace Identifier

theorem dropLineEnd_cases (cs : List Char) :
    cs = dropLineEnd cs ∨ cs = dropLineEnd cs ++ ['\n'] := by
  fun_induction dropLineEnd cs with
  | case1 => exact .inl rfl
  | case2 => exact .inr rfl
  | case3 c cs _ ih => exact ih.imp (congrArg (c :: ·)) (congrArg (c :: ·))

theorem mem_dropLineEnd {cs : List Char} {c : Char} (h : c ∈ cs) :
    c ∈ dropLineEnd cs ∨ c = '\n' := by
  rcases dropLineEnd_cases cs with hcs | hcs
  · exact .inl (hcs ▸ h)
  · rw [hcs] at h
    simpa using h

theorem isTail_of_isWord {cs : List Char} (h : isWord cs = true) {c : Char} (hc : c ∈ cs) :
    isTail c = true := by
  cases cs with
  | nil => cases hc
  | cons d ds =>
    simp only [isWord, Bool.and_eq_true, List.all_eq_true] at h
    rcases List.mem_cons.1 hc with rfl | hc
    · exact isHead_isTail h.1
    · exact h.2 c hc

theorem isTail_of_isDottedFrom {start : Bool} {cs : List Char} (h : isDottedFrom start cs = true)
    {c : Char} (hc : c ∈ cs) : isTail c = true ∨ c = '.' := by
  induction cs generalizing start with
  | nil => cases hc
  | cons d ds ih =>
    cases start with
    | true =>
      simp only [isDottedFrom, Bool.and_eq_true] at h
      rcases List.mem_cons.1 hc with rfl | hc
      · exact .inl (isHead_isTail h.1)
      · exact ih h.2 hc
    | false =>
      rw [isDottedFrom] at h
      split_ifs at h with hd
      · rcases List.mem_cons.1 hc with rfl | hc
        · exact .inr (by simpa using hd)
        · exact ih h hc
      · simp only [Bool.and_eq_true] at h
        rcases List.mem_cons.1 hc with rfl | hc
        · exact .inl h.1
        · exact ih h.2 hc

theorem isSober_of_isPlain {s : String} (h : isPlain s = true) : s.toList.all isSober = true := by
  rw [List.all_eq_true]
  intro c hc
  rcases mem_dropLineEnd hc with hc | rfl
  · exact isSober_of_isTail (isTail_of_isWord h hc)
  · decide

theorem isSober_of_isDotted {s : String} (h : isDotted s = true) : s.toList.all isSober = true := by
  rw [List.all_eq_true]
  intro c hc
  rcases mem_dropLineEnd hc with hc | rfl
  · rcases isTail_of_isDottedFrom h hc with hc | rfl
    · exact isSober_of_isTail hc
    · decide
  · decide

end Identifier

namespace Binary64

/-- The characters of written numbers. -/
def isNumeric (c : Char) : Bool :=
  c.isDigit || List.contains ['.', 'e', '+', '-'] c

theorem isSober_of_isNumeric {c : Char} (h : isNumeric c = true) : isSober c = true := by
  simp only [isNumeric, Bool.or_eq_true, List.contains_iff_mem, List.mem_cons, List.not_mem_nil,
    or_false] at h
  rcases h with hdigit | rfl | rfl | rfl | rfl
  · exact isSober_of_isTail (isTail_of_isDigit hdigit)
  all_goals decide

theorem all_isSober_of_isNumeric {cs : List Char} (h : cs.all isNumeric = true) :
    cs.all isSober = true :=
  List.all_eq_true.2 fun c hc => isSober_of_isNumeric (List.all_eq_true.1 h c hc)

theorem all_isNumeric_digits (n : Nat) : (Nat.toDigits 10 n).all isNumeric = true := by
  rw [List.all_eq_true]
  intro c hc
  rw [isNumeric, Nat.isDigit_of_mem_toDigits (by omega) (by omega) hc, Bool.true_or]

theorem all_isSober_digits (n : Nat) : (Nat.toDigits 10 n).all isSober = true :=
  all_isSober_of_isNumeric (all_isNumeric_digits n)

theorem all_isNumeric_sublist {cs ds : List Char} (h : cs.Sublist ds) (hd : ds.all isNumeric = true) :
    cs.all isNumeric = true := by
  rw [List.all_eq_true] at hd ⊢
  exact fun c hc => hd c (h.subset hc)

theorem dropZeros_sublist (cs : List Char) : (dropZeros cs).Sublist cs := by
  have h : (cs.reverse.dropWhile (· == '0')).Sublist cs.reverse := List.dropWhile_sublist _
  simpa [dropZeros] using h.reverse

theorem all_isNumeric_zeros (n : Nat) : (zeros n).toList.all isNumeric = true := by
  simp only [zeros, String.toList_ofList, List.all_eq_true]
  intro c hc
  rw [(List.mem_replicate.1 hc).2]
  decide

theorem all_isNumeric_padded (width n : Nat) : (padded width n).toList.all isNumeric = true := by
  simp [padded, all_isNumeric_zeros, all_isNumeric_digits]

theorem all_isNumeric_toText (l : Layout) (d : Decimal) :
    (d.toText l).toList.all isNumeric = true := by
  have hds : (if (dropZeros (Nat.toDigits 10 d.digits)).isEmpty then ['0']
      else dropZeros (Nat.toDigits 10 d.digits)).all isNumeric = true := by
    split_ifs
    · decide
    · exact all_isNumeric_sublist (dropZeros_sublist _) (all_isNumeric_digits _)
  unfold Decimal.toText
  dsimp only
  generalize (if (dropZeros (Nat.toDigits 10 d.digits)).isEmpty then ['0']
    else dropZeros (Nat.toDigits 10 d.digits)) = ds at hds ⊢
  generalize (if (d.digits == 0) = true then (0 : Int)
    else d.exponent + (Nat.toDigits 10 d.digits).length - 1) = power
  have htake : ∀ n, (ds.take n).all isNumeric = true := fun n =>
    all_isNumeric_sublist (List.take_sublist n _) hds
  have hdrop : ∀ n, (ds.drop n).all isNumeric = true := fun n =>
    all_isNumeric_sublist (List.drop_sublist n _) hds
  have hlit : ∀ s ∈ ["", "e", "+", "-", "0.", ".0", "."], s.toList.all isNumeric = true := by decide
  simp only [List.forall_mem_cons] at hlit
  split_ifs <;>
    simp only [String.toList_append, String.toList_ofList, List.all_append, htake, hdrop, hds,
      all_isNumeric_zeros, all_isNumeric_padded, hlit, Bool.and_self]

theorem all_isSober_toText (l : Layout) (d : Decimal) : (d.toText l).toList.all isSober = true :=
  all_isSober_of_isNumeric (all_isNumeric_toText l d)

theorem toText_ne_empty (l : Layout) (d : Decimal) : (d.toText l).toList ≠ [] := by
  unfold Decimal.toText
  dsimp only
  split_ifs <;> simp

end Binary64

end CypherCompose
