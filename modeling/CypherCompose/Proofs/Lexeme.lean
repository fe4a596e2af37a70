import CypherCompose.Proofs.Fragment
import Mathlib.Data.List.SplitBy

/-!
# Lexemes

The words of a text as its grammar sees them.  `lex` scans a text, puts characters that run into each
other together, and drops the blanks between them.  `lex_spell` says that the lexemes of a fragment's
text are those of its tokens in a row; the rest of the module says what they are for each kind of
token.
-/

namespace CypherCompose

open Token

/-- What the grammar takes as one: a word, a name in backticks, a parameter, a number, a string, or
any other sign. -/
inductive Lexeme where
  | word (s : String)
  | quoted (s : String)
  | param (s : String)
  | numeral (n : Nat)
  | string (s : String)
  | sign (s : String)
  deriving DecidableEq, Repr

namespace Lexeme

/-- The lexeme of characters that run into each other; a blank has none. -/
def ofChars : List Char → Option Lexeme
  | [] => none
  | c :: cs =>
      if c.isWhitespace then none
      else if Identifier.isHead c then some (word (String.ofList (c :: cs)))
      else if c = '$' ∧ cs ≠ [] then some (param (String.ofList cs))
      else if (c :: cs).all Char.isDigit then some (numeral (Nat.ofDigitChars 10 (c :: cs) 0))
      else some (sign (String.ofList (c :: cs)))

/-- The lexeme of marks that run into each other. -/
def ofRun : List Mark → Option Lexeme
  | [.string s] => some (string s)
  | [.quoted s] => some (quoted s)
  | ms => ofChars (ms.filterMap Mark.char?)

/-- The name of the parameter that a lexeme mentions. -/
def param? : Lexeme → Option String
  | param s => some s
  | _ => none

end Lexeme

/-- The lexemes of marks. -/
def lexemes (ms : List Mark) : List Lexeme :=
  (ms.splitBy Mark.meets).filterMap Lexeme.ofRun

/-- The lexemes of a text, if it ends outside strings and quoted names. -/
def lex (s : String) : Option (List Lexeme) :=
  (scan s).map lexemes

theorem lexemes_append {ms ms' : List Mark}
    (h : ∀ m ∈ ms.getLast?, ∀ m' ∈ ms'.head?, m.meets m' = false) :
    lexemes (ms ++ ms') = lexemes ms ++ lexemes ms' := by
  rw [lexemes, List.splitBy_append h, List.filterMap_append]
  rfl

/-- The lexemes of a token. -/
def Token.lexemes (t : Token) : List Lexeme :=
  CypherCompose.lexemes t.marks

/-- The lexemes of tokens in a row. -/
def Token.lexemesAll (ts : List Token) : List Lexeme :=
  ts.flatMap Token.lexemes

theorem Token.marks_ne_nil {t : Token} (h : t.isKnown = true) : t.marks ≠ [] := by
  cases reading h with
  | string s => exact List.cons_ne_nil _ _
  | quoted s _ _ hmarks => simp [hmarks]
  | chars _ nonempty hmarks => simpa [hmarks] using nonempty

theorem lexemes_flatMap {ts : List Token} (hk : ∀ t ∈ ts, t.isKnown = true)
    (hs : ts.IsChain Apart) : lexemes (ts.flatMap marks) = lexemesAll ts := by
  induction ts with
  | nil => rfl
  | cons t ts ih =>
    obtain ⟨hhead, htail⟩ := List.isChain_cons.1 hs
    rw [List.flatMap_cons, lexemes_append, ih (fun u hu => hk u (by simp [hu])) htail]
    · rfl
    · intro m hm m' hm'
      cases ts with
      | nil => simp at hm'
      | cons u us =>
        have hne := marks_ne_nil (hk u (by simp))
        rw [List.flatMap_cons, List.head?_append_of_ne_nil _ hne] at hm'
        exact hhead u (by simp) m hm m' hm'

theorem lex_spell {ts : List Token} (h : Fragment ts) : lex (spell ts) = some (lexemesAll ts) := by
  rw [lex, scan_spell h, Option.map_some, lexemes_flatMap h.known h.spaced]

/-! ## Runs of characters -/

theorem lexemes_run {cs : List Char} (hne : cs ≠ []) (h : cs.IsChain fun c d => joins c d = true) :
    lexemes (cs.map .char) = (Lexeme.ofChars cs).toList := by
  have hchain : (cs.map Mark.char).IsChain fun m m' => m.meets m' = true :=
    (List.isChain_map _).2 h
  have hchars : (cs.map Mark.char).filterMap Mark.char? = cs := by
    rw [List.filterMap_map]
    exact List.filterMap_some
  have hrun : Lexeme.ofRun (cs.map .char) =
      Lexeme.ofChars ((cs.map Mark.char).filterMap Mark.char?) := by
    obtain ⟨c, cs, rfl⟩ := List.exists_cons_of_ne_nil hne
    rfl
  rw [hchars] at hrun
  rw [lexemes, List.splitBy_of_isChain (by simpa using hne) hchain]
  cases hl : Lexeme.ofChars cs <;> simp [hrun, hl]

theorem isChain_joins {cs : List Char} (h : cs.all Identifier.isTail = true) :
    cs.IsChain fun c d => joins c d = true := by
  induction cs with
  | nil => exact .nil
  | cons c cs ih =>
    simp only [List.all_cons, Bool.and_eq_true] at h
    refine List.isChain_cons.2 ⟨fun d hd => ?_, ih h.2⟩
    have hd' : Identifier.isTail d = true := List.all_eq_true.1 h.2 d (List.mem_of_mem_head? hd)
    simp [joins, h.1, hd']

theorem not_isWhitespace_of_isTail {c : Char} (h : Identifier.isTail c = true) :
    c.isWhitespace = false := by
  by_contra hb
  simp only [Char.isWhitespace, Bool.not_eq_false, Bool.or_eq_true, decide_eq_true_eq] at hb
  rcases hb with ((rfl | rfl) | rfl) | rfl <;> revert h <;> decide

theorem lexemes_word {cs : List Char} (h : Identifier.isWord cs = true) :
    lexemes (cs.map .char) = [.word (String.ofList cs)] := by
  cases cs with
  | nil => cases h
  | cons c cs =>
    have hall : (c :: cs).all Identifier.isTail = true :=
      List.all_eq_true.2 fun _ => Identifier.isTail_of_isWord h
    simp only [Identifier.isWord, Bool.and_eq_true] at h
    have hblank := not_isWhitespace_of_isTail (Identifier.isHead_isTail h.1)
    rw [lexemes_run (by simp) (isChain_joins hall)]
    simp [Lexeme.ofChars, hblank, h.1]

theorem not_isHead_of_isDigit {c : Char} (h : c.isDigit = true) : Identifier.isHead c = false := by
  have hne : c ≠ '_' := by
    rintro rfl
    exact absurd h (by decide)
  simp only [Char.isDigit, ge_iff_le, Bool.and_eq_true, decide_eq_true_eq,
    UInt32.le_iff_toNat_le] at h
  have halpha : c.isAlpha = (decide ('A'.val ≤ c.val ∧ c.val ≤ 'Z'.val) ||
    (decide ('a'.val ≤ c.val) && decide (c.val ≤ 'z'.val))) := rfl
  simp only [Identifier.isHead, halpha, UInt32.le_iff_toNat_le, Bool.or_eq_false_iff,
    Bool.and_eq_false_iff, decide_eq_false_iff_not, beq_eq_false_iff_ne, ne_eq, hne,
    not_false_eq_true, and_true]
  have h9 : '9'.val.toNat = 57 := rfl
  have hA : 'A'.val.toNat = 65 := rfl
  have ha : 'a'.val.toNat = 97 := rfl
  omega

theorem lexemes_digits (n : Nat) : lexemes ((Nat.toDigits 10 n).map .char) = [.numeral n] := by
  have hdigits : ∀ c ∈ Nat.toDigits 10 n, c.isDigit = true := fun c hc =>
    Nat.isDigit_of_mem_toDigits (by decide) (by decide) hc
  have htails : (Nat.toDigits 10 n).all Identifier.isTail = true :=
    List.all_eq_true.2 fun c hc => isTail_of_isDigit (hdigits c hc)
  rw [lexemes_run Nat.toDigits_ne_nil (isChain_joins htails)]
  obtain ⟨c, cs, hcs⟩ := List.exists_cons_of_ne_nil (Nat.toDigits_ne_nil (n := n) (b := 10))
  have hc : c.isDigit = true := hdigits c (by simp [hcs])
  have hblank := not_isWhitespace_of_isTail (isTail_of_isDigit hc)
  have hhead : Identifier.isHead c = false := not_isHead_of_isDigit hc
  have hdollar : c ≠ '$' := by
    rintro rfl
    exact absurd hc (by decide)
  have hall : (c :: cs).all Char.isDigit = true := List.all_eq_true.2 (hcs ▸ hdigits)
  have hvalue : Nat.ofDigitChars 10 (c :: cs) 0 = n := by
    rw [← hcs]
    exact Nat.ofDigitChars_ten_toDigits
  rw [hcs]
  simp only [Lexeme.ofChars, hblank, hhead, hdollar, hall, hvalue, Bool.false_eq_true, false_and,
    if_false, if_true, Option.toList_some]

theorem lexemes_mention {cs : List Char} (h : Identifier.isWord cs = true) :
    lexemes (('$' :: cs).map .char) = [.param (String.ofList cs)] := by
  have htails : cs.all Identifier.isTail = true :=
    List.all_eq_true.2 fun _ => Identifier.isTail_of_isWord h
  have hne : cs ≠ [] := by
    rintro rfl
    cases h
  have hchain : ('$' :: cs).IsChain fun c d => joins c d = true := by
    refine List.isChain_cons.2 ⟨fun d hd => ?_, isChain_joins htails⟩
    have hd' : Identifier.isTail d = true :=
      List.all_eq_true.1 htails d (List.mem_of_mem_head? hd)
    simp [joins, hd']
  have hdollar : '$'.isWhitespace = false ∧ Identifier.isHead '$' = false := by decide
  rw [lexemes_run (by simp) hchain]
  simp [Lexeme.ofChars, hdollar, hne]

/-! ## Dotted names -/

/-- Words with points between them. -/
def Lexeme.dotted (w : String) (ws : List String) : List Lexeme :=
  word w :: ws.flatMap fun w => [sign ".", word w]

/-- Characters that are words with points between them, and are taken as such. -/
def IsDotted (cs : List Char) (w : String) (ws : List String) : Prop :=
  ".".intercalate (w :: ws) = String.ofList cs ∧ lexemes (cs.map .char) = Lexeme.dotted w ws

theorem isDotted_word {cs : List Char} (h : Identifier.isWord cs = true) :
    IsDotted cs (String.ofList cs) [] :=
  ⟨by simp, lexemes_word h⟩

theorem isDotted_point {pre cs : List Char} {w : String} {ws : List String}
    (h : Identifier.isWord pre = true) (hcs : IsDotted cs w ws) :
    IsDotted (pre ++ '.' :: cs) (String.ofList pre) (w :: ws) := by
  refine ⟨?_, ?_⟩
  · rw [String.intercalate_cons_cons, hcs.1]
    apply String.toList_injective
    simp
  · have hpoint : Mark.isLoose (.char '.') = true := by decide
    rw [List.map_append, List.map_cons, lexemes_append fun m _ m' hm' => ?_, lexemes_word h]
    · have hrest : lexemes ([Mark.char '.'] ++ cs.map .char) = .sign "." :: Lexeme.dotted w ws := by
        rw [lexemes_append fun m hm m' _ => ?_, hcs.2]
        · rfl
        · obtain rfl : Mark.char '.' = m := by simpa using hm
          exact Mark.not_meets_left hpoint m'
      rw [List.singleton_append] at hrest
      rw [hrest]
      rfl
    · obtain rfl : Mark.char '.' = m' := by simpa using hm'
      exact Mark.not_meets_right hpoint m

theorem exists_isDotted (cs : List Char) :
    (Identifier.isDottedFrom true cs = true → ∃ w ws, IsDotted cs w ws) ∧
      (Identifier.isDottedFrom false cs = true → ∀ pre, Identifier.isWord pre = true →
        ∃ w ws, IsDotted (pre ++ cs) w ws) := by
  induction cs with
  | nil =>
    refine ⟨fun h => absurd h (by decide), fun _ pre hpre => ?_⟩
    rw [List.append_nil]
    exact ⟨_, _, isDotted_word hpre⟩
  | cons c cs ih =>
    refine ⟨fun h => ?_, fun h pre hpre => ?_⟩
    · simp only [Identifier.isDottedFrom, Bool.and_eq_true] at h
      exact ih.2 h.2 [c] (by simpa [Identifier.isWord] using h.1)
    · rw [Identifier.isDottedFrom] at h
      split_ifs at h with hc
      · obtain rfl : c = '.' := by simpa using hc
        obtain ⟨w, ws, hws⟩ := ih.1 h
        exact ⟨_, _, isDotted_point hpre hws⟩
      · rw [Bool.and_eq_true] at h
        have hword : Identifier.isWord (pre ++ [c]) = true := by
          cases pre with
          | nil => cases hpre
          | cons d ds =>
            simp only [Identifier.isWord, Bool.and_eq_true, List.cons_append, List.all_append,
              List.all_cons, List.all_nil, Bool.and_true] at hpre ⊢
            exact ⟨hpre.1, hpre.2, h.1⟩
        obtain ⟨w, ws, hws⟩ := ih.2 h.2 (pre ++ [c]) hword
        exact ⟨w, ws, by simpa using hws⟩

/-! ## Tokens -/

/-- The lexeme of a name. -/
def Lexeme.ofName (s : String) : Lexeme :=
  if Identifier.isPlain s then word s else quoted s

/-- Texts that no line end closes. -/
def Unbroken (s : String) : Prop :=
  s.toList.getLast? ≠ some '\n'

instance (s : String) : Decidable (Unbroken s) :=
  inferInstanceAs (Decidable (_ ≠ _))

theorem dropLineEnd_of_unbroken {s : String} (h : Unbroken s) :
    Identifier.dropLineEnd s.toList = s.toList := by
  rcases Identifier.dropLineEnd_cases s.toList with hs | hs
  · exact hs.symm
  · unfold Unbroken at h
    rw [hs, List.getLast?_concat] at h
    exact absurd rfl h

namespace Token

theorem lexemes_ofName {s : String} (h : Unbroken s) :
    CypherCompose.lexemes (Mark.ofName s) = [.ofName s] := by
  unfold Mark.ofName Lexeme.ofName
  split_ifs with hp
  · rw [Identifier.isPlain, dropLineEnd_of_unbroken h] at hp
    rw [lexemes_word hp, String.ofList_toList]
  · rfl

theorem lexemes_name {n : Name} (h : Unbroken n.text) : (name n).lexemes = [.ofName n.text] :=
  lexemes_ofName h

theorem lexemes_filledName {n : Name} (hw : n.word.symbol? = none) (h : Unbroken n.text) :
    (filledName n).lexemes = [.ofName n.text] := by
  rw [lexemes, marks, hw]
  exact lexemes_ofName h

theorem lexemes_param {p : ParamName} (hw : p.word.symbol? = none) (h : Unbroken p.text) :
    (param p).lexemes = [.param p.text] := by
  have hp : Identifier.isWord p.text.toList = true := by
    rw [← dropLineEnd_of_unbroken h]
    exact p.plain
  have hchars : (param p).marks = ('$' :: p.text.toList).map .char := by
    simp [marks, spelling, ParamName.token, Word.filled, hw, ParamName.text]
  rw [lexemes, hchars, lexemes_mention hp, String.ofList_toList]

theorem lexemes_function {f : FunctionName} (hw : f.word.symbol? = none) (h : Unbroken f.word.text) :
    ∃ w ws, ".".intercalate (w :: ws) = f.word.text ∧ (function f).lexemes = Lexeme.dotted w ws := by
  have hf : Identifier.isDottedFrom true f.word.text.toList = true := by
    rw [← dropLineEnd_of_unbroken h]
    exact f.dotted
  obtain ⟨w, ws, htext, hlexemes⟩ := (exists_isDotted _).1 hf
  rw [String.ofList_toList] at htext
  refine ⟨w, ws, htext, ?_⟩
  rw [← hlexemes, lexemes, marks]
  · simp [spelling, FunctionName.spelling, Word.filled, hw]
  all_goals simp

@[simp] theorem lexemes_numeral (n : Nat) : (numeral n).lexemes = [.numeral n] := by
  rw [lexemes, marks, spelling, Nat.toString_eq_repr, Nat.toList_repr]
  · exact lexemes_digits n
  all_goals simp

@[simp] theorem lexemes_string (s : String) : (string s).lexemes = [.string s] := rfl

@[simp] theorem lexemes_blank : blank.lexemes = [] := by decide

@[simp] theorem lexemesAll_nil : lexemesAll [] = [] := rfl

@[simp] theorem lexemesAll_cons (t : Token) (ts : List Token) :
    lexemesAll (t :: ts) = t.lexemes ++ lexemesAll ts := rfl

@[simp] theorem lexemesAll_append (ts us : List Token) :
    lexemesAll (ts ++ us) = lexemesAll ts ++ lexemesAll us :=
  List.flatMap_append

end Token

end CypherCompose
