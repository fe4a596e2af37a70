import CypherCompose.Clause.Render
import CypherCompose.Proofs.Scan

/-!
# Fragments of statements

A `Fragment` is a list of tokens that keeps to itself: its words are known, no two neighbours run
into each other, and its brackets are balanced.  Fragments are closed under what rendering does with
them: `Fragment.append` puts two in a row when one of them is loose where they meet,
`Fragment.bracket` puts one between brackets, `Fragment.commas` and `Fragment.blanks` join many.

`scan_spell` is what a fragment is for: the scan of its text is the marks of its tokens.
-/

namespace CypherCompose

/-! ## Brackets -/

/-- The bracket that closes an opening one. -/
def closing? (c : Char) : Option Char :=
  if c = '(' then some ')'
  else if c = '[' then some ']'
  else if c = '\x7b' then some '\x7d'
  else none

/-- Closing brackets. -/
def isClosing (c : Char) : Bool :=
  c == ')' || c == ']' || c == '\x7d'

/-- The brackets still to be closed behind a character; a closing one has to be the next of them. -/
def nestChar (due : List Char) (c : Char) : Option (List Char) :=
  match closing? c with
  | some d => some (d :: due)
  | none => if isClosing c then (if due.head? = some c then some due.tail else none) else some due

/-- The brackets still to be closed behind the marks, those in strings and names not counting. -/
def nest (due : List Char) : List Mark → Option (List Char)
  | [] => some due
  | .char c :: ms => (nestChar due c).bind fun due => nest due ms
  | _ :: ms => nest due ms

/-- Every bracket is closed by its own kind, and in turn. -/
def Balanced (ms : List Mark) : Prop :=
  nest [] ms = some []

theorem nest_append (due : List Char) (ms ms' : List Mark) :
    nest due (ms ++ ms') = (nest due ms).bind fun due => nest due ms' := by
  induction ms generalizing due with
  | nil => rfl
  | cons m ms ih =>
    cases m with
    | char c => simp only [List.cons_append, nest, ih, Option.bind_assoc]
    | string s => exact ih due
    | quoted s => exact ih due

theorem nestChar_of_isSober {c : Char} (h : isSober c = true) (due : List Char) :
    nestChar due c = some due := by
  simp only [isSober, List.contains_cons, Bool.not_or, Bool.and_eq_true, Bool.not_eq_true',
    beq_eq_false_iff_ne, ne_eq] at h
  simp [nestChar, closing?, isClosing, h]

theorem nest_chars {cs : List Char} (h : cs.all isSober = true) (due : List Char) :
    nest due (cs.map .char) = some due := by
  induction cs with
  | nil => rfl
  | cons c cs ih =>
    simp only [List.all_cons, Bool.and_eq_true] at h
    simp [nest, nestChar_of_isSober h.1, ih h.2]

/-! ## Neighbours -/

/-- The signs of comparisons. -/
def isComparison (c : Char) : Bool :=
  c == '<' || c == '>' || c == '=' || c == '~'

/-- Characters that would be read as one with the character before them. -/
def joins (c d : Char) : Bool :=
  ((Identifier.isTail c || c == '$') && Identifier.isTail d) || (isComparison c && isComparison d)

namespace Mark

/-- Marks that would run into each other side by side. -/
def meets : Mark → Mark → Bool
  | char c, char d => joins c d
  | quoted _, quoted _ => true
  | _, _ => false

/-- Marks that run into no other, on either side. -/
def isLoose : Mark → Bool
  | char c => !Identifier.isTail c && c != '$' && !isComparison c
  | string _ => true
  | quoted _ => false

theorem not_meets_left {m : Mark} (h : m.isLoose = true) (m' : Mark) : m.meets m' = false := by
  cases m <;> cases m' <;> simp_all [isLoose, meets, joins]

theorem not_meets_right {m : Mark} (h : m.isLoose = true) (m' : Mark) : m'.meets m = false := by
  cases m <;> cases m' <;> simp_all [isLoose, meets, joins]

/-- The marks of a name, quoted unless it is plain. -/
def ofName (s : String) : List Mark :=
  if Identifier.isPlain s then s.toList.map char else [quoted s]

end Mark

namespace Token

/-- What a scan makes of a token. -/
def marks : Token → List Mark
  | name n => Mark.ofName n.text
  | filledName n =>
      match n.word.symbol? with
      | some s => s.toList.map .char
      | none => Mark.ofName n.text
  | string s => [.string s]
  | t => t.spelling.toList.map .char

/-- Tokens that do not run into each other side by side. -/
def Apart (t u : Token) : Prop :=
  ∀ m ∈ t.marks.getLast?, ∀ m' ∈ u.marks.head?, m.meets m' = false

/-- Tokens that run into no other, on either side. -/
def isLoose (t : Token) : Bool :=
  t.marks.head?.all Mark.isLoose && t.marks.getLast?.all Mark.isLoose

theorem apart_of_isLoose_left {t : Token} (h : t.isLoose = true) (u : Token) : Apart t u := by
  intro m hm m' _
  simp only [isLoose, Bool.and_eq_true] at h
  rw [Option.mem_def] at hm
  rw [hm] at h
  exact Mark.not_meets_left h.2 m'

theorem apart_of_isLoose_right {t : Token} (h : t.isLoose = true) (u : Token) : Apart u t := by
  intro m _ m' hm'
  simp only [isLoose, Bool.and_eq_true] at h
  rw [Option.mem_def] at hm'
  rw [hm'] at h
  exact Mark.not_meets_right h.1 m

/-! ## Words -/

/-- The keywords, operators and signs of statements. -/
def vocabulary : List String :=
  ["(", ")", "[", "]", "\x7b", "\x7d", ",", ".", "..", ":", "|", "->", "<-", "*", "+", "-", "/", "%",
    "^", "=", "<>", "<", ">", "<=", ">=", "=~", "null", "true", "false", "n", "ALL", "AND", "AS", "ASC",
    "CALL", "CASE", "CONSTRAINT", "CONTAINS", "CREATE", "DELETE", "DESC", "DETACH", "DISTINCT", "DROP",
    "ELSE", "END", "ENDS WITH", "EXISTS", "FIELDTERMINATOR", "FOR", "FOREACH", "FROM", "IF EXISTS",
    "IF NOT EXISTS", "IN", "INDEX", "IS NOT NULL", "IS NULL", "IS UNIQUE", "LIMIT", "LOAD CSV", "MATCH",
    "MERGE", "NOT", "ON", "ON CREATE SET", "ON MATCH SET", "OPTIONAL", "OR", "ORDER BY", "REMOVE",
    "REQUIRE", "RETURN", "SET", "SKIP", "STARTS WITH", "THEN", "UNION", "UNION ALL", "UNWIND", "WHEN",
    "WHERE", "WITH", "WITH HEADERS", "XOR"]

/-- Tokens whose keyword or sign, if they are one, is in the vocabulary. -/
def isKnown : Token → Bool
  | sym s => vocabulary.contains s
  | _ => true

/-- Brackets. -/
def isBracket : Token → Bool
  | sym s => ["(", ")", "[", "]", "\x7b", "\x7d"].contains s
  | _ => false

theorem all_isOrdinary_vocabulary : ∀ s ∈ vocabulary, s.toList.all isOrdinary = true := by
  decide +kernel

theorem vocabulary_ne_empty : ∀ s ∈ vocabulary, s.toList ≠ [] := by
  decide +kernel

theorem all_isSober_symbol {w : Word} {s : String} (h : w.symbol? = some s) :
    s.toList.all isSober = true ∧ s.toList ≠ [] := by
  cases w with
  | plain _ => cases h
  | direction d => cases d <;> cases h <;> decide
  | mode m => cases m <;> cases h <;> decide

theorem all_isSober_paramName (p : ParamName) : p.word.filled.toList.all isSober = true := by
  rw [Word.filled]
  cases h : p.word.symbol? with
  | none => exact Identifier.isSober_of_isPlain p.plain
  | some s => exact (all_isSober_symbol h).1

theorem all_isSober_functionName (f : FunctionName) : f.spelling.toList.all isSober = true := by
  rw [FunctionName.spelling, Word.filled]
  cases h : f.word.symbol? with
  | none => exact Identifier.isSober_of_isDotted f.dotted
  | some s => exact (all_isSober_symbol h).1

theorem functionName_ne_empty (f : FunctionName) : f.spelling.toList ≠ [] := by
  rw [FunctionName.spelling, Word.filled]
  cases h : f.word.symbol? with
  | none =>
    intro he
    have hd := f.dotted
    rw [Option.getD_none] at he
    simp [Identifier.isDotted, he, Identifier.dropLineEnd, Identifier.isDottedFrom] at hd
  | some s => exact (all_isSober_symbol h).2

/-- A token is a string, a quoted name, or written as its characters are. -/
inductive Reading : Token → Prop where
  | string (s : String) : Reading (string s)
  | quoted {t : Token} (s : String) (plain : Identifier.isPlain s = false)
      (spelling : t.spelling = Identifier.quote s) (marks : t.marks = [.quoted s]) : Reading t
  | chars {t : Token} (ordinary : t.spelling.toList.all isOrdinary = true)
      (nonempty : t.spelling.toList ≠ [])
      (marks : t.marks = t.spelling.toList.map .char) : Reading t

theorem reading_of_sober {t : Token} (h : t.spelling.toList.all isSober = true)
    (hne : t.spelling.toList ≠ []) (hm : t.marks = t.spelling.toList.map .char) : Reading t := by
  exact .chars (all_isOrdinary_of_isSober h) hne hm

theorem reading_of_name {t : Token} {n : Name} (hs : t.spelling = Identifier.quote n.text)
    (hm : t.marks = Mark.ofName n.text) : Reading t := by
  by_cases hp : Identifier.isPlain n.text = true
  · rw [Identifier.quote_of_isPlain hp] at hs
    refine reading_of_sober ?_ ?_ ?_
    · rw [hs]
      exact Identifier.isSober_of_isPlain hp
    · rw [hs]
      intro he
      exact n.nonempty (String.toList_eq_nil_iff.1 he)
    · rw [hm, hs, Mark.ofName, if_pos hp]
  · exact .quoted n.text (by simpa using hp) hs (by rw [hm, Mark.ofName, if_neg hp])

theorem reading {t : Token} (h : t.isKnown = true) : Reading t := by
  cases t with
  | sym s =>
    have hs : s ∈ vocabulary := by simpa [isKnown] using h
    exact .chars (all_isOrdinary_vocabulary s hs) (vocabulary_ne_empty s hs) rfl
  | blank => exact .chars (by decide) (by decide) rfl
  | name n => exact reading_of_name rfl rfl
  | filledName n =>
    cases hw : n.word.symbol? with
    | none =>
      have hs : (filledName n).spelling = Identifier.quote n.text := by
        simp [spelling, Name.filled, hw, Name.spelling]
      exact reading_of_name hs (by simp [marks, hw])
    | some s =>
      have hs : (filledName n).spelling = s := by simp [spelling, Name.filled, hw]
      refine reading_of_sober ?_ ?_ ?_
      · rw [hs]
        exact (all_isSober_symbol hw).1
      · rw [hs]
        exact (all_isSober_symbol hw).2
      · rw [hs, marks, hw]
  | function f => exact reading_of_sober (all_isSober_functionName f) (functionName_ne_empty f) rfl
  | param p =>
    refine .chars ?_ (by simp [spelling, ParamName.token]) rfl
    have hname : p.word.filled.toList.all isOrdinary = true :=
      all_isOrdinary_of_isSober (all_isSober_paramName p)
    simpa [spelling, ParamName.token, isOrdinary] using hname
  | string s => exact .string s
  | numeral n =>
    refine reading_of_sober ?_ ?_ rfl
    · simpa [spelling] using Binary64.all_isSober_digits n
    · simp [spelling, Nat.toDigits_ne_nil]
  | decimal x =>
    exact reading_of_sober (Binary64.all_isSober_toText _ _) (Binary64.toText_ne_empty _ _) rfl

/-! ## The scan of tokens -/

theorem scanFrom_token {t : Token} (ht : t.isKnown = true) {rest : List Char}
    (h : ∀ s, t.marks = [.quoted s] → rest.head? ≠ some '`') :
    scanFrom .outside (t.spelling.toList ++ rest) = (scanFrom .outside rest).map (t.marks ++ ·) := by
  cases reading ht with
  | string s => exact scanFrom_literal s rest
  | quoted s plain spelling marks =>
    rw [spelling, marks]
    exact scanFrom_quote plain (h s marks)
  | chars ordinary _ marks =>
    rw [marks]
    exact scanFrom_ordinary ordinary rest

theorem head?_spelling {t : Token} (ht : t.isKnown = true) (rest : List Char) :
    (t.spelling.toList ++ rest).head? = some '`' → ∃ s, t.marks = [.quoted s] := by
  intro h
  cases reading ht with
  | string s => simp [spelling, Literal.quote] at h
  | quoted s _ _ marks => exact ⟨s, marks⟩
  | chars ordinary nonempty _ =>
    obtain ⟨c, cs, hcs⟩ := List.exists_cons_of_ne_nil nonempty
    simp only [hcs, List.cons_append, List.head?_cons, Option.some.injEq] at h
    simp [hcs, h, isOrdinary] at ordinary

theorem scanFrom_spell {ts : List Token} (hk : ∀ t ∈ ts, t.isKnown = true)
    (hs : ts.IsChain Apart) :
    scanFrom .outside (spell ts).toList = some (ts.flatMap marks) := by
  induction ts with
  | nil => rfl
  | cons t ts ih =>
    obtain ⟨hhead, htail⟩ := List.isChain_cons.1 hs
    rw [spell_cons, String.toList_append, scanFrom_token (hk t (by simp)),
      ih (fun u hu => hk u (by simp [hu])) htail]
    · simp
    · intro s hmarks hrest
      cases ts with
      | nil => simp at hrest
      | cons u us =>
        rw [spell_cons, String.toList_append] at hrest
        obtain ⟨s', hmarks'⟩ := head?_spelling (hk u (by simp)) _ hrest
        have hmeets := hhead u (by simp) (.quoted s) (by simp [hmarks]) (.quoted s') (by simp [hmarks'])
        simp [Mark.meets] at hmeets

end Token

/-! ## Fragments -/

open Token

/-- Tokens of known words that do not run into each other and close the brackets they open. -/
structure Fragment (ts : List Token) : Prop where
  known : ∀ t ∈ ts, t.isKnown = true
  spaced : ts.IsChain Apart
  nested : ∀ due, nest due (ts.flatMap marks) = some due

/-- Tokens that are loose where they start. -/
def StartsLoose (ts : List Token) : Prop :=
  ∀ t ∈ ts.head?, t.isLoose = true

/-- Tokens that are loose where they end. -/
def EndsLoose (ts : List Token) : Prop :=
  ∀ t ∈ ts.getLast?, t.isLoose = true

theorem scan_spell {ts : List Token} (h : Fragment ts) :
    scan (spell ts) = some (ts.flatMap marks) :=
  scanFrom_spell h.known h.spaced

theorem all_isSober_word : ∀ s ∈ vocabulary, (sym s).isBracket = false →
    s.toList.all isSober = true := by
  decide +kernel

theorem nest_token {t : Token} (hk : t.isKnown = true) (hb : t.isBracket = false)
    (due : List Char) : nest due t.marks = some due := by
  have hname : ∀ n : Name, nest due (Mark.ofName n.text) = some due := by
    intro n
    unfold Mark.ofName
    split_ifs with hp
    · exact nest_chars (Identifier.isSober_of_isPlain hp) due
    · rfl
  cases t with
  | sym s => exact nest_chars (all_isSober_word s (by simpa [isKnown] using hk) hb) due
  | blank => rfl
  | name n => exact hname n
  | filledName n =>
    rw [marks]
    split
    next s hs => exact nest_chars (all_isSober_symbol hs).1 due
    next => exact hname n
  | function f => exact nest_chars (all_isSober_functionName f) due
  | param p =>
    have hdollar : nestChar due '$' = some due := rfl
    have hname := nest_chars (all_isSober_paramName p) due
    simpa [marks, spelling, ParamName.token, nest, hdollar] using hname
  | string s => rfl
  | numeral n => exact nest_chars (by simpa [spelling] using Binary64.all_isSober_digits n) due
  | decimal x => exact nest_chars (Binary64.all_isSober_toText _ _) due

namespace Fragment

theorem nil : Fragment [] :=
  ⟨by simp, .nil, fun _ => rfl⟩

theorem token {t : Token} (hk : t.isKnown = true) (hb : t.isBracket = false) : Fragment [t] where
  known := by simpa using hk
  spaced := .singleton t
  nested due := by simpa using nest_token hk hb due

theorem append {ts us : List Token} (ht : Fragment ts) (hu : Fragment us)
    (h : EndsLoose ts ∨ StartsLoose us) : Fragment (ts ++ us) where
  known t htu := (List.mem_append.1 htu).elim (ht.known t) (hu.known t)
  spaced := by
    refine ht.spaced.append hu.spaced fun t hlast u hfirst => ?_
    rcases h with h | h
    · exact apart_of_isLoose_left (h t hlast) u
    · exact apart_of_isLoose_right (h u hfirst) t
  nested due := by
    rw [List.flatMap_append, nest_append, ht.nested, Option.bind_some, hu.nested]

/-- Two fragments with a loose token between them. -/
theorem join {ts us : List Token} {t : Token} (ht : Fragment ts) (hu : Fragment us)
    (hk : t.isKnown = true) (hb : t.isBracket = false) (hl : t.isLoose = true) :
    Fragment (ts ++ t :: us) := by
  have htu : Fragment ([t] ++ us) := (token hk hb).append hu (.inl (by simpa [EndsLoose] using hl))
  exact ht.append htu (.inr (by simpa [StartsLoose] using hl))

/-- A loose token in front of a fragment. -/
theorem cons {us : List Token} {t : Token} (hu : Fragment us) (hk : t.isKnown = true)
    (hb : t.isBracket = false) (hl : t.isLoose = true) : Fragment (t :: us) :=
  nil.join hu hk hb hl

/-- A word and a blank in front of a fragment. -/
theorem keyword {us : List Token} {t : Token} (hu : Fragment us) (hk : t.isKnown = true)
    (hb : t.isBracket = false) : Fragment (t :: blank :: us) :=
  (token hk hb).join hu rfl rfl rfl

/-- The kinds of brackets. -/
def brackets : List (String × String) :=
  [("(", ")"), ("[", "]"), ("\x7b", "\x7d")]

theorem bracket_facts : ∀ b ∈ brackets,
    ((sym b.1).isKnown = true ∧ (sym b.1).isLoose = true) ∧
      (sym b.2).isKnown = true ∧ (sym b.2).isLoose = true := by
  decide

theorem nest_bracket {o c : String} (h : (o, c) ∈ brackets) :
    ∃ d, ∀ due, nest due (sym o).marks = some (d :: due) ∧
      nest (d :: due) (sym c).marks = some due := by
  simp only [brackets, List.mem_cons, Prod.mk.injEq, List.not_mem_nil, or_false] at h
  rcases h with ⟨rfl, rfl⟩ | ⟨rfl, rfl⟩ | ⟨rfl, rfl⟩
  · exact ⟨')', fun _ => ⟨rfl, rfl⟩⟩
  · exact ⟨']', fun _ => ⟨rfl, rfl⟩⟩
  · exact ⟨'\x7d', fun _ => ⟨rfl, rfl⟩⟩

theorem bracket {ts : List Token} {o c : String} (ht : Fragment ts) (h : (o, c) ∈ brackets) :
    Fragment (sym o :: (ts ++ [sym c])) := by
  obtain ⟨⟨ho, hol⟩, hc, hcl⟩ := bracket_facts (o, c) h
  obtain ⟨d, hd⟩ := nest_bracket h
  refine ⟨?_, ?_, fun due => ?_⟩
  · intro t htu
    simp only [List.mem_cons, List.mem_append, List.not_mem_nil, or_false] at htu
    rcases htu with rfl | htu | rfl
    · exact ho
    · exact ht.known t htu
    · exact hc
  · refine List.isChain_cons.2 ⟨fun u _ => apart_of_isLoose_left hol u, ?_⟩
    refine ht.spaced.append (.singleton _) fun t _ u hu => ?_
    obtain rfl : sym c = u := by simpa using hu
    exact apart_of_isLoose_right hcl t
  · simp [nest_append, (hd _).1, (hd _).2, ht.nested]

theorem fill {ts : List Token} (h : Fragment ts) : Fragment (fill ts) := by
  unfold Token.fill
  split
  · exact token rfl rfl
  · exact h

theorem parens {ts : List Token} (h : Fragment ts) : Fragment (parens ts) :=
  h.fill.bracket (by simp [brackets])

theorem intercalate {sep : List Token} (hsep : ∀ {ts us}, Fragment ts → Fragment us →
    Fragment (ts ++ sep ++ us)) {parts : List (List Token)} (h : ∀ ts ∈ parts, Fragment ts) :
    Fragment (List.intercalate sep parts) := by
  induction parts with
  | nil => exact nil
  | cons ts parts ih =>
    cases parts with
    | nil => simpa [List.intercalate] using h ts (by simp)
    | cons us parts =>
      have hrest := ih fun us hus => h us (by simp [hus])
      have := hsep (h ts (by simp)) hrest
      simpa [List.intercalate] using this

theorem commas {parts : List (List Token)} (h : ∀ ts ∈ parts, Fragment ts) :
    Fragment (commas parts) := by
  refine intercalate (fun ht hu => ?_) h
  rw [List.append_assoc]
  exact ht.join (hu.cons rfl rfl rfl) rfl rfl rfl

theorem blanks {parts : List (List Token)} (h : ∀ ts ∈ parts, Fragment ts) :
    Fragment (blanks parts) := by
  refine intercalate (fun ht hu => ?_) h
  rw [List.append_assoc]
  exact ht.join hu rfl rfl rfl

/-- Two fragments with a word between them. -/
theorem between {ts us : List Token} {t : Token} (ht : Fragment ts) (hu : Fragment us)
    (hk : t.isKnown = true) (hb : t.isBracket = false) : Fragment (ts ++ [blank, t, blank] ++ us) := by
  rw [List.append_assoc]
  exact ht.join (hu.keyword hk hb) rfl rfl rfl

end Fragment

end CypherCompose
