import CypherCompose.Proofs.FreshNames

/-!
# Names read back

`takeName` takes one name off the front of a text: the longest word, or what stands between
backticks with doubled ones read as one; `takeMention` takes a parameter.  The written form of a
name is read back as the name with nothing of what follows, with one exception.  A line end may
close a plain name (`Identifier.isPlain`), so such a name is written without quotes, and its line
end is left over (`takeName_quote`).  By that line end alone two names are taken for one another
(`nameRead_eq_iff`).  A parameter named by a symbol is mentioned under the qualified name of the
symbol, and that is not read back as its name either (`takeMention_token`).
-/

namespace CypherCompose

namespace Identifier

/-- The inside of a quoted name up to the backtick that closes it, and what follows. -/
def takeDoubled : List Char → Option (List Char × List Char)
  | [] => none
  | '`' :: '`' :: cs => (takeDoubled cs).map (Prod.map ('`' :: ·) id)
  | '`' :: cs => some ([], cs)
  | c :: cs => (takeDoubled cs).map (Prod.map (c :: ·) id)

/-- Takes the longest word. -/
def takeWord : List Char → Option (List Char × List Char)
  | [] => none
  | c :: cs =>
      if isHead c then some ((c :: cs).takeWhile isTail, (c :: cs).dropWhile isTail) else none

/-- Takes a name, quoted or not. -/
def takeName : List Char → Option (List Char × List Char)
  | '`' :: cs => takeDoubled cs
  | cs => takeWord cs

/-- Takes the mention of a parameter. -/
def takeMention : List Char → Option (List Char × List Char)
  | '$' :: cs => takeName cs
  | _ => none

/-- Texts that no name in front of them runs into. -/
def EndsNames (rest : List Char) : Prop :=
  ∀ c ∈ rest.head?, isTail c = false ∧ c ≠ '`'

/-! ## Words and quoted names -/

theorem takeDoubled_doubled (s : List Char) {rest : List Char} (h : rest.head? ≠ some '`') :
    takeDoubled (doubled s ++ '`' :: rest) = some (s, rest) := by
  induction s with
  | nil =>
    cases rest with
    | nil => rfl
    | cons c cs =>
      have hc : c ≠ '`' := by simpa using h
      simp [doubled, takeDoubled, hc]
  | cons c s ih =>
    by_cases hc : c = '`'
    · simp [doubled, takeDoubled, hc, ih]
    · simp [doubled, takeDoubled, hc, ih]

theorem takeWord_append {w rest : List Char} (hw : isWord w = true)
    (hrest : ∀ c ∈ rest.head?, isTail c = false) : takeWord (w ++ rest) = some (w, rest) := by
  have hall : ∀ c ∈ w, isTail c = true := fun c hc => isTail_of_isWord hw hc
  have htake : (w ++ rest).takeWhile isTail = w := by
    rw [List.takeWhile_append_of_pos hall]
    cases rest with
    | nil => simp
    | cons c cs => simp [hrest c rfl]
  have hdrop : (w ++ rest).dropWhile isTail = rest := by
    rw [List.dropWhile_append_of_pos hall]
    cases rest with
    | nil => rfl
    | cons c cs => simp [hrest c rfl]
  cases w with
  | nil => cases hw
  | cons c w =>
    rw [isWord, Bool.and_eq_true] at hw
    rw [List.cons_append] at htake hdrop ⊢
    rw [takeWord, if_pos hw.1, htake, hdrop]

theorem takeName_word {w rest : List Char} (hw : isWord w = true)
    (hrest : ∀ c ∈ rest.head?, isTail c = false) : takeName (w ++ rest) = some (w, rest) := by
  cases w with
  | nil => cases hw
  | cons c w =>
    have hc : c ≠ '`' := by
      rintro rfl
      exact absurd (isTail_of_isWord hw (List.mem_cons_self)) (by decide)
    rw [← takeWord_append hw hrest, List.cons_append, takeName]
    simpa using hc

/-! ## Written names -/

/-- Plain names that a line end closes. -/
def IsBroken (s : String) : Prop :=
  isPlain s = true ∧ ¬ Unbroken s

/-- What is read of a written name. -/
def nameRead (s : String) : List Char :=
  if isPlain s then dropLineEnd s.toList else s.toList

theorem toList_of_isBroken {s : String} (h : IsBroken s) : s.toList = nameRead s ++ ['\n'] := by
  rw [nameRead, if_pos h.1]
  refine (dropLineEnd_cases s.toList).resolve_left fun hs => h.2 (unbroken_of_isWord ?_)
  rw [hs]
  exact h.1

theorem nameRead_of_not_isBroken {s : String} (h : ¬ IsBroken s) : nameRead s = s.toList := by
  unfold nameRead
  split_ifs with hplain
  · exact dropLineEnd_of_unbroken (not_not.1 fun hbroken => h ⟨hplain, hbroken⟩)
  · rfl

theorem isWord_nameRead {s : String} (h : isPlain s = true) : isWord (nameRead s) = true := by
  rw [nameRead, if_pos h]
  exact h

/-- A written name is read up to the line end that may close it. -/
theorem takeName_quote (s : String) {rest : List Char} (hrest : EndsNames rest) :
    ∃ left, s.toList = nameRead s ++ left ∧ (left = [] ↔ ¬ IsBroken s) ∧
      takeName ((quote s).toList ++ rest) = some (nameRead s, left ++ rest) := by
  by_cases hbroken : IsBroken s
  · refine ⟨['\n'], toList_of_isBroken hbroken, by simp [hbroken], ?_⟩
    have hstop : ∀ c ∈ (['\n'] ++ rest).head?, isTail c = false := by
      rintro c ⟨⟩
      decide
    rw [quote_of_isPlain hbroken.1, toList_of_isBroken hbroken, List.append_assoc]
    exact takeName_word (isWord_nameRead hbroken.1) hstop
  · have hread := nameRead_of_not_isBroken hbroken
    refine ⟨[], by simp [hread], by simp [hbroken], ?_⟩
    rw [hread, List.nil_append]
    by_cases hplain : isPlain s = true
    · rw [quote_of_isPlain hplain]
      exact takeName_word (hread ▸ isWord_nameRead hplain) fun c hc => (hrest c hc).1
    · have hquote : rest.head? ≠ some '`' := fun h => (hrest '`' h).2 rfl
      simp [quote, hplain, takeName, takeDoubled_doubled _ hquote]

theorem takeName_quote_eq_iff (s : String) {rest : List Char} (hrest : EndsNames rest) :
    takeName ((quote s).toList ++ rest) = some (s.toList, rest) ↔ ¬ IsBroken s := by
  obtain ⟨left, hs, hleft, hread⟩ := takeName_quote s hrest
  rw [hread, ← hleft, hs]
  simp

/-- The qualified name of a symbol has a point behind a word that is not the symbol's text. -/
theorem exists_of_symbol? {w : Word} {q : String} (h : w.symbol? = some q) :
    ∃ first more, q.toList = first ++ '.' :: more ∧ isWord first = true ∧
      first ≠ w.text.toList := by
  cases w with
  | plain s => cases h
  | direction d =>
    obtain rfl := Option.some.inj h
    refine ⟨"Direction".toList, d.symbol.toList.drop 10, ?_⟩
    cases d <;> decide
  | mode m =>
    obtain rfl := Option.some.inj h
    refine ⟨"AccessMode".toList, m.symbol.toList.drop 11, ?_⟩
    cases m <;> decide

/-- A parameter is read like a written name, unless it is a symbol. -/
theorem takeMention_token (p : ParamName) {rest : List Char} (hrest : EndsNames rest) :
    takeMention (p.token.toList ++ rest) = some (p.text.toList, rest) ↔
      ¬ IsBroken p.text ∧ p.word.symbol? = none := by
  have hmention :
      takeMention (p.token.toList ++ rest) = takeName (p.word.filled.toList ++ rest) := by
    rw [ParamName.token, String.toList_append]
    rfl
  rw [hmention, Word.filled]
  cases hsymbol : p.word.symbol? with
  | none =>
    have hquote : quote p.text = p.word.text := quote_of_isPlain p.plain
    rw [Option.getD_none, ← hquote]
    simpa using takeName_quote_eq_iff p.text hrest
  | some q =>
    obtain ⟨first, more, hq, hword, hne⟩ := exists_of_symbol? hsymbol
    have hstop : ∀ c ∈ ('.' :: more ++ rest).head?, isTail c = false := by
      rintro c ⟨⟩
      decide
    have hread := takeName_word hword hstop
    rw [Option.getD_some, hq, List.append_assoc, hread]
    constructor
    · intro h
      exact absurd (Prod.mk.inj (Option.some.inj h)).1 hne
    · rintro ⟨-, h⟩
      cases h

/-! ## Names taken for one another -/

theorem nameRead_of_append_lineEnd {s t : String} (hs : IsBroken s) (h : s = t ++ "\n") :
    nameRead s = nameRead t := by
  have hread : nameRead s = t.toList := by
    have hlist := toList_of_isBroken hs
    rw [h, String.toList_append] at hlist
    rw [h]
    exact (List.append_cancel_right hlist).symm
  have hword : isWord t.toList = true := hread ▸ isWord_nameRead hs.1
  rw [hread, nameRead_of_not_isBroken fun ht => ht.2 (unbroken_of_isWord hword)]

/-- Two names are read as one only if a line end is all that tells them apart. -/
theorem nameRead_eq_iff (s t : String) :
    nameRead s = nameRead t ↔
      s = t ∨ IsBroken s ∧ s = t ++ "\n" ∨ IsBroken t ∧ t = s ++ "\n" := by
  constructor
  · intro h
    by_cases hs : IsBroken s
    · have hs' := toList_of_isBroken hs
      by_cases ht : IsBroken t
      · refine .inl (String.toList_injective ?_)
        rw [hs', h, ← toList_of_isBroken ht]
      · refine .inr (.inl ⟨hs, String.toList_injective ?_⟩)
        rw [hs', h, nameRead_of_not_isBroken ht, String.toList_append]
        rfl
    · have hs' := nameRead_of_not_isBroken hs
      by_cases ht : IsBroken t
      · refine .inr (.inr ⟨ht, String.toList_injective ?_⟩)
        rw [toList_of_isBroken ht, ← h, hs', String.toList_append]
        rfl
      · refine .inl (String.toList_injective ?_)
        rw [← hs', h, nameRead_of_not_isBroken ht]
  · rintro (rfl | ⟨hs, h⟩ | ⟨ht, h⟩)
    · rfl
    · exact nameRead_of_append_lineEnd hs h
    · exact (nameRead_of_append_lineEnd ht h).symm

/-- In front of a text that no name runs into, a written name is read back, with all of that text
left, exactly if it is not a plain name that a line end closes; so is a parameter's name, if it is
no symbol either.  Two written names are read as the same name exactly if they are the same or
differ by such a line end. -/
theorem names_survive_iff {rest : List Char} (hrest : EndsNames rest) :
    (∀ s, takeName ((quote s).toList ++ rest) = some (s.toList, rest) ↔ ¬ IsBroken s) ∧
    (∀ p : ParamName, takeMention (p.token.toList ++ rest) = some (p.text.toList, rest) ↔
      ¬ IsBroken p.text ∧ p.word.symbol? = none) ∧
    ∀ s t, (takeName ((quote s).toList ++ rest)).map Prod.fst =
        (takeName ((quote t).toList ++ rest)).map Prod.fst ↔
      s = t ∨ IsBroken s ∧ s = t ++ "\n" ∨ IsBroken t ∧ t = s ++ "\n" := by
  refine ⟨fun s => takeName_quote_eq_iff s hrest, fun p => takeMention_token p hrest, ?_⟩
  intro s t
  obtain ⟨left, -, -, hs⟩ := takeName_quote s hrest
  obtain ⟨left', -, -, ht⟩ := takeName_quote t hrest
  rw [hs, ht, Option.map_some, Option.map_some, Option.some.injEq]
  exact nameRead_eq_iff s t

theorem names_survive_iff_awkwardName :
    EndsNames " = 1".toList ∧
      quote "1 \n\x60" = "\x601 \n\x60\x60\x60" ∧
      takeName ((quote "1 \n\x60").toList ++ " = 1".toList) =
        some ("1 \n\x60".toList, " = 1".toList) ∧
      takeMention ((ParamName.token ⟨.plain "_p1", by decide⟩).toList ++ " = 1".toList) =
        some ("_p1".toList, " = 1".toList) := by
  have hrest : EndsNames " = 1".toList := by
    rintro c ⟨⟩
    decide
  obtain ⟨hnames, hparams, -⟩ := names_survive_iff hrest
  refine ⟨hrest, by decide, (hnames _).2 fun h => ?_, (hparams _).2 ⟨fun h => ?_, rfl⟩⟩
  · exact absurd h.1 (by decide)
  · exact absurd h.2 (by decide)

/-- A line end behind a plain name is left over, and the name is read as the one without it. -/
theorem takeName_line_end :
    EndsNames [] ∧ quote "a\n" = "a\n" ∧
      takeName ((quote "a\n").toList ++ []) = some (['a'], ['\n']) ∧
      takeName ((quote "a").toList ++ []) = some (['a'], []) ∧
      takeMention ((ParamName.token ⟨.plain "a\n", by decide⟩).toList ++ []) =
        some (['a'], ['\n']) := by
  refine ⟨?_, by decide, by decide, by decide, by decide⟩
  rintro c ⟨⟩

end Identifier

end CypherCompose
