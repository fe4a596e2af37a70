import CypherCompose.Proofs.Chunks
import CypherCompose.Proofs.Lexeme

/-!
# The grammar of patterns

`readPaths` reads a text as patterns with commas between them: nodes `(name:Label {map})`, and between
them relationships `-[..]->`, `<-[..]-` and `-[..]-` with `name:TYPE*hops {map}` inside.  Every part is
optional.  A map is read down to its keys; its values are any texts without a comma outside brackets, and
are given back as they stand.

The readers are over chunks: what stands between brackets is one chunk, which the reader for these
brackets cuts in turn.
-/

namespace CypherCompose

/-! ## The text of marks -/

/-- The text of a mark. -/
def Mark.spelling : Mark → String
  | char c => String.singleton c
  | string s => Literal.quote s
  | quoted s => String.ofList ('`' :: (Identifier.doubled s.toList ++ ['`']))

/-- The text of marks. -/
def spellMarks : List Mark → String
  | [] => ""
  | m :: ms => m.spelling ++ spellMarks ms

/-! ## The readers -/

namespace PatternGrammar

/-- The reading of some chunks, and the chunks that follow. -/
def Reader (α : Type) : Type :=
  List Chunk → Option (α × List Chunk)

/-- The characters in front that pass a test, and the chunks that follow. -/
def run (p : Char → Bool) : List Chunk → List Char × List Chunk
  | .mark (.char c) :: cs =>
      if p c then (c :: (run p cs).1, (run p cs).2) else ([], .mark (.char c) :: cs)
  | cs => ([], cs)

/-- A name: between backticks, or a plain word. -/
def name? : Reader Name
  | .mark (.quoted s) :: cs => (Name.ofWord? (.plain s)).map (·, cs)
  | .mark (.char c) :: cs =>
      if Identifier.isHead c then
        let word := run Identifier.isTail cs
        (Name.ofWord? (.plain (String.ofList (c :: word.1)))).map (·, word.2)
      else none
  | _ => none

/-- Whether a name starts here. -/
def startsName : List Chunk → Bool
  | .mark (.quoted _) :: _ => true
  | .mark (.char c) :: _ => Identifier.isHead c
  | _ => false

/-- The name of a node or a relationship, if it has one. -/
def binding? : Reader (Option Name) := fun cs =>
  if startsName cs then (name? cs).map fun r => (some r.1, r.2) else some (none, cs)

/-- A label or a type, if there is one. -/
def label? : Reader (Option Name)
  | .mark (.char ':') :: cs => (name? cs).map fun r => (some r.1, r.2)
  | cs => some (none, cs)

/-- A bound of a range; no digits stand for an open end. -/
def bound (cs : List Chunk) : Option Nat × List Chunk :=
  let digits := run Char.isDigit cs
  (if digits.1.isEmpty then none else some (Nat.ofDigitChars 10 digits.1 0), digits.2)

/-- The hops of a relationship, if it has any. -/
def hops : List Chunk → Option Hops × List Chunk
  | .mark (.char '*') :: cs =>
      let lo := bound cs
      match lo.2 with
      | .mark (.char '.') :: .mark (.char '.') :: rest =>
          let hi := bound rest
          (some (.range lo.1 hi.1), hi.2)
      | rest => (some (lo.1.elim (.range none none) .exactly), rest)
  | cs => (none, cs)

/-- The parts of a list with commas, each without the blanks in front of it. -/
def listed (cs : List Chunk) : List (List Chunk) :=
  (cs.splitOnP Chunk.isComma).map (List.dropWhile (· == .mark (.char ' ')))

/-- An entry of a map: its key and the text of its value. -/
def entry? (cs : List Chunk) : Option (Name × String) := do
  let (key, rest) ← name? cs
  match rest with
  | .mark (.char ':') :: .mark (.char ' ') :: c :: value =>
      some (key, spellMarks ((c :: value).flatMap Chunk.marks))
  | _ => none

/-- The map of a node or a relationship; nothing stands for no entries. -/
def props? : List Chunk → Option (List (Name × String))
  | [] => some []
  | [.mark (.char ' '), .group '\x7b' inside] => do
      let cs ← chunks inside
      (listed cs).mapM entry?
  | _ => none

/-- A node, from what stands between its parentheses. -/
def node? (inside : List Mark) : Option (Node String) := do
  let cs ← chunks inside
  let (name, cs) ← binding? cs
  let (label, cs) ← label? cs
  let props ← props? cs
  some ⟨name, label, props⟩

/-- A relationship, from what stands between its brackets. -/
def rel? (inside : List Mark) : Option (Rel String) := do
  let cs ← chunks inside
  let (name, cs) ← binding? cs
  let (type, cs) ← label? cs
  let props ← props? (hops cs).2
  some ⟨name, type, (hops cs).1, props⟩

/-- The links of a path. -/
def links? : List Chunk → Option (List (Link String))
  | [] => some []
  | .mark (.char '-') :: .group '[' r :: .mark (.char '-') :: .mark (.char '>') :: .group '(' n :: cs => do
      some (⟨.forward, ← rel? r, ← node? n⟩ :: (← links? cs))
  | .mark (.char '<') :: .mark (.char '-') :: .group '[' r :: .mark (.char '-') :: .group '(' n :: cs => do
      some (⟨.backward, ← rel? r, ← node? n⟩ :: (← links? cs))
  | .mark (.char '-') :: .group '[' r :: .mark (.char '-') :: .group '(' n :: cs => do
      some (⟨.undirected, ← rel? r, ← node? n⟩ :: (← links? cs))
  | _ => none

/-- A path. -/
def path? : List Chunk → Option (Path String)
  | .group '(' n :: cs => do some ⟨← node? n, ← links? cs⟩
  | _ => none

end PatternGrammar

/-- The patterns that a text is. -/
def readPaths (s : String) : Option (List (Path String)) := do
  let ms ← scan s
  let cs ← chunks ms
  (PatternGrammar.listed cs).mapM PatternGrammar.path?

open Token

/-! ## Marks and names -/

theorem spellMarks_append (ms ms' : List Mark) :
    spellMarks (ms ++ ms') = spellMarks ms ++ spellMarks ms' := by
  induction ms with
  | nil => simp [spellMarks]
  | cons m ms ih => simp [spellMarks, ih, String.append_assoc]

theorem spellMarks_chars (cs : List Char) : spellMarks (cs.map .char) = String.ofList cs := by
  induction cs with
  | nil => rfl
  | cons c cs ih => simp [spellMarks, ih, Mark.spelling, String.ofList_cons]

/-- The marks of a token keep its text. -/
theorem spellMarks_token {t : Token} (h : t.isKnown = true) : spellMarks t.marks = t.spelling := by
  cases reading h with
  | string s => simp [marks, spellMarks, Mark.spelling, spelling]
  | quoted s plain spelling marks =>
    rw [marks, spelling, Identifier.quote, if_neg (by simp [plain])]
    simp [spellMarks, Mark.spelling]
  | chars _ _ marks => rw [marks, spellMarks_chars, String.ofList_toList]

theorem spellMarks_flatMap {ts : List Token} (h : ∀ t ∈ ts, t.isKnown = true) :
    spellMarks (ts.flatMap marks) = spell ts := by
  induction ts with
  | nil => rfl
  | cons t ts ih =>
    rw [List.forall_mem_cons] at h
    rw [List.flatMap_cons, spellMarks_append, spellMarks_token h.1, ih h.2, spell_cons]

/-- Names that are plain texts no line end closes. -/
def Name.IsLegible (n : Name) : Prop :=
  n.word = .plain n.text ∧ Unbroken n.text

instance (n : Name) : Decidable n.IsLegible :=
  inferInstanceAs (Decidable (_ ∧ _))

theorem Name.ofWord?_word (n : Name) : Name.ofWord? n.word = some n := by
  simp [Name.ofWord?, n.nonempty]

namespace PatternGrammar

/-! ## Names, labels and hops -/

/-- Chunks that start with one of some characters, if there are any. -/
def Opens (allowed : List Char) (cs : List Chunk) : Prop :=
  ∀ c ∈ cs.head?, ∃ a ∈ allowed, c = .mark (.char a)

theorem Opens.nil (allowed : List Char) : Opens allowed [] := by
  simp [Opens]

theorem Opens.mark {a : Char} {allowed : List Char} (h : a ∈ allowed) (cs : List Chunk) :
    Opens allowed (.mark (.char a) :: cs) := by
  simp [Opens, h]

theorem Opens.cases {allowed : List Char} {cs : List Chunk} (h : Opens allowed cs) :
    cs = [] ∨ ∃ a ∈ allowed, ∃ rest, cs = .mark (.char a) :: rest := by
  cases cs with
  | nil => exact .inl rfl
  | cons c rest =>
    obtain ⟨a, ha, rfl⟩ := h c rfl
    exact .inr ⟨a, ha, rest, rfl⟩

theorem Opens.append {allowed : List Char} {cs ds : List Chunk} (h : Opens allowed cs)
    (h' : Opens allowed ds) : Opens allowed (cs ++ ds) := by
  rcases h.cases with rfl | ⟨a, ha, rest, rfl⟩
  · exact h'
  · exact mark ha _

theorem Opens.mono {allowed more : List Char} {cs : List Chunk} (h : Opens allowed cs)
    (hsub : ∀ a ∈ allowed, a ∈ more) : Opens more cs := by
  intro c hc
  obtain ⟨a, ha, rfl⟩ := h c hc
  exact ⟨a, hsub a ha, rfl⟩

theorem run_append {p : Char → Bool} {allowed : List Char} {ds : List Char} {rest : List Chunk}
    (hd : ∀ d ∈ ds, p d = true) (hrest : Opens allowed rest)
    (hp : allowed.all (fun a => !p a) = true) :
    run p ((ds.map Mark.char).map .mark ++ rest) = (ds, rest) := by
  induction ds with
  | nil =>
    rcases hrest.cases with rfl | ⟨a, ha, rest, rfl⟩
    · rfl
    · have ha : p a = false := by simpa using List.all_eq_true.1 hp a ha
      simp [run, ha]
  | cons d ds ih =>
    rw [List.forall_mem_cons] at hd
    simp only [List.map_cons, List.cons_append, run, hd.1, if_true]
    rw [ih hd.2]

theorem name?_append {n : Name} (hn : n.IsLegible) {rest : List Chunk}
    (hrest : Opens [':', '*', ' '] rest) :
    name? ((Mark.ofName n.text).map .mark ++ rest) = some (n, rest) := by
  obtain ⟨hw, hs⟩ := hn
  have hname : Name.ofWord? (.plain n.text) = some n := by rw [← hw, n.ofWord?_word]
  unfold Mark.ofName
  split_ifs with hp
  · rw [Identifier.isPlain, dropLineEnd_of_unbroken hs] at hp
    cases hcs : n.text.toList with
    | nil =>
      rw [hcs] at hp
      cases hp
    | cons c cs =>
      rw [hcs, Identifier.isWord, Bool.and_eq_true, List.all_eq_true] at hp
      simp only [List.map_cons, List.cons_append, name?, hp.1, if_true]
      rw [run_append hp.2 hrest (by decide), ← hcs, String.ofList_toList, hname]
      rfl
  · simp [name?, hname]

theorem startsName_of_name? {cs : List Chunk} {r : Name × List Chunk} (h : name? cs = some r) :
    startsName cs = true := by
  unfold name? at h
  split at h
  · rfl
  · split_ifs at h with hc
    exact hc
  · cases h

/-- The chunks of tokens that are written without brackets and commas. -/
def plainChunks (ts : List Token) : List Chunk :=
  (ts.flatMap marks).map .mark

theorem binding?_append {n : Option Name} (hn : ∀ k ∈ n, k.IsLegible) {rest : List Chunk}
    (hrest : Opens [':', '*', ' '] rest) :
    binding? (plainChunks (renderName n) ++ rest) = some (n, rest) := by
  cases n with
  | none =>
    have hstarts : startsName rest = false := by
      have hhead : [':', '*', ' '].all (fun a => !Identifier.isHead a) = true := by decide
      rcases hrest.cases with rfl | ⟨a, ha, rest, rfl⟩
      · rfl
      · simpa [startsName] using List.all_eq_true.1 hhead a ha
    simp [plainChunks, renderName, binding?, hstarts]
  | some n =>
    have hname := name?_append (hn n rfl) hrest
    rw [renderName, plainChunks, List.flatMap_singleton, marks, binding?,
      if_pos (startsName_of_name? hname), hname]
    rfl

theorem label?_append {n : Option Name} (hn : ∀ k ∈ n, k.IsLegible) {rest : List Chunk}
    (hrest : Opens ['*', ' '] rest) :
    label? (plainChunks (renderLabel n) ++ rest) = some (n, rest) := by
  cases n with
  | none =>
    rcases hrest.cases with rfl | ⟨a, ha, rest, rfl⟩
    · rfl
    · simp only [List.mem_cons, List.not_mem_nil, or_false] at ha
      rcases ha with rfl | rfl <;> rfl
  | some n =>
    have hopens : Opens [':', '*', ' '] rest := hrest.mono (by simp)
    have hname := name?_append (hn n rfl) hopens
    have hchunks : plainChunks (renderLabel (some n)) ++ rest =
        .mark (.char ':') :: ((Mark.ofName n.text).map .mark ++ rest) := by
      simp [plainChunks, renderLabel, marks, spelling]
    rw [hchunks, label?, hname]
    rfl

theorem bound_append (n : Option Nat) {rest : List Chunk} (hrest : Opens ['.', ' '] rest) :
    bound (plainChunks (renderBound n) ++ rest) = (n, rest) := by
  have hdigits : ∀ ds : List Char, (∀ d ∈ ds, d.isDigit = true) →
      run Char.isDigit ((ds.map Mark.char).map .mark ++ rest) = (ds, rest) :=
    fun ds hds => run_append hds hrest (by decide)
  cases n with
  | none =>
    have hnone := hdigits [] (by simp)
    simp only [List.map_nil, List.nil_append] at hnone
    simp [plainChunks, renderBound, bound, hnone]
  | some n =>
    have hsome := hdigits (Nat.toDigits 10 n) fun d hd =>
      Nat.isDigit_of_mem_toDigits (by omega) (by omega) hd
    have hmarks : (numeral n).marks = (Nat.toDigits 10 n).map .char := by
      rw [marks, spelling, Nat.toString_eq_repr, Nat.toList_repr]
      all_goals simp
    rw [plainChunks, renderBound, List.flatMap_singleton, hmarks, bound, hsome]
    simp [Nat.toDigits_ne_nil, Nat.ofDigitChars_ten_toDigits]

theorem hops_append (h : Option Hops) {rest : List Chunk} (hrest : Opens [' '] rest) :
    hops (plainChunks (renderHops h) ++ rest) = (h, rest) := by
  have hblank : rest = [] ∨ ∃ cs, rest = .mark (.char ' ') :: cs := by
    rcases hrest.cases with rfl | ⟨a, ha, cs, rfl⟩
    · exact .inl rfl
    · exact .inr ⟨cs, by rw [List.mem_singleton.1 ha]⟩
  have hbound : ∀ n, bound (plainChunks (renderBound n) ++ rest) = (n, rest) :=
    fun n => bound_append n (hrest.mono (by simp))
  -- behind a lone bound no point follows
  have hlone : ∀ n, hops (.mark (.char '*') :: (plainChunks (renderBound n) ++ rest)) =
      (some (n.elim (.range none none) .exactly), rest) := by
    intro n
    rw [hops, hbound]
    rcases hblank with rfl | ⟨cs, rfl⟩ <;> rfl
  have hrange : ∀ lo hi, hops (.mark (.char '*') :: (plainChunks (renderBound lo)
      ++ (.mark (.char '.') :: .mark (.char '.') :: (plainChunks (renderBound hi) ++ rest)))) =
      (some (.range lo hi), rest) := by
    intro lo hi
    have hpoint : Opens ['.', ' '] (.mark (.char '.') :: .mark (.char '.') ::
        (plainChunks (renderBound hi) ++ rest)) := .mark (by simp) _
    simp only [hops, bound_append lo hpoint, hbound]
  cases h with
  | none => rcases hblank with rfl | ⟨cs, rfl⟩ <;> rfl
  | some h =>
    rcases h with n | ⟨lo, hi⟩
    · exact hlone (some n)
    · by_cases hopen : lo = none ∧ hi = none
      · obtain ⟨rfl, rfl⟩ := hopen
        exact hlone none
      · have hrender : renderHops (some (.range lo hi)) =
            sym "*" :: (renderBound lo ++ [sym ".."] ++ renderBound hi) := by
          cases lo <;> cases hi <;> first | rfl | exact absurd ⟨rfl, rfl⟩ hopen
        have hchunks : plainChunks (renderHops (some (.range lo hi))) ++ rest =
            .mark (.char '*') :: (plainChunks (renderBound lo) ++ (.mark (.char '.') ::
              .mark (.char '.') :: (plainChunks (renderBound hi) ++ rest))) := by
          simp [hrender, plainChunks, marks, spelling]
        rw [hchunks, hrange]

/-! ## Lists -/

theorem listed_blank (cs : List Chunk) : listed (.mark (.char ' ') :: cs) = listed cs := by
  obtain ⟨first, rest, hsplit⟩ := List.exists_cons_of_ne_nil (List.splitOnP_ne_nil Chunk.isComma cs)
  have hcomma : (Chunk.mark (.char ' ')).isComma = false := rfl
  rw [listed, listed, List.splitOnP_cons_eq_if_modifyHead, hcomma, hsplit]
  simp

theorem listed_intercalate {css : List (List Chunk)} (hne : css ≠ [])
    (h : ∀ cs ∈ css, (∀ c ∈ cs, c.isComma = false) ∧ cs.head? ≠ some (.mark (.char ' '))) :
    listed (List.intercalate [.mark (.char ','), .mark (.char ' ')] css) = css := by
  have hpart : ∀ cs : List Chunk, cs.head? ≠ some (.mark (.char ' ')) →
      cs.dropWhile (· == .mark (.char ' ')) = cs := by
    intro cs hcs
    cases cs with
    | nil => rfl
    | cons c cs => exact List.dropWhile_cons_of_neg (by simpa using hcs)
  induction css with
  | nil => exact absurd rfl hne
  | cons cs css ih =>
    obtain ⟨⟨hcommas, hhead⟩, hcss⟩ := List.forall_mem_cons.1 h
    have hsplit : cs.splitOnP Chunk.isComma = [cs] := List.splitOnP_eq_singleton hcommas
    cases css with
    | nil => simp [listed, List.intercalate, hsplit, hpart cs hhead]
    | cons ds css =>
      have hrest := ih (by simp) hcss
      rw [← listed_blank, listed] at hrest
      have hcomma : (Chunk.mark (.char ',')).isComma = true := rfl
      rw [List.intercalate_cons_cons, listed, List.append_assoc, List.cons_append,
        List.splitOnP_append_cons cs _ hcomma, hsplit, List.map_append, List.singleton_append, hrest]
      simp [hpart cs hhead]

theorem cut_commas {parts : List (List Token)} (h : ∀ ts ∈ parts, Whole ts) :
    Cut ((commas parts).flatMap marks)
      (List.intercalate [.mark (.char ','), .mark (.char ' ')] (parts.map pieces)) := by
  induction parts with
  | nil => exact .nil
  | cons ts parts ih =>
    obtain ⟨hts, hparts⟩ := List.forall_mem_cons.1 h
    cases parts with
    | nil => simpa [commas, List.intercalate] using hts.cut.1
    | cons us parts =>
      have hsep : Cut [.char ',', .char ' '] [.mark (.char ','), .mark (.char ' ')] :=
        (Cut.mark (.inl rfl)).append (.mark (.inr rfl))
      have hcut := (hts.cut.1.append hsep).append (ih hparts)
      simpa [commas, List.intercalate_cons_cons, marks, spelling] using hcut

/-- Parts with commas between them are told apart. -/
theorem listed_commas {parts : List (List Token)} (hne : parts ≠ [])
    (h : ∀ ts ∈ parts, Whole ts ∧ (pieces ts).head? ≠ some (.mark (.char ' '))) :
    ∃ cs, chunks ((commas parts).flatMap marks) = some cs ∧ listed cs = parts.map pieces := by
  refine ⟨_, (cut_commas fun ts hts => (h ts hts).1).chunks_eq, listed_intercalate ?_ ?_⟩
  · simpa using hne
  · refine List.forall_mem_map.2 fun ts hts => ?_
    exact ⟨(h ts hts).1.cut.2, (h ts hts).2⟩

theorem mapM_map_some {α β γ : Type} {f : α → β} {g : β → Option γ} {k : α → γ} {xs : List α}
    (h : ∀ x ∈ xs, g (f x) = some (k x)) : (xs.map f).mapM g = some (xs.map k) := by
  induction xs with
  | nil => rfl
  | cons x xs ih =>
    rw [List.forall_mem_cons] at h
    simp [h.1, ih h.2]

end PatternGrammar

end CypherCompose
