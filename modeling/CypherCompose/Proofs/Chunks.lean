import CypherCompose.Proofs.Enclosure

/-!
# Cutting a text at its brackets

`chunks` cuts the marks of a text into chunks: what stands between an opening bracket and the one that
closes it is one chunk, and every other mark is one of its own.  `Cut ms cs` says that marks are cut into
certain chunks wherever they stand, and that the chunks hold these marks.  Marks that are no brackets are
cut one by one (`Cut.inert`), and a fragment between brackets is one chunk (`Cut.group`).

Expressions are `Whole`: no comma of their text stands outside brackets, so that where they are listed
with commas, the commas between them can be told from those inside them (`Expr.whole_render`).
-/

namespace CypherCompose

/-- A mark outside brackets, or all that stands between a bracket and the one that closes it. -/
inductive Chunk where
  | mark (m : Mark)
  | group (opening : Char) (inside : List Mark)
  deriving DecidableEq, Repr

/-- The marks of a chunk. -/
def Chunk.marks : Chunk → List Mark
  | mark m => [m]
  | group o inside => .char o :: (inside ++ (closing? o).toList.map .char)

/-- The brackets still to be closed behind a mark. -/
def nestMark (due : List Char) : Mark → Option (List Char)
  | .char c => nestChar due c
  | _ => some due

/-- Where the cutting is: outside all brackets, or in a group with some brackets still to be closed and
some marks read. -/
inductive Place where
  | outside
  | inside (opening : Char) (due : List Char) (read : List Mark)

namespace Place

/-- The chunks that the next mark completes, and the place behind it. -/
def step : Place → Mark → Option (List Chunk × Place)
  | outside, .char c =>
      match closing? c with
      | some d => some ([], inside c [d] [])
      | none => if isClosing c then none else some ([.mark (.char c)], outside)
  | outside, m => some ([.mark m], outside)
  | inside o due read, m =>
      match nestMark due m with
      | none => none
      | some [] => some ([.group o read], outside)
      | some (d :: due) => some ([], inside o (d :: due) (read ++ [m]))

end Place

/-- The chunks of the marks from a place on. -/
def chunksFrom (p : Place) : List Mark → Option (List Chunk)
  | [] =>
      match p with
      | .outside => some []
      | .inside .. => none
  | m :: ms => (p.step m).bind fun next => (chunksFrom next.2 ms).map (next.1 ++ ·)

/-- The chunks of some marks, if their brackets are balanced. -/
def chunks (ms : List Mark) : Option (List Chunk) :=
  chunksFrom .outside ms

/-! ## Brackets in a context -/

theorem nest_cons (due : List Char) (m : Mark) (ms : List Mark) :
    nest due (m :: ms) = (nestMark due m).bind fun due => nest due ms := by
  cases m <;> rfl

/-- What closes its own brackets leaves those around it alone. -/
theorem nestMark_append {pre pre' : List Char} {m : Mark} (h : nestMark pre m = some pre')
    (base : List Char) : nestMark (pre ++ base) m = some (pre' ++ base) := by
  cases m with
  | char c =>
    simp only [nestMark, nestChar] at h ⊢
    cases hopen : closing? c with
    | some d =>
      rw [hopen] at h
      cases h
      rfl
    | none =>
      simp only [hopen] at h ⊢
      by_cases hclosing : isClosing c = true
      · rw [if_pos hclosing] at h ⊢
        by_cases hhead : pre.head? = some c
        · -- the bracket that `c` closes is among those of `pre`
          obtain ⟨pre, rfl⟩ := List.head?_eq_some_iff.1 hhead
          rw [if_pos hhead] at h
          cases h
          simp
        · rw [if_neg hhead] at h
          cases h
      · rw [if_neg hclosing] at h ⊢
        cases h
        rfl
  | string s =>
    cases h
    rfl
  | quoted s =>
    cases h
    rfl

/-- Inside a group, balanced marks are read as they are. -/
theorem chunksFrom_inside {o d : Char} {ms : List Mark} {pre post : List Char}
    (h : nest pre ms = some post) (read rest : List Mark) :
    chunksFrom (.inside o (pre ++ [d]) read) (ms ++ rest) =
      chunksFrom (.inside o (post ++ [d]) (read ++ ms)) rest := by
  induction ms generalizing pre read with
  | nil =>
    cases h
    simp
  | cons m ms ih =>
    rw [nest_cons] at h
    obtain ⟨pre', hm, hms⟩ := Option.bind_eq_some_iff.1 h
    have hstep : (Place.inside o (pre ++ [d]) read).step m =
        some ([], .inside o (pre' ++ [d]) (read ++ [m])) := by
      obtain ⟨e, es, hes⟩ := List.exists_cons_of_ne_nil (show pre' ++ [d] ≠ [] by simp)
      simp only [Place.step, nestMark_append hm, hes]
    rw [List.cons_append, chunksFrom, hstep, Option.bind_some, ih hms, List.append_assoc]
    simp

/-! ## Cuts -/

/-- Marks that are neither brackets nor commas. -/
def Mark.isInert : Mark → Bool
  | .char c => !List.contains [',', '(', ')', '[', ']', '\x7b', '\x7d'] c
  | _ => true

/-- Marks that are cut into certain chunks, whatever follows them. -/
structure Cut (ms : List Mark) (cs : List Chunk) : Prop where
  chunks : ∀ rest, chunksFrom .outside (ms ++ rest) = (chunksFrom .outside rest).map (cs ++ ·)
  marks : cs.flatMap Chunk.marks = ms

namespace Cut

variable {ms ms' : List Mark} {cs cs' : List Chunk}

theorem chunks_eq (h : Cut ms cs) : CypherCompose.chunks ms = some cs := by
  have hnil := h.chunks []
  rw [List.append_nil] at hnil
  rw [CypherCompose.chunks, hnil]
  simp [chunksFrom]

theorem nil : Cut [] [] :=
  ⟨fun rest => by simp, rfl⟩

theorem append (h : Cut ms cs) (h' : Cut ms' cs') : Cut (ms ++ ms') (cs ++ cs') where
  chunks rest := by
    rw [List.append_assoc, h.chunks, h'.chunks, Option.map_map]
    congr 1
    funext ds
    simp
  marks := by rw [List.flatMap_append, h.marks, h'.marks]

theorem mark {m : Mark} (h : m = .char ',' ∨ m.isInert = true) : Cut [m] [.mark m] where
  chunks rest := by
    have hstep : Place.outside.step m = some ([.mark m], .outside) := by
      cases m with
      | char c =>
        have hfree : closing? c = none ∧ isClosing c = false := by
          obtain hcomma | hinert := h
          · obtain rfl := Mark.char.inj hcomma
            exact ⟨rfl, rfl⟩
          · simp only [Mark.isInert, List.contains_cons, Bool.not_or, Bool.and_eq_true,
              Bool.not_eq_true', beq_eq_false_iff_ne, ne_eq] at hinert
            simp [closing?, isClosing, hinert]
        simp [Place.step, hfree]
      | string s => rfl
      | quoted s => rfl
    rw [List.singleton_append, chunksFrom, hstep]
    rfl
  marks := rfl

theorem inert (h : ∀ m ∈ ms, m.isInert = true) : Cut ms (ms.map .mark) := by
  induction ms with
  | nil => exact nil
  | cons m ms ih =>
    rw [List.forall_mem_cons] at h
    exact (mark (.inr h.1)).append (ih h.2)

/-- A bracket, balanced marks and the closing bracket are one chunk. -/
theorem group {o d : Char} (ho : closing? o = some d) (h : nest [] ms = some []) :
    Cut (.char o :: (ms ++ [.char d])) [.group o ms] where
  chunks rest := by
    have hopen : Place.outside.step (.char o) = some ([], .inside o [d] []) := by
      simp [Place.step, ho]
    have hdue : nestMark [d] (.char d) = some [] := by
      unfold closing? at ho
      split_ifs at ho <;> cases ho <;> rfl
    have hclose : (Place.inside o [d] ms).step (.char d) = some ([.group o ms], .outside) := by
      simp [Place.step, hdue]
    rw [List.cons_append, List.append_assoc, chunksFrom, hopen, Option.bind_some]
    have hinside := chunksFrom_inside (o := o) (d := d) h [] (.char d :: rest)
    simp only [List.nil_append] at hinside
    rw [List.singleton_append, hinside, chunksFrom, hclose]
    simp [Function.comp_def]
  marks := by simp [Chunk.marks, ho]

end Cut

/-! ## Tokens -/

theorem isInert_of_isTail {c : Char} (h : Identifier.isTail c = true) :
    (Mark.char c).isInert = true := by
  by_contra hinert
  simp only [Mark.isInert, Bool.not_eq_true', Bool.not_eq_false, List.contains_iff_mem, List.mem_cons,
    List.not_mem_nil, or_false] at hinert
  rcases hinert with rfl | rfl | rfl | rfl | rfl | rfl | rfl <;> revert h <;> decide

theorem isInert_of_isNumeric {c : Char} (h : Binary64.isNumeric c = true) :
    (Mark.char c).isInert = true := by
  simp only [Binary64.isNumeric, Bool.or_eq_true, List.contains_iff_mem, List.mem_cons,
    List.not_mem_nil, or_false] at h
  rcases h with hdigit | rfl | rfl | rfl | rfl
  · exact isInert_of_isTail (isTail_of_isDigit hdigit)
  all_goals decide

theorem isInert_of_isPlain {s : String} (h : Identifier.isPlain s = true) :
    ∀ c ∈ s.toList, (Mark.char c).isInert = true := by
  intro c hc
  rcases Identifier.mem_dropLineEnd hc with hc | rfl
  · exact isInert_of_isTail (Identifier.isTail_of_isWord h hc)
  · decide

theorem isInert_of_isDotted {s : String} (h : Identifier.isDotted s = true) :
    ∀ c ∈ s.toList, (Mark.char c).isInert = true := by
  intro c hc
  rcases Identifier.mem_dropLineEnd hc with hc | rfl
  · rcases Identifier.isTail_of_isDottedFrom h hc with hc | rfl
    · exact isInert_of_isTail hc
    · decide
  · decide

theorem isInert_ofName (s : String) : ∀ m ∈ Mark.ofName s, m.isInert = true := by
  unfold Mark.ofName
  split_ifs with hp
  · exact List.forall_mem_map.2 (isInert_of_isPlain hp)
  · simp [Mark.isInert]

namespace Token

/-- Tokens of known words that are neither brackets nor commas. -/
def isFlat : Token → Bool
  | sym s => vocabulary.contains s && !List.contains ["(", ")", "[", "]", "\x7b", "\x7d", ","] s
  | _ => true

theorem all_isInert_vocabulary : ∀ s ∈ vocabulary, (sym s).isFlat = true →
    s.toList.all (fun c => (Mark.char c).isInert) = true := by
  decide +kernel

theorem isInert_symbol {w : Word} {s : String} (h : w.symbol? = some s) :
    ∀ c ∈ s.toList, (Mark.char c).isInert = true := by
  apply List.all_eq_true.1
  cases w with
  | plain _ => cases h
  | direction d => cases d <;> cases h <;> decide
  | mode m => cases m <;> cases h <;> decide

theorem isInert_filled {w : Word} (h : ∀ c ∈ w.text.toList, (Mark.char c).isInert = true) :
    ∀ c ∈ w.filled.toList, (Mark.char c).isInert = true := by
  rw [Word.filled]
  cases hw : w.symbol? with
  | none => exact h
  | some s => exact isInert_symbol hw

/-- Only brackets and commas are written with brackets and commas. -/
theorem isInert_marks {t : Token} (h : t.isFlat = true) : ∀ m ∈ t.marks, m.isInert = true := by
  cases t with
  | sym s =>
    have hs : s ∈ vocabulary := by
      rw [isFlat, Bool.and_eq_true, List.contains_iff_mem] at h
      exact h.1
    have hall := all_isInert_vocabulary s hs h
    exact List.forall_mem_map.2 (List.all_eq_true.1 hall)
  | blank => decide
  | name n => exact isInert_ofName n.text
  | filledName n =>
    rw [marks]
    split
    next s hs => exact List.forall_mem_map.2 (isInert_symbol hs)
    next => exact isInert_ofName n.text
  | function f => exact List.forall_mem_map.2 (isInert_filled (isInert_of_isDotted f.dotted))
  | param p =>
    have hname := isInert_filled (isInert_of_isPlain p.plain)
    have hdollar : (Mark.char '$').isInert = true := by decide
    refine List.forall_mem_map.2 fun c hc => ?_
    rw [spelling, ParamName.token, String.toList_append, List.mem_append] at hc
    rcases hc with hc | hc
    · obtain rfl : c = '$' := by simpa using hc
      exact hdollar
    · exact hname c hc
  | string s => simp [marks, Mark.isInert]
  | numeral n =>
    refine List.forall_mem_map.2 fun c hc => isInert_of_isNumeric ?_
    exact List.all_eq_true.1 (Binary64.all_isNumeric_digits n) c (by simpa [spelling] using hc)
  | decimal x =>
    refine List.forall_mem_map.2 fun c hc => isInert_of_isNumeric ?_
    exact List.all_eq_true.1 (Binary64.all_isNumeric_toText _ _) c hc

end Token

/-! ## Texts without commas outside brackets -/

/-- The commas between chunks. -/
def Chunk.isComma : Chunk → Bool
  | mark (.char ',') => true
  | _ => false

theorem Chunk.isComma_mark {m : Mark} (h : m.isInert = true) : (mark m).isComma = false := by
  unfold isComma
  split
  · rename_i heq
    cases heq
    cases h
  · rfl

/-- The chunks of tokens, if their brackets are balanced. -/
def Token.pieces (ts : List Token) : List Chunk :=
  (chunks (ts.flatMap Token.marks)).getD []

theorem Token.pieces_eq {ts : List Token} {cs : List Chunk} (h : Cut (ts.flatMap Token.marks) cs) :
    pieces ts = cs := by
  rw [pieces, h.chunks_eq, Option.getD_some]

/-- Tokens whose text has no comma outside brackets. -/
def Whole (ts : List Token) : Prop :=
  ∃ cs, Cut (ts.flatMap Token.marks) cs ∧ ∀ c ∈ cs, c.isComma = false

namespace Whole

open Token

variable {ts us : List Token}

theorem cut (h : Whole ts) :
    Cut (ts.flatMap marks) (pieces ts) ∧ ∀ c ∈ pieces ts, c.isComma = false := by
  obtain ⟨cs, hcut, hcs⟩ := h
  rw [pieces_eq hcut]
  exact ⟨hcut, hcs⟩

theorem nil : Whole [] :=
  ⟨[], .nil, by simp⟩

theorem append (h : Whole ts) (h' : Whole us) : Whole (ts ++ us) := by
  obtain ⟨cs, hcut, hcs⟩ := h
  obtain ⟨cs', hcut', hcs'⟩ := h'
  refine ⟨cs ++ cs', ?_, List.forall_mem_append.2 ⟨hcs, hcs'⟩⟩
  rw [List.flatMap_append]
  exact hcut.append hcut'

theorem token {t : Token} (h : t.isFlat = true) : Whole [t] := by
  have hinert := isInert_marks h
  refine ⟨t.marks.map .mark, ?_, List.forall_mem_map.2 fun m hm => Chunk.isComma_mark (hinert m hm)⟩
  rw [List.flatMap_singleton]
  exact .inert hinert

/-- Brackets keep the commas of what they enclose. -/
theorem bracket {o c : String} (ht : Fragment ts) (h : (o, c) ∈ Fragment.brackets) :
    Whole (sym o :: (ts ++ [sym c])) := by
  have hbracket : ∀ d e : Char, closing? d = some e →
      Whole (sym (String.singleton d) :: (ts ++ [sym (String.singleton e)])) := by
    intro d e hd
    refine ⟨[.group d (ts.flatMap marks)], ?_, by simp [Chunk.isComma]⟩
    have hgroup := Cut.group hd (ht.nested [])
    simpa [marks, spelling] using hgroup
  simp only [Fragment.brackets, List.mem_cons, Prod.mk.injEq, List.not_mem_nil, or_false] at h
  rcases h with ⟨rfl, rfl⟩ | ⟨rfl, rfl⟩ | ⟨rfl, rfl⟩
  · exact hbracket '(' ')' rfl
  · exact hbracket '[' ']' rfl
  · exact hbracket '\x7b' '\x7d' rfl

theorem cons {t : Token} (h : Whole us) (ht : t.isFlat = true) : Whole (t :: us) :=
  (token ht).append h

theorem fill (h : Whole ts) : Whole (fill ts) := by
  unfold Token.fill
  split
  · exact token rfl
  · exact h

theorem guarded {r : Rendering} (hf : Fragment r.tokens) (h : Whole r.tokens) (needed : Bool) :
    Whole (r.guarded needed) := by
  unfold Rendering.guarded
  split_ifs
  · exact bracket hf.fill (by simp [Fragment.brackets])
  · exact h.fill

theorem blanks {parts : List (List Token)} (h : ∀ ts ∈ parts, Whole ts) : Whole (blanks parts) := by
  induction parts with
  | nil => exact nil
  | cons ts parts ih =>
    rw [List.forall_mem_cons] at h
    cases parts with
    | nil => simpa [Token.blanks, List.intercalate] using h.1
    | cons us parts =>
      have hblank : Whole [blank] := token rfl
      simpa [Token.blanks, List.intercalate] using h.1.append (hblank.append (ih h.2))

/-- Two texts with a word between them. -/
theorem between {t : Token} (h : Whole ts) (h' : Whole us) (ht : t.isFlat = true) :
    Whole (ts ++ [blank, t, blank] ++ us) := by
  have hword : Whole [blank, t, blank] := ((token rfl : Whole [blank]).cons ht).cons rfl
  exact (h.append hword).append h'

theorem signed (negative : Bool) {t : Token} (h : t.isFlat = true) : Whole (signed negative t) := by
  unfold CypherCompose.signed
  split_ifs
  · exact (token h).cons rfl
  · exact token h

theorem renderMap {entries : List (Name × List Token)} (h : ∀ e ∈ entries, Fragment e.2) :
    Whole (renderMap entries) :=
  bracket (Fragment.entries h) (by simp [Fragment.brackets])

theorem renderCase {branches : List (List Token × List Token)} {default : Option (List Token)}
    (hb : ∀ b ∈ branches, Whole b.1 ∧ Whole b.2) (hd : ∀ d ∈ default, Whole d) :
    Whole (renderCase branches default) := by
  refine blanks fun ts hts => ?_
  simp only [List.mem_append, List.mem_singleton, List.mem_map] at hts
  rcases hts with ((rfl | ⟨b, hmem, rfl⟩) | hts) | rfl
  · exact token rfl
  · have hbranch := (hb b hmem).1.fill.between (hb b hmem).2.fill (t := sym "THEN") rfl
    exact (hbranch.cons rfl).cons rfl
  · cases default with
    | none => cases hts
    | some d =>
      obtain rfl := List.mem_singleton.1 hts
      exact ((hd d rfl).fill.cons rfl).cons rfl
  · exact token rfl

theorem binary {l r : Rendering} (hl : l.Enclosed) (hr : r.Enclosed) (hl' : Whole l.tokens)
    (hr' : Whole r.tokens) (op : BinaryOp) (regroups : Bool) :
    Whole (Rendering.binary op l r regroups).tokens := by
  unfold Rendering.binary
  split_ifs with hop
  · have hparts : ∀ ts ∈ l.disjuncts ++ r.disjuncts, Fragment ts :=
      List.forall_mem_append.2 ⟨hl.disjuncts, hr.disjuncts⟩
    exact bracket (Fragment.intercalate (fun ht hu => ht.between hu rfl rfl) hparts)
      (by simp [Fragment.brackets])
  · have hop : (sym op.token).isFlat = true := by cases op <;> rfl
    exact (guarded hl.tokens hl' _).between (guarded hr.tokens hr' _) hop

theorem unary {r : Rendering} (hr : r.Enclosed) (hr' : Whole r.tokens) (op : UnaryOp) :
    Whole (Rendering.unary op r).tokens := by
  have hguarded : ∀ needed, Whole (r.guarded needed) := guarded hr.tokens hr'
  cases op with
  | not => exact ((hguarded _).cons rfl).cons rfl
  | neg => exact (hguarded _).cons rfl
  | isNull => exact (hguarded _).append ((token rfl).cons rfl)
  | isNotNull => exact (hguarded _).append ((token rfl).cons rfl)

end Whole

namespace Expr

open Token

/-- No comma of an expression stands outside brackets.  Only what operators join and what a CASE holds
is not between brackets of its own. -/
theorem whole_render (e : Expr) : Whole e.render := by
  induction e using Expr.induct with
  | null => exact .token rfl
  | bool b => cases b <;> exact .token rfl
  | int n => exact .signed _ rfl
  | float x => exact .signed _ rfl
  | text s => exact .token rfl
  | star => exact .token rfl
  | var n => exact .token rfl
  | property owner key =>
    exact ((Whole.token rfl).cons rfl).cons rfl
  | param p => exact .token rfl
  | list items _ =>
    rw [render, rendering, renderAll_eq_map]
    exact .bracket (.commas_map fragment_render items) (by simp [Fragment.brackets])
  | map entries _ =>
    rw [render, rendering, renderEntries_eq_mapValues]
    refine Whole.renderMap fun e he => ?_
    obtain ⟨entry, -, rfl⟩ := List.mem_map.1 he
    exact entry.2.fragment_render
  | binary op l r ihl ihr =>
    rw [render, rendering]
    exact .binary l.enclosed_rendering r.enclosed_rendering ihl ihr op _
  | unary op e ih =>
    rw [render, rendering]
    exact .unary e.enclosed_rendering ih op
  | call f d args _ =>
    have hargs : Fragment (commas (args.map render)) := .commas_map fragment_render args
    have hinside :
        Fragment ((if d then [sym "DISTINCT", blank] else []) ++ commas (args.map render)) := by
      cases d with
      | false => exact hargs
      | true => exact hargs.keyword rfl rfl
    rw [render, rendering, renderAll_eq_map]
    exact (Whole.bracket hinside (o := "(") (c := ")") (by simp [Fragment.brackets])).cons rfl
  | case branches default ihb ihd =>
    rw [render, rendering, renderBranches_eq_map, renderOption_eq_map]
    refine Whole.renderCase (fun b hb => ?_) fun d hd => ?_
    · obtain ⟨branch, hbranch, rfl⟩ := List.mem_map.1 hb
      exact ihb branch hbranch
    · obtain ⟨e, he, rfl⟩ := Option.map_eq_some_iff.1 hd
      exact ihd e he
  | existence paths _ =>
    have hmatch := (fragment_pathTokens paths).keyword (t := sym "MATCH") rfl rfl
    have hinside := (hmatch.cons (t := blank) rfl rfl rfl).join .nil (t := blank) rfl rfl rfl
    have hbraces := Whole.bracket hinside (o := "\x7b") (c := "\x7d") (by simp [Fragment.brackets])
    have hexists := (hbraces.cons (t := blank) rfl).cons (t := sym "EXISTS") rfl
    rw [render, rendering]
    simpa [Rendering.single, pathTokens] using hexists
  | enclosed e ih =>
    rw [render, rendering]
    exact ih

end Expr

end CypherCompose
