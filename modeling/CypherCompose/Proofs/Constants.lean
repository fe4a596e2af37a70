import CypherCompose.Proofs.FreshNames
import CypherCompose.Proofs.TableHistory

/-!
# Variables and constants

The text of a variable starts with a letter, an underscore or a backtick, and the text of a
constant with a digit, a sign, a quote or a bracket, unless it is one of the words `null`, `true`
and `false`.  Quoting looks at the characters of a name alone, and these words are plain, so just
the variables of those names are written like constants (`var_eq_literal_iff`).
-/

namespace CypherCompose

/-- Constants: nothing, truth values, integers and texts, and lists and maps, whatever they hold. -/
def Value.isConstant : Value → Bool
  | .null | .bool _ | .int _ | .text _ | .list _ | .tuple _ | .map _ => true
  | _ => false

namespace Identifier

/-- Characters that no written name starts with. -/
def OpensNoName (c : Char) : Prop :=
  isHead c = false ∧ c ≠ '`'

theorem isHead_of_isPlain {s : String} (h : isPlain s = true) {c : Char}
    (hc : s.toList.head? = some c) : isHead c = true := by
  obtain ⟨d, ds, hword⟩ : ∃ d ds, dropLineEnd s.toList = d :: ds := by
    refine List.exists_cons_of_ne_nil fun hnil => ?_
    rw [isPlain, hnil] at h
    cases h
  rw [isPlain, hword, isWord, Bool.and_eq_true] at h
  have hhead : s.toList.head? = some d := by
    rcases dropLineEnd_cases s.toList with hs | hs
    · rw [hs, hword]
      rfl
    · rw [hs, hword]
      rfl
  obtain rfl : d = c := Option.some.inj (hhead.symm.trans hc)
  exact h.1

theorem quote_ne_of_head? {s t : String} {c : Char} (ht : t.toList.head? = some c)
    (hc : OpensNoName c) : quote s ≠ t := by
  rintro rfl
  by_cases hplain : isPlain s = true
  · rw [quote_of_isPlain hplain] at ht
    exact absurd (isHead_of_isPlain hplain ht) (by simp [hc.1])
  · simp only [quote, hplain, Bool.false_eq_true, if_false, String.toList_ofList, List.head?_cons,
      Option.some.injEq] at ht
    exact hc.2 ht.symm

theorem quote_eq_word_iff {s t : String} (ht : isWord t.toList = true) : quote s = t ↔ s = t := by
  constructor
  · intro h
    by_cases hplain : isPlain s = true
    · rwa [quote_of_isPlain hplain] at h
    · have hhead : t.toList.head? = some '`' := by
        rw [← h]
        simp [quote, hplain]
      have hlead := isHead_of_isPlain (isPlain_of_isWord ht) hhead
      exact absurd hlead (by decide)
  · rintro rfl
    exact quote_of_isPlain (isPlain_of_isWord ht)

end Identifier

namespace Session

open Identifier

variable {r : Registry} {name v : Value} {s : String}

/-! ## The texts of variables and constants -/

theorem exists_word_of_text? (hname : name.text? = some s) :
    ∃ w, Word.ofValue? name = some w ∧ w.text = s := by
  cases name with
  | atom a => cases a <;> cases hname <;> exact ⟨_, rfl, rfl⟩
  | _ => cases hname

theorem equal?_text (hname : name.text? = some s) (t : String) :
    name.equal? (.text t) = some (s == t) := by
  cases name with
  | atom a =>
    cases a <;> cases hname <;>
      simp [Value.equal?, Value.outline, Outline.equal?, Atom.equal?, Atom.number?, Atom.text?]
  | _ => cases hname

theorem exists_readVar (hname : name.text? = some s) (hs : s ≠ "") (hstar : s ≠ "*") :
    ∃ n, readVar name = .done (.var n) ∧ n.text = s := by
  obtain ⟨w, hword, rfl⟩ := exists_word_of_text? hname
  have hequal : name.equal? (.text "*") = some false := by
    rw [equal?_text hname, beq_false_of_ne hstar]
  have hread : Name.ofValue? name = some ⟨w, hs⟩ := by
    rw [Name.ofValue?, hword]
    exact dif_pos hs
  refine ⟨⟨w, hs⟩, ?_, rfl⟩
  rw [readVar, hequal, hread]
  rfl

theorem step_write_var (r : Registry) (hname : name.text? = some s) (hs : s ≠ "")
    (hstar : s ≠ "*") :
    step r (.write .expr (.var name)) = (.ok (.text (quote s)), r) := by
  obtain ⟨n, hread, rfl⟩ := exists_readVar hname hs hstar
  have hdraft : Piece.draft .expr (.var name) = .done [.name n] := by
    rw [Piece.draft, Expr.ofValue, hread]
    rfl
  have hspell : Token.spell [.name n] = quote n.text := String.append_empty
  rw [step_write, hdraft, ← hspell]
  rfl

/-- The text of an expression is what its reading is written as. -/
theorem exists_expr_of_write {t : String} (h : (step r (.write .expr v)).1 = .ok (.text t)) :
    ∃ rs e, Expr.ofValue v = ⟨rs, .ok e⟩ ∧ t = Token.spell e.render := by
  rw [step_write] at h
  cases hrun : (r.run (Piece.draft .expr v)).1 with
  | error e =>
    rw [hrun] at h
    cases h
  | ok ts =>
    rw [hrun] at h
    obtain rfl : Token.spell ts = t := by
      simpa [Except.map] using h
    obtain ⟨hdraft, -⟩ := Registry.run_eq_ok (Prod.ext hrun rfl)
    obtain ⟨e, he, rfl⟩ := Draft.map_eq_ok.1 hdraft
    exact ⟨_, e, he, rfl⟩

theorem head?_spell {t : Token} {c : Char} (h : t.spelling.toList.head? = some c)
    (ts : List Token) : (Token.spell (t :: ts)).toList.head? = some c := by
  rw [Token.spell_cons, String.toList_append, List.head?_append, h, Option.some_or]

theorem head?_spell_sym {t : String} (ht : t ∈ ["[", "\x7b", "-"]) (ts : List Token) :
    ∃ c, (Token.spell (.sym t :: ts)).toList.head? = some c ∧ OpensNoName c := by
  simp only [List.mem_cons, List.not_mem_nil, or_false] at ht
  rcases ht with rfl | rfl | rfl <;> exact ⟨_, head?_spell rfl ts, by decide, by decide⟩

theorem exists_head?_toString (n : Nat) :
    ∃ c, (toString n).toList.head? = some c ∧ OpensNoName c := by
  rw [Nat.toString_eq_repr, Nat.toList_repr]
  obtain ⟨c, cs, hcs⟩ := List.exists_cons_of_ne_nil (Nat.toDigits_ne_nil (n := n) (b := 10))
  have hdigit : c.isDigit = true :=
    Nat.isDigit_of_mem_toDigits (by omega) (by omega) (hcs ▸ List.mem_cons_self)
  refine ⟨c, by rw [hcs]; rfl, not_isHead_of_isDigit hdigit, ?_⟩
  rintro rfl
  exact absurd hdigit (by decide)

theorem head?_spell_int (n : Int) :
    ∃ c, (Token.spell (Expr.int n).render).toList.head? = some c ∧ OpensNoName c := by
  have hrender : (Expr.int n).render = signed (n < 0) (.numeral n.natAbs) := rfl
  rw [hrender]
  by_cases hn : n < 0
  · simpa [signed, hn] using head?_spell_sym (t := "-") (by decide) [.numeral n.natAbs]
  · obtain ⟨c, hc, hopens⟩ := exists_head?_toString n.natAbs
    refine ⟨c, ?_, hopens⟩
    simpa [signed, hn] using head?_spell (t := .numeral n.natAbs) hc []

/-- A constant is one of the three words, or its text opens no name. -/
theorem cases_of_isConstant {rs : List Request} {e : Expr} (hv : v.isConstant = true)
    (he : Expr.ofValue v = ⟨rs, .ok e⟩) :
    v = .null ∧ e = .null ∨ (∃ b, v = .bool b ∧ e = .bool b) ∨
      ∃ c, (Token.spell e.render).toList.head? = some c ∧ OpensNoName c := by
  cases v with
  | atom a =>
    cases a with
    | null =>
      cases he
      exact .inl ⟨rfl, rfl⟩
    | bool b =>
      cases he
      exact .inr (.inl ⟨b, rfl, rfl⟩)
    | int n =>
      obtain ⟨-, rfl, -⟩ := Draft.integer_bind_eq_ok.1 he
      exact .inr (.inr (head?_spell_int n))
    | text t =>
      cases he
      have hquote : (Token.string t).spelling.toList.head? = some '\'' := by
        simp [Token.spelling, Literal.quote]
      exact .inr (.inr ⟨_, head?_spell hquote [], by decide, by decide⟩)
    | _ => cases hv
  | list xs =>
    simp only [Expr.ofValue, Draft.bind_eq_ok, Draft.pure_eq_ok] at he
    obtain ⟨_, es, _, _, ⟨rfl, -⟩, -⟩ := he
    exact .inr (.inr (head?_spell_sym (t := "[") (by decide) _))
  | tuple xs =>
    simp only [Expr.ofValue, Draft.bind_eq_ok, Draft.pure_eq_ok] at he
    obtain ⟨_, es, _, _, ⟨rfl, -⟩, -⟩ := he
    exact .inr (.inr (head?_spell_sym (t := "[") (by decide) _))
  | map es =>
    simp only [Expr.ofValue, Draft.bind_eq_ok, Draft.pure_eq_ok] at he
    obtain ⟨_, entries, _, _, ⟨rfl, -⟩, -⟩ := he
    exact .inr (.inr (head?_spell_sym (t := "\x7b") (by decide) _))
  | _ => cases hv

/-- The constants that are words, with their words. -/
def IsWordOf (s : String) (v : Value) : Prop :=
  s = "null" ∧ v = .null ∨ s = "true" ∧ v = .bool true ∨ s = "false" ∧ v = .bool false

theorem step_write_literal_of_isWordOf (r : Registry) (h : IsWordOf s v) :
    step r (.write .expr (.literal v)) = (.ok (.text s), r) := by
  rcases h with ⟨rfl, rfl⟩ | ⟨rfl, rfl⟩ | ⟨rfl, rfl⟩ <;> rfl

theorem isWord_of_isWordOf (h : IsWordOf s v) : isWord s.toList = true := by
  rcases h with ⟨rfl, -⟩ | ⟨rfl, -⟩ | ⟨rfl, -⟩ <;> decide

theorem isWordOf_of_write (hv : v.isConstant = true)
    (h : (step r (.write .expr (.literal v))).1 = .ok (.text (quote s))) : IsWordOf s v := by
  obtain ⟨rs, e, he, htext⟩ := exists_expr_of_write h
  simp only [Expr.ofValue, Draft.bind_eq_ok, Draft.pure_eq_ok] at he
  obtain ⟨_, e', _, hread, ⟨rfl, -⟩, -⟩ := he
  change quote s = Token.spell e'.render at htext
  rcases cases_of_isConstant hv hread with ⟨rfl, rfl⟩ | ⟨b, rfl, rfl⟩ | ⟨c, hc, hopens⟩
  · exact .inl ⟨(quote_eq_word_iff (by decide)).1 htext, rfl⟩
  · cases b with
    | false => exact .inr (.inr ⟨(quote_eq_word_iff (by decide)).1 htext, rfl⟩)
    | true => exact .inr (.inl ⟨(quote_eq_word_iff (by decide)).1 htext, rfl⟩)
  · exact absurd htext (quote_ne_of_head? hc hopens)

/-- A variable is always written, and its text is that of a constant just where its name is one of
the words `null`, `true` and `false` and the constant is the one of that word. -/
theorem var_eq_literal_iff (r : Registry) (hname : name.text? = some s) (hs : s ≠ "")
    (hstar : s ≠ "*") :
    step r (.write .expr (.var name)) = (.ok (.text (quote s)), r) ∧
      ∀ v : Value, v.isConstant = true →
        ((step r (.write .expr (.var name))).1 = (step r (.write .expr (.literal v))).1 ↔
          IsWordOf s v) := by
  have hvar := step_write_var r hname hs hstar
  refine ⟨hvar, fun v hv => ?_⟩
  rw [hvar]
  constructor
  · intro h
    exact isWordOf_of_write hv h.symm
  · intro h
    have hquote : quote s = s := (quote_eq_word_iff (isWord_of_isWordOf h)).2 rfl
    rw [step_write_literal_of_isWordOf r h, hquote]

theorem var_eq_literal_iff_capitals :
    (Value.text "Null").text? = some "Null" ∧ "Null" ≠ "" ∧ "Null" ≠ "*" ∧
      (Value.list [.null, .map [(.text "Null", .bool true)]]).isConstant = true ∧
      (step .empty (.write .expr (.var (.text "Null")))).1 = .ok (.text "Null") ∧
      (step .empty (.write .expr (.var (.text "Null")))).1 ≠
        (step .empty (.write .expr (.literal .null))).1 ∧
      (step .empty (.write .expr (.var (.text "Null")))).1 ≠
        (step .empty (.write .expr
          (.literal (.list [.null, .map [(.text "Null", .bool true)]])))).1 := by
  have hname : (Value.text "Null").text? = some "Null" := rfl
  obtain ⟨hvar, hiff⟩ := var_eq_literal_iff .empty hname (by decide) (by decide)
  refine ⟨rfl, by decide, by decide, rfl, ?_, ?_, ?_⟩
  · rw [hvar]
    rfl
  · rw [Ne, hiff _ rfl]
    simp [IsWordOf]
  · rw [Ne, hiff _ rfl]
    simp [IsWordOf]

/-- A variable of the name `null` is written as the constant `null` is. -/
theorem step_write_var_null :
    "null" ≠ "" ∧ "null" ≠ "*" ∧ Value.null.isConstant = true ∧
      step .empty (.write .expr (.var (.text "null"))) = (.ok (.text "null"), .empty) ∧
      step .empty (.write .expr (.literal .null)) = (.ok (.text "null"), .empty) := by
  have hname : (Value.text "null").text? = some "null" := rfl
  refine ⟨by decide, by decide, rfl, ?_, rfl⟩
  rw [step_write_var .empty hname (by decide) (by decide)]
  rfl

end Session

end CypherCompose
