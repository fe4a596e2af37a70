import CypherCompose.Proofs.Levels

/-!
# What the atoms of the grammar read

Names, properties, calls, lists, maps and CASE, each read off the front of what follows it.  What
stands between brackets is given as a row of parts: `IsItem` says of one part that it is read as an
item, and `items_of_forall₂` that the row is read as the list of them.
-/

namespace CypherCompose

namespace Grammar

variable {α : Type} {expr : Reader Term}

/-! ## Items -/

/-- The lexemes are one item of a row that ends with a closing sign. -/
structure IsItem (item : Reader α) (close : String) (ts : List Lexeme) (a : α) : Prop where
  starts : ∀ rest, sign? close (ts ++ rest) = none
  reads : ∀ s rest, s = "," ∨ s = close → item (ts ++ .sign s :: rest) = some (a, .sign s :: rest)

/-- Parts with commas between them. -/
def commaLexemes (parts : List (List Lexeme)) : List Lexeme :=
  List.intercalate [.sign ","] parts

/-- How a row of parts starts is up to its first part. -/
theorem commaLexemes_append {P : List Lexeme → Prop} {parts : List (List Lexeme)}
    (h : ∀ ts ∈ parts.head?, ∀ rest, P (ts ++ rest)) {rest : List Lexeme} (hnil : parts = [] → P rest) :
    P (commaLexemes parts ++ rest) := by
  match parts with
  | [] => exact hnil rfl
  | [ts] => simpa [commaLexemes] using h ts rfl rest
  | ts :: us :: parts =>
    rw [commaLexemes, List.intercalate_cons_cons, List.append_assoc, List.append_assoc]
    exact h ts rfl _

theorem itemsFrom_of_forall₂ {item : Reader α} {close : String} (hclose : close ≠ ",")
    {parts : List (List Lexeme)} {as : List α} (h : List.Forall₂ (IsItem item close) parts as)
    (hne : parts ≠ []) (rest : List Lexeme) :
    itemsFrom item close (commaLexemes parts ++ .sign close :: rest) = some (as, rest) := by
  induction h with
  | nil => exact absurd rfl hne
  | @cons ts a parts as hts hparts ih =>
    rw [itemsFrom]
    cases hparts with
    | nil =>
      have hitem := hts.reads close rest (.inr rfl)
      simp [commaLexemes, hitem, sign?, hclose]
    | @cons us b parts as hus hparts =>
      have hitem := hts.reads "," (commaLexemes (us :: parts) ++ .sign close :: rest) (.inl rfl)
      have hrow : commaLexemes (ts :: us :: parts) ++ .sign close :: rest =
          ts ++ .sign "," :: (commaLexemes (us :: parts) ++ .sign close :: rest) := by
        rw [commaLexemes, List.intercalate_cons_cons]
        simp [commaLexemes]
      have hlength : (commaLexemes (us :: parts) ++ .sign close :: rest).length <
          (ts ++ .sign "," :: (commaLexemes (us :: parts) ++ .sign close :: rest)).length := by
        simp only [List.length_append, List.length_cons]
        omega
      rw [hrow, hitem]
      simp only [Option.bind_eq_bind, Option.bind_some, sign?, if_true, hlength, ih (by simp),
        Option.map_some]

theorem items_of_forall₂ {item : Reader α} {close : String} (hclose : close ≠ ",")
    {parts : List (List Lexeme)} {as : List α} (h : List.Forall₂ (IsItem item close) parts as)
    (rest : List Lexeme) :
    items item close (commaLexemes parts ++ .sign close :: rest) = some (as, rest) := by
  cases h with
  | nil => simp [items, commaLexemes, sign?]
  | @cons ts a parts as hts hparts =>
    have hstarts : sign? close (commaLexemes (ts :: parts) ++ .sign close :: rest) = none := by
      refine commaLexemes_append (P := fun us => sign? close us = none) (fun us hus => ?_)
        fun h => by cases h
      obtain rfl : ts = us := Option.some.inj hus
      exact hts.starts
    rw [items, hstarts]
    exact itemsFrom_of_forall₂ hclose (.cons hts hparts) (by simp) rest

/-! ## Names -/

theorem name?_ofName (s : String) (ts : List Lexeme) :
    name? (.ofName s :: ts) = some (s, ts) := by
  unfold Lexeme.ofName
  split_ifs <;> rfl

theorem points_of_atPoint {ts : List Lexeme} (h : atPoint ts = false) : points ts = ([], ts) := by
  match ts with
  | [] => rfl
  | [t] => cases t <;> rfl
  | t :: u :: ts =>
    cases t with
    | sign s =>
      have hs : s ≠ "." := by simpa [atPoint] using h
      simp [points, hs]
    | _ => rfl

theorem points_flatMap (ws : List String) {ts : List Lexeme} (h : atPoint ts = false) :
    points (ws.flatMap (fun w => [Lexeme.sign ".", .word w]) ++ ts) = (ws, ts) := by
  induction ws with
  | nil => exact points_of_atPoint h
  | cons w ws ih => simp [points, name?, ih]

theorem atom_ofName {s : String} {ts : List Lexeme} (h : isReserved s = false) :
    atom expr (.ofName s :: ts) = namedFrom expr s ts := by
  unfold Lexeme.ofName
  split_ifs
  · simp [atom, h]
  · rfl

theorem atom_var {s : String} (h : isReserved s = false) {rest : List Lexeme}
    (hrest : tightness rest < Prec.atom.rank) :
    atom expr (.ofName s :: rest) = some (.var s, rest) := by
  obtain ⟨hpoint, hparen⟩ := atPoint_of_tightness hrest
  rw [atom_ofName h, namedFrom, points_of_atPoint hpoint]
  simp [hparen]

theorem atom_property {o k : String} (h : isReserved o = false) {rest : List Lexeme}
    (hrest : tightness rest < Prec.atom.rank) :
    atom expr (.ofName o :: .sign "." :: .ofName k :: rest) = some (.property o k, rest) := by
  obtain ⟨hpoint, hparen⟩ := atPoint_of_tightness hrest
  have hpoints : points (.sign "." :: .ofName k :: rest) = ([k], rest) := by
    simp [points, name?_ofName, points_of_atPoint hpoint]
  rw [atom_ofName h, namedFrom, hpoints]
  simp [hparen]

/-! ## Calls -/

theorem atom_dotted {w : String} {ws : List String} (h : isReserved (".".intercalate (w :: ws)) = false)
    (ts : List Lexeme) :
    atom expr (Lexeme.dotted w ws ++ .sign "(" :: ts) =
      callFrom expr (".".intercalate (w :: ws)) ts := by
  have hnamed : namedFrom expr w (ws.flatMap (fun w => [Lexeme.sign ".", .word w]) ++ .sign "(" :: ts) =
      callFrom expr (".".intercalate (w :: ws)) ts := by
    rw [namedFrom, points_flatMap ws rfl]
    simp [sign?]
  rw [← hnamed, Lexeme.dotted, List.cons_append]
  -- a lone word is not reserved, and any other has a point behind it
  cases ws with
  | nil =>
    have hw : isReserved w = false := by simpa using h
    simp [atom, hw]
  | cons v ws => simp [atom, atPoint]

theorem callFrom_args (name : String) (distinct : Bool) {args : List (List Lexeme)} {ts : List Term}
    (h : List.Forall₂ (IsItem (argument expr) ")") args ts)
    (hd : ∀ us ∈ args.head?, ∀ rest,
      keyword? "distinct" (us ++ rest) = none ∧ atPoint (us ++ rest) = false)
    (rest : List Lexeme) :
    callFrom expr name ((if distinct then [Lexeme.word "DISTINCT"] else []) ++
      (commaLexemes args ++ .sign ")" :: rest)) = some (.call name distinct ts, rest) := by
  have hitems := items_of_forall₂ (by decide) h rest
  have hstarts : keyword? "distinct" (commaLexemes args ++ .sign ")" :: rest) = none ∧
      atPoint (commaLexemes args ++ .sign ")" :: rest) = false :=
    commaLexemes_append (P := fun us => keyword? "distinct" us = none ∧ atPoint us = false) hd
      fun _ => ⟨rfl, rfl⟩
  obtain ⟨hnone, hpoint⟩ := hstarts
  cases distinct with
  | true =>
    have hfolded : folded "DISTINCT" = "distinct" := by decide
    have hsome : keyword? "distinct" (.word "DISTINCT" :: (commaLexemes args ++ .sign ")" :: rest)) =
        some (commaLexemes args ++ .sign ")" :: rest) := by
      simp [keyword?, word?, hfolded, hpoint, Option.filter]
    simp [callFrom, hsome, hitems]
  | false => simp [callFrom, hnone, hitems]

/-! ## CASE -/

/-- The lexemes of one branch. -/
def branchLexemes (b : List Lexeme × List Lexeme) : List Lexeme :=
  .word "WHEN" :: (b.1 ++ .word "THEN" :: b.2)

/-- The lexemes of what follows the branches. -/
def otherwiseLexemes : Option (List Lexeme) → List Lexeme
  | none => []
  | some ts => .word "ELSE" :: ts

/-- The lexemes are read as the term in front of a word that ends an expression. -/
def IsClause (expr : Reader Term) (ts : List Lexeme) (t : Term) : Prop :=
  ∀ w rest, w ∈ ["WHEN", "THEN", "ELSE", "END"] →
    expr (ts ++ .word w :: rest) = some (t, .word w :: rest)

theorem branchesFrom_of_forall₂ {parts : List (List Lexeme × List Lexeme)}
    {branches : List (Term × Term)}
    (h : List.Forall₂ (fun p b => IsClause expr p.1 b.1 ∧ IsClause expr p.2 b.2) parts branches)
    {w : String} (hw : w ∈ ["ELSE", "END"]) (rest : List Lexeme) :
    branchesFrom expr (parts.flatMap branchLexemes ++ .word w :: rest) =
      some (branches, .word w :: rest) := by
  have hend : word? "when" (.word w :: rest) = none := by
    have : ∀ w ∈ ["ELSE", "END"], folded w ≠ "when" := by decide
    simp [word?, this w hw]
  have hwords : folded "WHEN" = "when" ∧ folded "THEN" = "then" := by decide
  induction h with
  | nil => rw [branchesFrom]; simp [hend]
  | @cons p b parts branches hp hparts ih =>
    set behind := parts.flatMap branchLexemes ++ .word w :: rest with hbehind
    -- a branch ends where the next one starts, or where the branches end
    have hvalue : expr (p.2 ++ behind) = some (b.2, behind) := by
      rw [hbehind]
      cases parts with
      | nil => exact hp.2 w rest (List.mem_cons_of_mem _ (List.mem_cons_of_mem _ hw))
      | cons p' parts => exact hp.2 "WHEN" _ (by decide)
    have hcondition : expr (p.1 ++ .word "THEN" :: (p.2 ++ behind)) =
        some (b.1, .word "THEN" :: (p.2 ++ behind)) := hp.1 "THEN" _ (by decide)
    have hrow : (p :: parts).flatMap branchLexemes ++ .word w :: rest =
        .word "WHEN" :: (p.1 ++ .word "THEN" :: (p.2 ++ behind)) := by
      simp [branchLexemes, hbehind]
    have hlength : behind.length <
        (Lexeme.word "WHEN" :: (p.1 ++ .word "THEN" :: (p.2 ++ behind))).length := by
      simp only [List.length_append, List.length_cons]
      omega
    rw [hrow, branchesFrom]
    simp only [word?, hwords, if_true, hcondition, Option.bind_eq_bind, Option.bind_some, hvalue,
      hlength, ih, Option.map_some]

theorem caseFrom_branches {parts : List (List Lexeme × List Lexeme)}
    {branches : List (Term × Term)} {default : Option (List Lexeme)} {otherwise : Option Term}
    (hne : branches ≠ [])
    (h : List.Forall₂ (fun p b => IsClause expr p.1 b.1 ∧ IsClause expr p.2 b.2) parts branches)
    (hd : Option.Rel (IsClause expr) default otherwise) (rest : List Lexeme) :
    caseFrom expr (parts.flatMap branchLexemes ++ (otherwiseLexemes default ++ .word "END" :: rest)) =
      some (.case branches otherwise, rest) := by
  have hwords : folded "ELSE" = "else" ∧ folded "END" = "end" := by decide
  have hend : ("end" = "else") = False := by decide
  cases hd with
  | none =>
    have hbranches := branchesFrom_of_forall₂ h (w := "END") (by decide) rest
    simp [caseFrom, otherwiseLexemes, hbranches, Grammar.otherwise, word?, hwords, hend, hne]
  | @some ts t ht =>
    have hbranches := branchesFrom_of_forall₂ h (w := "ELSE") (by decide)
      (ts ++ .word "END" :: rest)
    have hdefault := ht "END" rest (by decide)
    simp [caseFrom, otherwiseLexemes, hbranches, Grammar.otherwise, word?, hwords, hdefault, hne]

end Grammar

end CypherCompose
