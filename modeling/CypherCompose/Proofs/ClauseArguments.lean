import CypherCompose.Proofs.Blame
import CypherCompose.Proofs.ClauseGrammar
import CypherCompose.Proofs.SortKeys

/-!
# Errors of a clause without a body

An error of clauses is either about where clauses stand, or about the arguments of one clause
(`ClauseError.owner?`).  Each part of a clause is read so that its errors are about the clause's
arguments: the error names the clause, or it is an error about a pattern, an expression, a name or a
parameter in it.  Put together part by part, this is so for every clause of a known kind that has no
body (`Draft.Blames.clause`).
-/

namespace CypherCompose

open Error (Admits Covers)

/-- The clause whose arguments an error is about, unless it is about the places of clauses. -/
def ClauseError.owner? : ClauseError → Option Value
  | noAssignments c | badAssignment _ c | noConditions c | noProjection c | noSortKeys c => some c
  | strayMarker _ _ c | badSortDirection _ _ c | badCsvSource _ c | badTerminator _ c => some c
  | mergeCount _ c | noRemovals c | badRemoval _ c | noPatterns c | noItems c => some c
  | negativeCount _ c | badCount _ c | badName _ c | noProperties c | badPropertyName _ c => some c
  | badConstraint _ c | notNullCount c => some c
  | _ => none

/-- Errors that a clause may lead to, its body apart, have the property. -/
structure Error.CoversClause (P : Error → Prop) (c : Value) : Prop extends Covers P c where
  clause : ∀ e : ClauseError, e.owner? = some c → P (.clause e)

theorem Value.isWritable_kind {c : Value} (h : c.isWritable = true) : c.kind.isWritable = true := by
  unfold Value.kind
  split
  · rfl
  · split_ifs
    · rfl
    · exact isWritable_of_mem_parts h (by simp [parts, clauseParts])
  · rfl

namespace Error.CoversClause

variable {P : Error → Prop} {c v : Value}

/-- An error about a clause that shows one of its arguments. -/
theorem raised (h : CoversClause P c) (hv : Admits P v) {e : ClauseError} (howner : e.owner? = some c)
    (hw : c.isWritable = true → v.isWritable = true → e.wording.isWritable = true) :
    P (Error.clause e).raised := by
  refine raised_of (h.clause e howner) ?_
  obtain hc | hP := h.shows
  · exact hv.shows.imp_left (hw hc)
  · exact .inr hP

end Error.CoversClause

open Error (CoversClause)

namespace Draft.Blames

variable {α β : Type} {P : Error → Prop} {c v name : Value}

theorem readAlias (h : CoversClause P c) (hname : Admits P name) :
    Blames P (readAlias c name) :=
  ofOption fun _ => h.raised hname rfl fun hc hw => by
    simp [ClauseError.wording, Value.isWritable_kind hc, hw]

theorem readOptionalAlias (h : CoversClause P c) (hname : Admits P name) :
    Blames P (readOptionalAlias c name) :=
  ite (fun _ => done none) fun _ => map (readAlias h hname) some

theorem readOperand (hv : Covers P v) : Blames P (readOperand v) := by
  refine ite (fun htext => readVar ?_ (.inl htext)) fun _ => (Value.blames hv).expr
  exact hv.of_imp fun hw => (Bool.and_true _).trans hw

theorem readItems_bind {items : Value} {e : ClauseError} {k : List Value → Draft β}
    (he : P (Error.clause e).raised) (hk : Blames P (k items.asList)) :
    Blames P (readItems e items >>= k) := by
  unfold readItems
  split_ifs
  · exact fail he
  · exact hk

theorem readEachWith {read : Value → Draft α} {vs : List Value} (h : ∀ v ∈ vs, Blames P (read v)) :
    Blames P (readEachWith read vs) := by
  induction vs with
  | nil => exact done []
  | cons v vs ih =>
    rw [List.forall_mem_cons] at h
    exact bind h.1 fun a _ => bind (ih h.2) fun as _ => pure _

theorem readEachPattern {vs : List Value} (h : ∀ v ∈ vs, Covers P v) :
    Blames P (readEachPattern vs) := by
  induction vs with
  | nil => exact done []
  | cons v vs ih =>
    rw [List.forall_mem_cons] at h
    exact bind (Value.blames h.1).paths fun ps _ => bind (ih h.2) fun qs _ => pure _

theorem readClausePatterns (h : CoversClause P c) (hv : Covers P v) :
    Blames P (readClausePatterns c v) := by
  refine readItems_bind (h.raised hv.toAdmits rfl fun hc _ => ?_)
    (readEachPattern fun _ hw => hv.of_mem_asList hw)
  simp [ClauseError.wording, Value.isWritable_kind hc]

theorem readMergePattern (h : CoversClause P c) (hv : Covers P v) :
    Blames P (readMergePattern c v) := by
  unfold CypherCompose.readMergePattern
  split
  · rename_i w hw
    exact (Value.blames (hv.of_mem_asList (by rw [hw]; simp))).paths
  · exact fail (h.raised hv.toAdmits rfl fun _ _ => rfl)

theorem readProjection (h : CoversClause P c) (hv : Covers P v) :
    Blames P (readProjection c v) := by
  unfold CypherCompose.readProjection
  split
  · refine bind (readOperand (hv.parts (by simp [Value.parts]))) fun e _ => ?_
    exact bind (readAlias h (hv.parts (by simp [Value.parts])).toAdmits) fun n _ => pure _
  · exact bind (readOperand hv) fun e _ => pure _

theorem readAssign {target value : Value} (htarget : Covers P target) (hvalue : Covers P value) :
    Blames P (readAssign target value) := by
  have hsides : Blames P (do
      let t ← Expr.ofValue target
      let v ← Expr.ofValue value
      Pure.pure (⟨t, v⟩ : Assignment)) :=
    bind (Value.blames htarget).expr fun t _ => bind (Value.blames hvalue).expr fun v _ => pure _
  unfold CypherCompose.readAssign
  split
  · exact hsides
  · exact hsides
  · exact fail (htarget.raised_expr fun hw => by simp [ExprError.wording, hw])

theorem readSetItem (h : CoversClause P c) (hv : Covers P v) : Blames P (readSetItem c v) := by
  unfold CypherCompose.readSetItem
  split
  · exact readAssign (hv.parts (by simp [Value.parts])) (hv.parts (by simp [Value.parts]))
  · exact readAssign (hv.parts (by simp [Value.parts])) (hv.parts (by simp [Value.parts]))
  · refine fail (h.raised hv.toAdmits rfl fun hc hw => ?_)
    simp [ClauseError.wording, Value.isWritable_kind hc, hw]

theorem readAssignments (h : CoversClause P c) (hv : Covers P v) :
    Blames P (readAssignments c v) := by
  refine readItems_bind (h.raised hv.toAdmits rfl fun hc _ => ?_)
    (readEachWith fun _ hw => readSetItem h (hv.of_mem_asList hw))
  simp [ClauseError.wording, Value.isWritable_kind hc]

theorem readCount (h : CoversClause P c) (hv : Covers P v) : Blames P (readCount c v) := by
  unfold CypherCompose.readCount
  split
  · refine ite (fun _ => fail (h.raised hv.toAdmits rfl fun hc hw => ?_)) fun _ => ?_
    · simp [ClauseError.wording, Value.isWritable_kind hc, hw]
    · exact bind (integer hv.toAdmits) fun n _ => pure _
  · exact bind (parameter hv.toAdmits) fun p _ => pure _
  · exact fail (h.raised hv.toAdmits rfl fun _ hw => by simp [ClauseError.wording, hw])

theorem readSource (h : CoversClause P c) (hv : Admits P v) : Blames P (readSource c v) := by
  unfold CypherCompose.readSource
  split
  · exact bind (parameter hv) fun p _ => pure _
  · split
    · exact done _
    · refine fail (h.raised hv rfl fun hc hw => ?_)
      simp [ClauseError.wording, Value.isWritable_kind hc, hw]

theorem readTerminator (h : CoversClause P c) (hv : Admits P v) :
    Blames P (readTerminator c v) := by
  have hbad : P (Error.clause (.badTerminator v c)).raised :=
    h.raised hv rfl fun _ hw => by simp [ClauseError.wording, hw]
  unfold CypherCompose.readTerminator
  refine ite (fun _ => done none) fun _ => ?_
  split
  · exact ite (fun _ => done _) fun _ => fail hbad
  · exact fail hbad

/-- In a well-typed form a name or a label that counts as true is a text, and not an empty one. -/
theorem readRemoval (h : CoversClause P c) (hv : Covers P v) : Blames P (readRemoval c v) := by
  have hbad : P (Error.clause (.badRemoval v c)).raised :=
    h.raised hv.toAdmits rfl fun _ hw => by simp [ClauseError.wording, hw]
  unfold CypherCompose.readRemoval
  split
  · exact bind (readProperty hv.toAdmits) fun e _ => pure _
  · rename_i name label props
    have htruth (w : Value) (hw : (Value.nodeRef name label props).fieldsFit = true →
        w.isOptionalText = true) : Blames P (.ofMisuse w.truth) :=
      ofMisuse (hv.fits.imp_left fun hfits =>
        (Value.truth_of_isOptionalText (hw hfits)).imp fun _ hb => hb.1)
    have hname (w : Value) (hw : (Value.nodeRef name label props).fieldsFit = true →
        w.isOptionalText = true) (htrue : (Draft.ofMisuse w.truth).outcome = .ok true) :
        Blames P (readTrueName w) := by
      refine ofOption fun hnone => ?_
      obtain hfits | hP := hv.fits
      · obtain ⟨b, hb, hgiven⟩ := Value.truth_of_isOptionalText (hw hfits)
        rw [hb] at htrue
        obtain ⟨n, hn⟩ := hgiven (Except.ok.inj htrue)
        rw [hn] at hnone
        cases hnone
      · exact Error.raised_misuse hP _
    have hfirst (hfits : (Value.nodeRef name label props).fieldsFit = true) :
        name.isOptionalText = true :=
      (Bool.and_eq_true_iff.1 (Bool.and_eq_true_iff.1 hfits).1).1
    have hsecond (hfits : (Value.nodeRef name label props).fieldsFit = true) :
        label.isOptionalText = true :=
      (Bool.and_eq_true_iff.1 (Bool.and_eq_true_iff.1 hfits).1).2
    refine bind (htruth name hfirst) fun b hb => ite (fun htrue => ?_) fun _ => fail hbad
    refine bind (htruth label hsecond) fun b' hb' => ite (fun htrue' => ?_) fun _ => fail hbad
    subst htrue htrue'
    exact bind (hname name hfirst hb) fun n _ => bind (hname label hsecond hb') fun l _ => pure _
  · exact fail hbad

theorem readPropertyNames (h : CoversClause P c) (hv : Covers P v) :
    Blames P (readPropertyNames c v) := by
  refine readItems_bind (h.raised hv.toAdmits rfl fun hc _ => ?_) (readEachWith fun w hw => ?_)
  · simp [ClauseError.wording, Value.isWritable_kind hc]
  · refine ofOption fun _ => h.raised (hv.of_mem_asList hw).toAdmits rfl fun hc hw => ?_
    simp [ClauseError.wording, Value.isWritable_kind hc, hw]

theorem covers_key {k : KeyForm} (h : ∀ v ∈ k.items, Covers P v) : Covers P k.expr := by
  cases k with
  | bare e he => exact h e List.mem_cons_self
  | marked e m he hm => exact h e List.mem_cons_self
  | item e m hm => exact (h _ List.mem_cons_self).parts (by simp [KeyForm.expr, Value.parts])

theorem readSortKeys (h : CoversClause P c) (i : Nat) {vs : List Value}
    (hvs : ∀ v ∈ vs, Covers P v) : Blames P (readSortKeys c i vs) := by
  obtain ⟨ks, rest, rfl, hends⟩ := KeyForm.exists_keys vs
  rw [List.forall_mem_append] at hvs
  rw [readSortKeys_keys ks hends.not_isMarker]
  refine bind (all (List.forall_mem_map.2 fun k hk => ?_)) fun keys _ => bind ?_ fun more _ => pure _
  · have hkey : Covers P k.expr :=
      covers_key fun v hv => hvs.1 v (List.mem_flatMap.2 ⟨k, hk, hv⟩)
    exact bind (readOperand hkey) fun e _ => pure _
  · cases hends with
    | nil => exact done []
    | @stray m rest hm hlast =>
      rw [readSortKeys_marker hm]
      refine fail (h.raised (hvs.2 m List.mem_cons_self).toAdmits rfl fun _ hw => ?_)
      simp [ClauseError.wording, hw]
    | @direction e d rest hd =>
      rw [readSortKeys_direction e hd]
      have hitem := hvs.2 _ List.mem_cons_self
      refine fail (h.raised hitem.toAdmits rfl fun _ hw => ?_)
      have hd : d.isWritable = true := Value.isWritable_of_mem_parts hw (by simp [Value.parts])
      simp [ClauseError.wording, hw, hd]

theorem readFlag (h : CoversClause P c) {flag : Value}
    (hflag : c.fieldsFit = true → flag.isBool = true) : Blames P (.ofMisuse flag.truth) :=
  ofMisuse (h.fits.imp_left fun hfits => Value.truth_of_isBool (hflag hfits))

theorem readPlain (i : Nat) {f : ClauseForm Value} (h : CoversClause P (.clause f))
    (hknown : f.isKnown = true) (hnested : (Value.clause f).nested? = none)
    (hset : ∀ assignments, f ≠ .set assignments) : Blames P (readPlain i (.clause f)) := by
  have hparts : ∀ v ∈ Value.clauseParts f, Covers P v := fun v hv => h.parts hv
  cases f with
  | matching optional patterns =>
    have hpatterns := hparts patterns (by simp [Value.clauseParts])
    exact bind (readClausePatterns h hpatterns) fun ps _ => pure _
  | filter conditions =>
    have hitems := hparts conditions (by simp [Value.clauseParts])
    have hnone : P (Error.clause (.noConditions (.clause (.filter conditions)))).raised :=
      h.raised hitems.toAdmits rfl fun _ _ => rfl
    refine readItems_bind hnone (bind (readEachWith fun v hv => ?_) fun es _ => ?_)
    · exact (Value.blames (hitems.of_mem_asList hv)).expr
    · cases es with
      | nil => exact fail hnone
      | cons e es => exact pure _
  | returning items distinct =>
    have hitems := hparts items (by simp [Value.clauseParts])
    refine bind (readEachWith fun v hv => readProjection h (hitems.of_mem_asList hv)) fun ps _ => ?_
    exact bind (readFlag h fun hfits => hfits) fun d _ => pure _
  | passing items distinct =>
    have hitems := hparts items (by simp [Value.clauseParts])
    refine readItems_bind (h.raised hitems.toAdmits rfl fun _ _ => rfl) ?_
    refine bind (readFlag h fun hfits => hfits) fun d _ => ?_
    exact bind (readEachWith fun v hv => readProjection h (hitems.of_mem_asList hv)) fun ps _ => pure _
  | unwind source name =>
    have hsource := hparts source (by simp [Value.clauseParts])
    have hname := hparts name (by simp [Value.clauseParts])
    refine bind (Value.blames hsource).expr fun e _ => ?_
    exact bind (readAlias h hname.toAdmits) fun n _ => pure _
  | create patterns =>
    have hpatterns := hparts patterns (by simp [Value.clauseParts])
    exact bind (readClausePatterns h hpatterns) fun ps _ => pure _
  | merge pattern =>
    exact bind (readMergePattern h (hparts pattern (by simp [Value.clauseParts]))) fun ps _ => pure _
  | onMerge event assignments =>
    have hassignments := hparts assignments (by simp [Value.clauseParts])
    exact bind (readAssignments h hassignments) fun as _ => pure _
  | remove items =>
    have hitems := hparts items (by simp [Value.clauseParts])
    refine readItems_bind (h.raised hitems.toAdmits rfl fun _ _ => rfl) ?_
    exact bind (readEachWith fun v hv => readRemoval h (hitems.of_mem_asList hv)) fun rs _ => pure _
  | delete detach items =>
    have hitems := hparts items (by simp [Value.clauseParts])
    refine readItems_bind (h.raised hitems.toAdmits rfl fun hc _ => ?_) ?_
    · simp [ClauseError.wording, Value.isWritable_kind hc]
    · exact bind (readEachWith fun v hv => readOperand (hitems.of_mem_asList hv)) fun es _ => pure _
  | orderBy items =>
    have hitems := hparts items (by simp [Value.clauseParts])
    refine readItems_bind (h.raised hitems.toAdmits rfl fun _ _ => rfl) ?_
    exact bind (readSortKeys h 0 fun v hv => hitems.of_mem_asList hv) fun keys _ => pure _
  | skip count =>
    exact bind (readCount h (hparts count (by simp [Value.clauseParts]))) fun n _ => pure _
  | limit count =>
    exact bind (readCount h (hparts count (by simp [Value.clauseParts]))) fun n _ => pure _
  | union all => exact pure _
  | loadCsv headers source name terminator =>
    have hsource := hparts source (by simp [Value.clauseParts])
    have hname := hparts name (by simp [Value.clauseParts])
    have hterminator := hparts terminator (by simp [Value.clauseParts])
    refine bind (readSource h hsource.toAdmits) fun s _ => ?_
    refine bind (readAlias h hname.toAdmits) fun n _ => ?_
    exact bind (readTerminator h hterminator.toAdmits) fun t _ => pure _
  | createIndex label properties name ifNotExists =>
    have hlabel := hparts label (by simp [Value.clauseParts])
    have hproperties := hparts properties (by simp [Value.clauseParts])
    have hname := hparts name (by simp [Value.clauseParts])
    refine bind (readAlias h hlabel.toAdmits) fun l _ => ?_
    refine bind (readPropertyNames h hproperties) fun ks _ => ?_
    refine bind (readOptionalAlias h hname.toAdmits) fun n _ => ?_
    exact bind (readFlag h fun hfits => hfits) fun guard _ => pure _
  | dropIndex name =>
    exact bind (readAlias h (hparts name (by simp [Value.clauseParts])).toAdmits) fun n _ => pure _
  | createConstraint label properties constraint name ifNotExists =>
    have hlabel := hparts label (by simp [Value.clauseParts])
    have hproperties := hparts properties (by simp [Value.clauseParts])
    have hconstraint := hparts constraint (by simp [Value.clauseParts])
    have hname := hparts name (by simp [Value.clauseParts])
    refine bind (ofOption fun _ => h.raised hconstraint.toAdmits rfl fun _ hw => ?_) fun kind _ => ?_
    · simp [ClauseError.wording, hw]
    refine bind (readAlias h hlabel.toAdmits) fun l _ => ?_
    refine bind (readPropertyNames h hproperties) fun ks _ => ?_
    refine bind (readOptionalAlias h hname.toAdmits) fun n _ => ?_
    refine bind (readFlag h fun hfits => hfits) fun guard _ => ite (fun _ => fail ?_) fun _ => pure _
    exact h.raised hname.toAdmits rfl fun _ _ => rfl
  | dropConstraint name =>
    exact bind (readAlias h (hparts name (by simp [Value.clauseParts])).toAdmits) fun n _ => pure _
  | set assignments => exact absurd rfl (hset assignments)
  | subquery body => cases hnested
  | forEach source binding body => cases hnested
  | unknown kind => cases hknown

/-- A clause without a body is read from its arguments, if its kind is known. -/
theorem clause (i : Nat) (h : CoversClause P v) (hknown : v.isKnownClause = true)
    (hnested : v.nested? = none) : Blames P (readClause i v) := by
  cases v with
  | assign target value =>
    have htarget := h.parts (w := target) (by simp [Value.parts])
    exact bind (readAssign htarget (h.parts (by simp [Value.parts]))) fun a _ => pure _
  | clause f =>
    cases f with
    | set assignments =>
      have hassignments := h.parts (w := assignments) (by simp [Value.parts, Value.clauseParts])
      exact bind (readAssignments h hassignments) fun as _ => pure _
    | subquery body => cases hnested
    | forEach source binding body => cases hnested
    | _ =>
      refine bind (readPlain i h hknown hnested ?_) fun c _ => pure _
      rintro assignments ⟨⟩
  | _ => cases hknown

end Draft.Blames

end CypherCompose
