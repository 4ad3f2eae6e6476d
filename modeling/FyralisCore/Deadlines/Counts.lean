import FyralisCore.Deadlines.Resolver
import FyralisCore.Think.Beliefs

/-! The counters of a prediction: what the application of a resolution makes of
them. -/
namespace FyralisCore.Deadlines

open Relational Transaction Think.Applier Option

def CountsWithin (confirmed contested : Nat → Nat → Prop) (db after : DomainDb) : Prop :=
  ∀ modelId belief, after.beliefs.get modelId = some belief →
    ∃ before, db.beliefs.get modelId = some before ∧
      (belief.confirmedCount = before.confirmedCount ∨ confirmed modelId belief.confirmedCount) ∧
      (belief.contestedCount = before.contestedCount ∨ contested modelId belief.contestedCount)

section

variable {confirmed contested : Nat → Nat → Prop} {ctx : ApplyContext} {db after : DomainDb}
  {modelId : Nat} {changes : ModelChanges}

instance : IsPreorder DomainDb (CountsWithin confirmed contested) where
  refl _ _ belief hbelief := ⟨belief, hbelief, .inl rfl, .inl rfl⟩
  trans _ _ _ hfirst hsecond modelId belief hbelief := by
    obtain ⟨middle, hmiddle, hconfirmed, hcontested⟩ := hsecond modelId belief hbelief
    obtain ⟨before, hbefore, hearlier, hbeforehand⟩ := hfirst modelId middle hmiddle
    refine ⟨before, hbefore, ?_, ?_⟩
    · rcases hconfirmed with hsame | hgiven
      · rw [hsame]
        exact hearlier
      · exact .inr hgiven
    · rcases hcontested with hsame | hgiven
      · rw [hsame]
        exact hbeforehand
      · exact .inr hgiven

theorem CountsWithin.of_same (hs : after.beliefs = db.beliefs) :
    CountsWithin confirmed contested db after := by
  intro modelId belief hb
  exact ⟨belief, hs ▸ hb, .inl rfl, .inl rfl⟩

theorem counts_execute (hw : ∀ db, CountsWithin confirmed contested db (w db)) :
    Tx.Within change (CountsWithin confirmed contested) (execute w) :=
  .query fun db _ _ ha => by
    cases ha
    exact hw db

theorem counts_emitStateChange :
    Tx.Within change (CountsWithin confirmed contested) (emitStateChange ctx a) :=
  .onPart fun _ _ => .of_same rfl

theorem counts_emitAuditEvent :
    Tx.Within change (CountsWithin confirmed contested) (emitAuditEvent event) :=
  .bind Tx.Reads.read.within fun _ => .bind Tx.Reads.newId.within fun _ =>
    counts_execute fun _ => .of_same rfl

theorem counts_updateConfidence :
    Tx.Within change (CountsWithin confirmed contested) (updateConfidence ctx modelId confidence) := by
  refine .bind Tx.Reads.read.within fun found => .bind (counts_execute fun db => ?_) fun _ =>
    .forSome fun _ _ => .bind counts_emitStateChange fun _ => counts_emitAuditEvent
  intro id belief hbe
  rw [Table.get_update] at hbe
  split at hbe
  · obtain ⟨before, hb, rfl⟩ := map_eq_some_iff.mp hbe
    exact ⟨before, hb, .inl rfl, .inl rfl⟩
  · exact ⟨belief, hbe, .inl rfl, .inl rfl⟩

theorem counts_apply (hcn : ∀ count ∈ changes.confirmedCount, confirmed modelId count)
    (hct : ∀ count ∈ changes.contestedCount, contested modelId count) :
    CountsWithin confirmed contested db (changes.apply modelId db) := by
  intro id belief hbe
  simp only [ModelChanges.apply, Table.get_update] at hbe
  split at hbe
  · next hi =>
    subst hi
    obtain ⟨before, hb, rfl⟩ := map_eq_some_iff.mp hbe
    refine ⟨before, hb, ?_, ?_⟩
    · cases hc : changes.confirmedCount with
      | none => exact .inl rfl
      | some count => exact .inr (hcn count hc)
    · cases hc : changes.contestedCount with
      | none => exact .inl rfl
      | some count => exact .inr (hct count hc)
  · exact ⟨belief, hbe, .inl rfl, .inl rfl⟩

theorem counts_applyColumnUpdates (hc : ∀ count ∈ changes.confirmedCount, confirmed modelId count)
    (hct : ∀ count ∈ changes.contestedCount, contested modelId count) :
    Tx.Within change (CountsWithin confirmed contested) (applyColumnUpdates ctx modelId changes) := by
  refine .bind Tx.Reads.read.within fun _ => ?_
  refine .bind (counts_execute fun db => counts_apply hc hct) fun _ => ?_
  refine .bind (.forSome fun supports _ => .onPart fun _ _ => .of_same rfl) fun _ => ?_
  refine .bind counts_emitStateChange fun _ => ?_
  refine .bind counts_emitAuditEvent fun _ => ?_
  exact .forSome fun _ _ => counts_execute fun _ => .of_same rfl

variable (ctx db modelId changes) in
theorem mergeSupporting_counts :
    (changes.mergeSupporting ctx db modelId).confirmedCount = changes.confirmedCount ∧
      (changes.mergeSupporting ctx db modelId).contestedCount = changes.contestedCount := by
  unfold ModelChanges.mergeSupporting
  dsimp only
  split <;> exact ⟨rfl, rfl⟩

theorem dropInconsistentResolution_counts {merged : ModelChanges} :
    ((merged.dropInconsistentResolution changes).confirmedCount = some count →
      merged.confirmedCount = some count) ∧
    ((merged.dropInconsistentResolution changes).contestedCount = some count →
      merged.contestedCount = some count) := by
  unfold ModelChanges.dropInconsistentResolution
  split
  · exact ⟨id, id⟩
  · split
    · exact ⟨nofun, nofun⟩
    · exact ⟨id, id⟩

theorem counts_applyClaimUpdate (hcn : ∀ count ∈ changes.confirmedCount, confirmed modelId count)
    (hct : ∀ count ∈ changes.contestedCount, contested modelId count) :
    Tx.Within change (CountsWithin confirmed contested) (applyClaimUpdate ctx modelId changes) := by
  intro db n
  obtain ⟨hs, hsm⟩ := mergeSupporting_counts ctx db modelId changes
  refine Tx.Within.bind (.forSome fun confidence _ => counts_updateConfidence)
    (fun _ => .when (counts_applyColumnUpdates ?_ ?_)) db n
  · intro count hc
    exact hcn count (hs ▸ dropInconsistentResolution_counts.1 hc)
  · intro count hc
    exact hct count (hsm ▸ dropInconsistentResolution_counts.2 hc)

end

/-- The diff counts nothing but its outcome, on the model of its trigger, from what
the belief has now. -/
structure Fits (db : DomainDb) (modelId : Nat) (resolution : Resolution) : Prop where
  confirmed : ∀ op ∈ resolution.claimOps, ∀ count ∈ op.changes.confirmedCount,
    resolution.outcome = some true ∧ op.modelId = modelId ∧
      ∀ belief, db.beliefs.get modelId = some belief → count = belief.confirmedCount + 1
  contested : ∀ op ∈ resolution.claimOps, ∀ count ∈ op.changes.contestedCount,
    resolution.outcome = some false ∧ op.modelId = modelId ∧
      ∀ belief, db.beliefs.get modelId = some belief → count = belief.contestedCount + 1

def counted (db : DomainDb) (modelId : Nat) : Nat :=
  ((db.beliefs.get modelId).map fun belief => belief.confirmedCount + belief.contestedCount).getD 0

theorem mem_nudges (hm : op ∈ nudges db contributors outcome) :
    op.changes.confirmedCount = none ∧ op.changes.contestedCount = none := by
  obtain ⟨contributor, -, ho⟩ := List.mem_filterMap.mp hm
  obtain ⟨found, -, rfl⟩ := map_eq_some_iff.mp ho
  exact ⟨rfl, rfl⟩

theorem fits_handleT2Prediction (db : DomainDb) (due : Table Nat DueRow) (modelId : Nat)
    (provisional : ProvisionalOutcome) (residual : Bool) (now : Nat) :
    Fits db modelId (handleT2Prediction db due modelId provisional residual now) := by
  unfold handleT2Prediction
  split
  · next row belief columns hmd _ =>
    obtain ⟨found, -, hf⟩ := bind_eq_some_iff.mp hmd
    obtain ⟨stored, hs, hp⟩ := map_eq_some_iff.mp hf
    cases hp
    split
    · next outcome _ =>
      constructor
      · intro op hop count hc
        rcases List.mem_cons.mp hop with rfl | hn
        · cases outcome with
          | true =>
            cases hc
            refine ⟨rfl, rfl, fun other ho => ?_⟩
            rw [hs] at ho
            cases ho
            rfl
          | false => cases hc
        · rw [(mem_nudges hn).1] at hc
          cases hc
      · intro op hop count hc
        rcases List.mem_cons.mp hop with rfl | hn
        · cases outcome with
          | true => cases hc
          | false =>
            cases hc
            refine ⟨rfl, rfl, fun other ho => ?_⟩
            rw [hs] at ho
            cases ho
            rfl
        · rw [(mem_nudges hn).2] at hc
          cases hc
    · exact ⟨fun _ hm => absurd hm List.not_mem_nil, fun _ hm => absurd hm List.not_mem_nil⟩
  · exact ⟨fun _ hm => absurd hm List.not_mem_nil, fun _ hm => absurd hm List.not_mem_nil⟩

section

variable {ctx : ApplyContext} {db : DomainDb} {modelId n : Nat} {resolution : Resolution}

theorem Fits.counts (hf : Fits db modelId resolution) : CountsWithin
      (fun id count => resolution.outcome = some true ∧ id = modelId ∧
        ∀ belief, db.beliefs.get modelId = some belief → count = belief.confirmedCount + 1)
      (fun id count => resolution.outcome = some false ∧ id = modelId ∧
        ∀ belief, db.beliefs.get modelId = some belief → count = belief.contestedCount + 1)
      db ((applyResolution ctx resolution).exec change db n).state :=
  Tx.Within.forEach_mem (fun op ho => counts_applyClaimUpdate (hf.confirmed op ho)
    (hf.contested op ho)) db n

theorem Fits.counts_other (hf : Fits db modelId resolution) (ho : other ≠ modelId)
    (hbe : ((applyResolution ctx resolution).exec change db n).state.beliefs.get other =
      some belief) : ∃ before, db.beliefs.get other = some before ∧
      belief.confirmedCount = before.confirmedCount ∧
        belief.contestedCount = before.contestedCount := by
  obtain ⟨before, hb, hc, hct⟩ := hf.counts other belief hbe
  exact ⟨before, hb, hc.resolve_right fun hg => ho hg.2.1, hct.resolve_right fun hg => ho hg.2.1⟩

variable (ctx n) in
theorem Fits.counted_le (hf : Fits db modelId resolution) :
    counted ((applyResolution ctx resolution).exec change db n).state modelId ≤
      counted db modelId + resolution.outcome.toList.length := by
  unfold counted
  cases ha : ((applyResolution ctx resolution).exec change db n).state.beliefs.get modelId with
  | none => simp
  | some belief =>
    obtain ⟨before, hb, hc, hct⟩ := hf.counts modelId belief ha
    rw [hb] at hc hct ⊢
    cases ho : resolution.outcome with
    | none => simp_all
    | some outcome =>
      cases outcome <;>
      · simp only [ho, Option.some.injEq, reduceCtorEq, false_and, or_false, true_and,
          forall_eq'] at hc hct
        simp only [map_some, getD_some, toList_some, List.length_singleton]
        omega

variable (ctx n) in
theorem Fits.counted_other_le (hf : Fits db modelId resolution) (ho : other ≠ modelId) :
    counted ((applyResolution ctx resolution).exec change db n).state other ≤
      counted db other := by
  unfold counted
  cases ha : ((applyResolution ctx resolution).exec change db n).state.beliefs.get other with
  | none => simp
  | some belief =>
    obtain ⟨before, hb, hc, hct⟩ := hf.counts_other ho ha
    simp [hb, hc, hct]

end

end FyralisCore.Deadlines
