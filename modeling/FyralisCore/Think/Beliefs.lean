import FyralisCore.Think.LateRefusals

/-! The confidence of active models: which operations set it, and to what. -/
namespace FyralisCore.Models

open Relational Transaction ModelDb

def NoneActivated (db after : ModelDb) : Prop :=
  ∀ modelId row, after.models.get modelId = some row → row.status = .active →
    ∃ before, db.models.get modelId = some before ∧ before.status = .active

instance : IsPreorder ModelDb NoneActivated where
  refl _ _ row hget hactive := ⟨row, hget, hactive⟩
  trans _ _ _ hfirst hsecond modelId row hget hactive :=
    let ⟨middle, hmiddle, hstill⟩ := hsecond modelId row hget hactive
    hfirst modelId middle hmiddle hstill

theorem NoneActivated.of_models {db : ModelDb} (hm : after.models = db.models) :
    NoneActivated db after := by
  intro modelId row hg ha
  exact ⟨row, hm ▸ hg, ha⟩

theorem noneActivated_of_keeps {α : Type} {body : ModelTx α} (hk : Tx.Keeps apply models body) :
    Tx.Within apply NoneActivated body :=
  fun db n => .of_models (hk db n)

section

variable {view : ModelDb → Table Nat ModelRow}

theorem keeps_execute {α : Type} {answer : ModelDb → Except ModelError ((ModelDb → ModelDb) × α)}
    (ha : ∀ db w v, answer db = .ok (w, v) → view (w db) = view db) :
    Tx.Keeps apply view (execute answer) := by
  refine .query fun db ws v hr => ?_
  cases hs : answer db with
  | error error => simp [hs, Except.map] at hr
  | ok said =>
    rw [hs] at hr
    cases hr
    exact ha db said.1 said.2 hs

end

variable {now : Nat}

theorem keeps_insertOne {key : EdgeKey} {excluded : Nat → EdgeRow} :
    Tx.Keeps apply models (insertOne now key excluded) :=
  .bind Tx.Reads.newId.keeps fun _ => keeps_execute fun _ _ _ ha => by
    cases ha
    rfl

theorem keeps_link {a : EdgeLink} : Tx.Keeps apply models (link now a) := by
  refine .bind reads_linkChecks.keeps fun (spec, _, _) => .bind keeps_insertOne fun _ => ?_
  split
  · exact Tx.Reads.done.keeps
  · exact .bind keeps_insertOne fun _ => Tx.Reads.done.keeps

theorem keeps_unlink {target : Nat} {kind : EdgeKind} :
    Tx.Keeps apply models (unlink source target kind tenantId) :=
  .bind reads_ask.keeps fun _ => keeps_execute fun _ _ _ ha => by
    cases ha
    rfl

theorem keeps_syncKind {kind : RegistryKind} {a : RelationArgs}
    {existing : ModelTx (List (EdgeKey × EdgeRow))} {other : EdgeKey → Nat} {pair : Nat → Nat × Nat}
    {desired : List Nat} (hex : Tx.Keeps apply models existing) :
    Tx.Keeps apply models (syncKind now kind a existing other pair desired) :=
  .bind hex fun _ =>
    .bind (.forEach fun _ => .bind keeps_link fun _ => Tx.Reads.done.keeps) fun _ =>
      .forEach fun _ => .bind keeps_unlink fun _ => Tx.Reads.done.keeps

theorem keeps_setModelRelations {a : RelationArgs} (ha : a.updateArrays = false) :
    Tx.Keeps apply models (setModelRelations now a) := by
  unfold setModelRelations
  rw [ha]
  refine .bind (.forSome fun _ => keeps_syncKind Tx.Reads.read.keeps) fun _ => ?_
  refine .bind (.forSome fun _ => keeps_syncKind Tx.Reads.read.keeps) fun _ => ?_
  refine .bind (.forSome fun _ => keeps_syncKind Tx.Reads.read.keeps) fun _ => ?_
  refine .bind (.forSome fun _ => .bind keeps_link fun _ => Tx.Reads.done.keeps) fun _ => ?_
  exact Tx.Reads.done.keeps

theorem keeps_enqueueReeval {dependentId : Nat} {causeKind : CauseKind} : Tx.Keeps apply models
      (enqueueReeval now tenantId dependentId causeModelId causeKind) := by
  refine .bind Tx.Reads.newId.keeps fun _ => keeps_execute fun db w v ha => ?_
  split at ha
  · cases ha
    rfl
  · split at ha
    · cases ha
    · cases ha
      rfl

theorem within_archivedRow {modelId : Nat} {reason : ModelArchiveReason} :
    Tx.Within apply NoneActivated (change fun db =>
        { db with models := db.models.update modelId (ModelRow.archived now reason) }) := by
  refine .query fun db ws v ha id row hg hac => ?_
  cases ha
  change (db.models.update modelId (ModelRow.archived now reason)).get id = some row at hg
  rw [Table.get_update] at hg
  split at hg
  · obtain ⟨before, -, rfl⟩ := Option.map_eq_some_iff.mp hg
    cases hac
  · exact ⟨row, hg, hac⟩

theorem within_archive {modelId : Nat} {reason : ModelArchiveReason} :
    Tx.Within apply NoneActivated (archive now modelId reason) := by
  have hc : ∀ tenantId callback other, Tx.Within apply NoneActivated
      (cascade now modelId tenantId reason callback other) := fun _ _ _ =>
    noneActivated_of_keeps (.forSome fun _ => keeps_enqueueReeval)
  refine .bind Tx.Reads.read.within fun _ => .bind Tx.Reads.orRaise.within fun row => ?_
  refine .bind within_archivedRow fun _ => ?_
  refine .bind Tx.Reads.read.within fun _ => .bind (.forEach fun _ => hc _ _ _) fun _ => ?_
  refine .bind Tx.Reads.read.within fun _ => .bind (.forEach fun _ => hc _ _ _) fun _ => ?_
  refine .bind Tx.Reads.read.within fun _ => ?_
  refine .bind (.forEach fun _ => noneActivated_of_keeps keeps_enqueueReeval) fun _ => ?_
  exact .bind (noneActivated_of_keeps (keeps_execute fun _ _ _ ha => by cases ha; rfl))
    fun _ => Tx.Reads.done.within

end FyralisCore.Models

namespace FyralisCore.Think.Applier

open Relational Transaction

def DomainDb.activeConfidence (db : DomainDb) (modelId : Nat) : Option Rat :=
  ((db.model modelId).filter fun found => found.1.status = .active).map fun found =>
    found.2.confidence

variable {modelId : Nat} {confidence : Rat}

theorem activeConfidence_eq_some {db : DomainDb} : db.activeConfidence modelId = some confidence ↔
      ∃ row belief, db.models.models.get modelId = some row ∧ db.beliefs.get modelId = some belief ∧
        row.status = .active ∧ belief.confidence = confidence := by
  unfold DomainDb.activeConfidence DomainDb.model
  cases db.models.models.get modelId with
  | none => simp
  | some row =>
    cases db.beliefs.get modelId with
    | none => simp
    | some belief => simp [and_comm]

/-- The active models after have the confidence they had, or one that `given` allows. -/
def BeliefsWithin (given : Nat → Rat → Prop) (db after : DomainDb) : Prop :=
  ∀ modelId confidence, after.activeConfidence modelId = some confidence →
    ∃ before, db.activeConfidence modelId = some before ∧
      (confidence = before ∨ given modelId confidence)

variable {given : Nat → Rat → Prop} {ctx : ApplyContext} {db after : DomainDb}

instance : IsPreorder DomainDb (BeliefsWithin given) where
  refl _ _ confidence hactive := ⟨confidence, hactive, Or.inl rfl⟩
  trans _ _ _ hfirst hsecond modelId confidence hactive := by
    obtain ⟨middle, hmiddle, hlast⟩ := hsecond modelId confidence hactive
    obtain ⟨before, hbefore, heither⟩ := hfirst modelId middle hmiddle
    refine ⟨before, hbefore, ?_⟩
    rcases hlast with rfl | hgiven
    · exact heither
    · exact Or.inr hgiven

theorem BeliefsWithin.of_eq (hs : after.activeConfidence = db.activeConfidence) :
    BeliefsWithin given db after := by
  intro modelId confidence ha
  exact ⟨confidence, hs ▸ ha, .inl rfl⟩

theorem beliefsWithin_execute {w : DomainDb → DomainDb} (hw : ∀ db, BeliefsWithin given db (w db)) :
    Tx.Within change (BeliefsWithin given) (execute w) :=
  .query fun db _ _ ha => by
    cases ha
    exact hw db

theorem beliefsWithin_onActs {α : Type} {body : Acts.ActTx α} :
    Tx.Within change (BeliefsWithin given) (onActs body) :=
  .onPart fun _ _ => .of_eq rfl

theorem beliefsWithin_onModels {α : Type} {body : Models.ModelTx α}
    (hbd : Tx.Within Models.ModelDb.apply Models.NoneActivated body) :
    Tx.Within change (BeliefsWithin given) (onModels body) := by
  refine .onPart fun db n modelId confidence ha => ?_
  obtain ⟨row, belief, hr, hbe, hs, hc⟩ := activeConfidence_eq_some.mp ha
  obtain ⟨before, hb, hw⟩ := hbd (modelsView db) n modelId row hr hs
  exact ⟨confidence, activeConfidence_eq_some.mpr ⟨before, belief, hb, hbe, hw, hc⟩, .inl rfl⟩

theorem beliefsWithin_emitStateChange {a : Observations.StateChangeArgs} :
    Tx.Within change (BeliefsWithin given) (emitStateChange ctx a) :=
  beliefsWithin_onActs

theorem beliefsWithin_emitAuditEvent {event : AuditEvent} :
    Tx.Within change (BeliefsWithin given) (emitAuditEvent event) :=
  .bind Tx.Reads.read.within fun _ => .bind Tx.Reads.newId.within fun _ =>
    beliefsWithin_execute fun _ => .of_eq rfl

theorem beliefsWithin_updateConfidence (hg : given modelId (clipConfidence confidence)) :
    Tx.Within change (BeliefsWithin given) (updateConfidence ctx modelId confidence) := by
  refine .bind Tx.Reads.read.within fun found => .bind (beliefsWithin_execute ?_) fun _ =>
    .forSome fun _ _ => .bind beliefsWithin_emitStateChange fun _ => beliefsWithin_emitAuditEvent
  intro db id active ha
  obtain ⟨row, belief, hr, hbe, hs, rfl⟩ := activeConfidence_eq_some.mp ha
  rw [Table.get_update] at hbe
  split at hbe
  · next he =>
    obtain ⟨before, hb, rfl⟩ := Option.map_eq_some_iff.mp hbe
    subst he
    exact ⟨before.confidence, activeConfidence_eq_some.mpr ⟨row, before, hr, hb, hs, rfl⟩, .inr hg⟩
  · exact ⟨belief.confidence,
      activeConfidence_eq_some.mpr ⟨row, belief, hr, hbe, hs, rfl⟩, .inl rfl⟩

theorem activeConfidence_apply (changes : ModelChanges) (modelId : Nat) (db : DomainDb) :
    (changes.apply modelId db).activeConfidence = db.activeConfidence := by
  funext id
  unfold DomainDb.activeConfidence DomainDb.model ModelChanges.apply
  simp only [Table.get_update]
  by_cases he : id = modelId
  · subst he
    cases db.models.models.get id <;> cases db.beliefs.get id <;> simp [Option.filter_some]
  · simp [he]

variable {changes : ModelChanges}

theorem beliefsWithin_applyColumnUpdates :
    Tx.Within change (BeliefsWithin given) (applyColumnUpdates ctx modelId changes) := by
  have hr : ∀ supports, Tx.Within change (BeliefsWithin given)
      (onModels (Models.setModelRelations ctx.clock.transactionNow
        (updateRelations ctx modelId supports))) := fun supports =>
    beliefsWithin_onModels (Models.noneActivated_of_keeps (Models.keeps_setModelRelations rfl))
  refine .bind Tx.Reads.read.within fun _ => ?_
  refine .bind (beliefsWithin_execute fun db => .of_eq (activeConfidence_apply _ _ db)) fun _ => ?_
  refine .bind (.forSome fun supports _ => hr supports) fun _ => ?_
  refine .bind beliefsWithin_emitStateChange fun _ => ?_
  refine .bind beliefsWithin_emitAuditEvent fun _ => ?_
  exact .forSome fun _ _ => beliefsWithin_execute fun _ => .of_eq rfl

theorem mergeSupporting_confidence :
    (changes.mergeSupporting ctx db modelId).confidence = changes.confidence := by
  unfold ModelChanges.mergeSupporting
  dsimp only
  split <;> rfl

theorem dropInconsistentResolution_confidence {merged : ModelChanges}
    (hd : (merged.dropInconsistentResolution changes).confidence = some confidence) :
    merged.confidence = some confidence := by
  unfold ModelChanges.dropInconsistentResolution at hd
  split at hd
  · exact hd
  · split at hd
    · cases hd
    · exact hd

theorem beliefsWithin_applyClaimUpdate
    (hg : ∀ confidence ∈ changes.confidence, given modelId (clipConfidence confidence)) :
    Tx.Within change (BeliefsWithin given) (applyClaimUpdate ctx modelId changes) := by
  intro db n
  refine Tx.Within.bind (.forSome fun confidence hm => ?_)
    (fun _ => .when beliefsWithin_applyColumnUpdates) db n
  refine beliefsWithin_updateConfidence (hg confidence ?_)
  exact mergeSupporting_confidence.symm.trans (dropInconsistentResolution_confidence hm)

theorem beliefsWithin_applyClaimArchive {reason : Models.ModelArchiveReason} :
    Tx.Within change (BeliefsWithin given) (applyClaimArchive ctx modelId reason) :=
  .bind Tx.Reads.read.within fun _ =>
    .bind (beliefsWithin_onModels Models.within_archive) fun _ => .forSome fun _ _ =>
      .bind beliefsWithin_emitStateChange fun _ => beliefsWithin_emitAuditEvent

def MemoryLifecycleOp.confidenceGiven (ctx : ApplyContext) (op : MemoryLifecycleOp) (db : DomainDb) :
    Option Rat :=
  match op.action with
  | .archive | .supersede => none
  | _ =>
    ((db.model op.modelId).filter fun found => found.1.tenantId = ctx.tenantId).bind fun found =>
      (op.changes ctx found.1 found.2).confidence

theorem beliefsWithin_applyLifecycleOp {op : MemoryLifecycleOp} {n : Nat}
    (hg : ∀ confidence ∈ op.confidenceGiven ctx db, given op.modelId (clipConfidence confidence)) :
    BeliefsWithin given db ((applyLifecycleOp ctx op).exec change db n).state := by
  unfold MemoryLifecycleOp.confidenceGiven at hg
  unfold applyLifecycleOp
  split
  · exact beliefsWithin_applyClaimArchive db n
  · exact beliefsWithin_applyClaimArchive db n
  · next ha hsp =>
    simp only [Tx.bind_eq_bind]
    rw [Tx.exec_read_bind]
    split at hg
    · next hs => exact absurd hs ha
    · next hs => exact absurd hs hsp
    · cases hf : (db.model op.modelId).filter fun found => found.1.tenantId = ctx.tenantId with
      | none => exact refl_of (BeliefsWithin given) db
      | some found =>
        rw [hf, Option.bind_some] at hg
        exact beliefsWithin_applyClaimUpdate hg db n

end FyralisCore.Think.Applier
