import FyralisCore.Think.MemoryOps

/-! The lifecycle operations of a diff: a decision over an existing model, compiled
into an update or an archive (`_compile_memory_lifecycle_update`,
`_apply_claim_update`, `_apply_claim_archive`). -/
namespace FyralisCore.Think.Applier

open Relational Transaction

/-! ### Supporting evidence (`evidence_support.py`) -/

def roundHalfEven (numerator denominator : Nat) : Nat :=
  let quotient := numerator / denominator
  let twice := 2 * (numerator % denominator)
  if twice < denominator ∨ (twice = denominator ∧ quotient % 2 = 0) then quotient
  else quotient + 1

def stratifiedSample (values : List Nat) (slots : Nat) : List Nat :=
  if slots = 0 ∨ values = [] then []
  else if values.length ≤ slots then values
  else if slots = 1 then (values[values.length / 2]?).toList
  else
    let indexes := (List.range slots).map fun position =>
      roundHalfEven (position * (values.length - 1)) (slots - 1)
    indexes.eraseDups.filterMap (values[·]?)

/-- `compact_supporting_event_ids`: early anchors, a sample of the middle and the
recent events, `maxIds` in all. -/
def compactSupportingEventIds (maxIds : Nat) (groups : List (List Nat)) : List Nat :=
  let limit := max 1 maxIds
  let ordered := mergeEventIds groups
  if ordered.length ≤ limit then ordered
  else
    let anchorLimit := min (max 1 (limit / 6)) limit
    let recentLimit := min (max 1 (limit / 2)) (limit - anchorLimit)
    let anchors := ordered.take anchorLimit
    let later := ordered.drop anchorLimit
    -- The loop that collects the recent ones stops after the first at the earliest.
    let recent := later.drop (later.length - max 1 recentLimit)
    let middlePool := later.take (later.length - max 1 recentLimit)
    let middle := stratifiedSample middlePool (limit - anchors.length - recent.length)
    (anchors ++ middle ++ recent).take limit

/-! ### Audit events (`audit.py`) -/

def contains (snapshot wanted : List (String × ColumnValue)) : Bool :=
  wanted.all fun entry => snapshot.lookup entry.1 == some entry.2

def findReAssertableEvent (db : DomainDb) (modelId : Nat)
    (newState : List (String × ColumnValue)) : Option Nat :=
  let events := db.auditEvents.rows.filter fun entry =>
    entry.2.modelId = modelId ∧ contains entry.2.newState newState
  ((events.insertionSort fun first second =>
    first.2.occurredAt < second.2.occurredAt ∨
      (first.2.occurredAt = second.2.occurredAt ∧ first.1 ≤ second.1)).head?).map Prod.fst

def emitAuditEvent (event : AuditEvent) : DomainTx Unit := do
  let reAsserts ← Tx.read fun db => findReAssertableEvent db event.modelId event.newState
  let eventId ← Tx.newId
  execute fun db =>
    { db with
      auditEvents := db.auditEvents.insertNew eventId { event with reAssertsEventId := reAsserts } }

/-- `changes` of an update, as far as a lifecycle operation compiles to one. -/
structure ModelChanges where
  supportingEventIds : Option (List Nat) := none
  supportingModelIds : Option (List Nat) := none
  confidence : Option Rat := none
  confirmedCount : Option Nat := none
  lastConfirmedAt : Option Nat := none
  contestedCount : Option Nat := none
  resolvedAt : Option Nat := none
  resolutionOutcome : Option Bool := none
  deriving DecidableEq

/-- The changed columns of the UPDATE, without the confidence, by name. -/
def ModelChanges.columns (changes : ModelChanges) : List (String × ColumnValue) :=
  [("confirmed_count", changes.confirmedCount.map fun count => .number count),
    ("contested_count", changes.contestedCount.map fun count => .number count),
    ("last_confirmed_at", changes.lastConfirmedAt.map .time),
    ("resolution_outcome", changes.resolutionOutcome.map .flag),
    ("resolved_at", changes.resolvedAt.map .time),
    ("supporting_event_ids", changes.supportingEventIds.map .ids),
    ("supporting_model_ids", changes.supportingModelIds.map .ids)].filterMap
      fun entry => entry.2.map fun value => (entry.1, value)

def storedColumn (row : Models.ModelRow) (belief : BeliefRow) (column : String) : ColumnValue :=
  match column with
  | "confirmed_count" => .number belief.confirmedCount
  | "contested_count" => .number belief.contestedCount
  | "last_confirmed_at" => belief.lastConfirmedAt.elim .null .time
  | "resolution_outcome" => belief.resolutionOutcome.elim .null .flag
  | "resolved_at" => belief.resolvedAt.elim .null .time
  | "supporting_event_ids" => .ids belief.supportingEventIds
  | "supporting_model_ids" => .ids row.supportingModelIds
  | _ => .null

/-- A row of `models` as the two tables that hold its columns have it. -/
def DomainDb.model (db : DomainDb) (modelId : Nat) : Option (Models.ModelRow × BeliefRow) :=
  (db.models.models.get modelId).bind fun row =>
    (db.beliefs.get modelId).map fun belief => (row, belief)

def clipConfidence (value : Rat) : Rat :=
  if value < 1 / 20 then 1 / 20 else if 19 / 20 < value then 19 / 20 else value

section

variable (ctx : ApplyContext)

def updateConfidence (modelId : Nat) (confidence : Rat) : DomainTx Unit := do
  let found ← Tx.read fun db => db.model modelId
  let clipped := clipConfidence confidence
  execute fun db =>
    { db with
      beliefs := db.beliefs.update modelId fun belief => { belief with confidence := clipped } }
  Tx.forSome found fun (row, belief) => do
    emitStateChange ctx
      { kind := "bulk_confidence_update"
        entityId := modelId
        tenantId := row.tenantId
        causeEventId := ctx.causeEventId
        metadata := some [("new_confidence", .text (ctx.decimal clipped))]
        entityKind := some "model" }
    emitAuditEvent
      { modelId
        tenantId := row.tenantId
        occurredAt := ctx.clock.transactionNow
        causeType := .confidenceUpdate
        newState := [("confidence", .number clipped)]
        previousState := some [("confidence", .number belief.confidence)]
        causeId := ctx.causeEventId
        changedFields := ["confidence"] }

def ModelChanges.mergeSupporting (changes : ModelChanges) (db : DomainDb) (modelId : Nat) :
    ModelChanges :=
  let given := mergeEventIds
    [changes.supportingEventIds.getD [], ctx.causeEventId.toList, ctx.triggerEvidenceIds]
  if given = [] then changes
  else
    let stored := (db.model modelId).filter fun found =>
      found.1.tenantId = ctx.tenantId ∧ found.1.status = .active
    let existing := mergeEventIds [(stored.map fun found => found.2.supportingEventIds).getD []]
    let merged := compactSupportingEventIds ctx.supportingEventIdsMax [existing, given]
    { changes with supportingEventIds := if merged = existing then none else some merged }

def ModelChanges.withoutResolution (changes : ModelChanges) : ModelChanges :=
  { changes with resolvedAt := none, resolutionOutcome := none }

/-- `_drop_inconsistent_resolution_update`; `given` are the changes before the
supporting events were merged. -/
def ModelChanges.dropInconsistentResolution (changes given : ModelChanges) : ModelChanges :=
  if changes.resolvedAt.isSome = changes.resolutionOutcome.isSome then changes
  else if given.withoutResolution = {} then {}
  else changes.withoutResolution

def ModelChanges.apply (changes : ModelChanges) (modelId : Nat) (db : DomainDb) : DomainDb :=
  { db with
    models :=
      { db.models with
        models := db.models.models.update modelId fun row =>
          { row with
            supportingModelIds := changes.supportingModelIds.getD row.supportingModelIds } }
    beliefs := db.beliefs.update modelId fun belief =>
      { belief with
        supportingEventIds := changes.supportingEventIds.getD belief.supportingEventIds
        confirmedCount := changes.confirmedCount.getD belief.confirmedCount
        contestedCount := changes.contestedCount.getD belief.contestedCount
        lastConfirmedAt := changes.lastConfirmedAt.or belief.lastConfirmedAt
        resolvedAt := changes.resolvedAt.or belief.resolvedAt
        resolutionOutcome := changes.resolutionOutcome.or belief.resolutionOutcome } }

def updateRelations (modelId : Nat) (supports : List Nat) : Models.RelationArgs where
  modelId := modelId
  tenantId := ctx.tenantId
  detectedBy := "llm_explicit"
  supports := some supports
  createdByEventId := ctx.causeEventId
  updateArrays := false

def syncPredictionResolution (modelId : Nat) (outcome : Bool) : DomainTx Unit :=
  execute fun db =>
    { db with
      predictions := db.predictions.updateWhere
        (fun _ row => row.tenantId = ctx.tenantId ∧ row.modelId = modelId ∧ row.status = .active)
        fun _ row =>
          { row with
            status := if outcome then .confirmed else .falsified
            resolvedAt := some ctx.clock.transactionNow
            resolvedByObservationId := ctx.causeEventId.or row.resolvedByObservationId
            updatedAt := ctx.clock.transactionNow } }

/-- What `_apply_model_column_updates` does after the UPDATE and the edges. -/
def recordColumnUpdates (modelId : Nat) (changes : ModelChanges)
    (found : Option (Models.ModelRow × BeliefRow)) : DomainTx Unit := do
  let names := changes.columns.map Prod.fst
  emitStateChange ctx
    { kind := "model_updated"
      entityId := modelId
      tenantId := ctx.tenantId
      causeEventId := ctx.causeEventId
      metadata := some [("columns", .text (Models.pyReprList names))]
      entityKind := some "model" }
  emitAuditEvent
    { modelId
      tenantId := ctx.tenantId
      occurredAt := ctx.clock.transactionNow
      causeType := .fieldUpdate
      newState := changes.columns
      previousState := found.map fun (row, belief) =>
        names.map fun name => (name, storedColumn row belief name)
      causeId := ctx.causeEventId
      changedFields := names }
  Tx.forSome changes.resolutionOutcome (syncPredictionResolution ctx modelId)

def applyColumnUpdates (modelId : Nat) (changes : ModelChanges) : DomainTx Unit := do
  let found ← Tx.read fun db => db.model modelId
  execute (changes.apply modelId)
  Tx.forSome changes.supportingModelIds fun supports =>
    onModels
      (Models.setModelRelations ctx.clock.transactionNow (updateRelations ctx modelId supports))
  recordColumnUpdates ctx modelId changes found

def applyClaimUpdate (modelId : Nat) (changes : ModelChanges) : DomainTx Unit := do
  let merged ← Tx.read fun db => changes.mergeSupporting ctx db modelId
  let prepared := merged.dropInconsistentResolution changes
  Tx.forSome prepared.confidence (updateConfidence ctx modelId)
  Tx.when (prepared.columns ≠ []) (applyColumnUpdates ctx modelId prepared)

end

inductive MemoryLifecycleAction where
  | confirm
  | falsify
  | revise
  | unchanged
  | archive
  | supersede
  deriving DecidableEq, Repr

def MemoryLifecycleAction.text : MemoryLifecycleAction → String
  | .confirm => "confirm"
  | .falsify => "falsify"
  | .revise => "revise"
  | .unchanged => "unchanged"
  | .archive => "archive"
  | .supersede => "supersede"

structure MemoryLifecycleOp where
  modelId : Nat
  action : MemoryLifecycleAction
  evidenceEventIds : List Nat := []
  evidenceModelIds : List Nat := []
  confidenceDelta : Option Rat := none
  confidence : Option Rat := none
  resolutionOutcome : Option Bool := none
  reason : Option Models.ModelArchiveReason := none

def boundedConfidence (value : Rat) : Rat := min (19 / 20) (max (1 / 20) value)

namespace MemoryLifecycleOp

variable (op : MemoryLifecycleOp)

def newConfidence (ctx : ApplyContext) (current : Rat) : Option Rat :=
  match op.confidence, op.confidenceDelta with
  | some confidence, _ => some (boundedConfidence confidence)
  | none, some delta => some (boundedConfidence (ctx.add current delta))
  | none, none =>
    match op.action with
    | .confirm => some (boundedConfidence (ctx.add current (1 / 20)))
    | .falsify => some (boundedConfidence (ctx.add current (-1 / 4)))
    | _ => none

def outcome : Option Bool :=
  match op.action with
  | .confirm => some (op.resolutionOutcome.getD true)
  | .falsify => some (op.resolutionOutcome.getD false)
  | _ => op.resolutionOutcome

def baseChanges (row : Models.ModelRow) (confidence : Option Rat) : ModelChanges where
  supportingEventIds := some op.evidenceEventIds
  supportingModelIds := some (mergeEventIds [row.supportingModelIds, op.evidenceModelIds])
  confidence := confidence

def countChanges (belief : BeliefRow) (current : Rat) (now : Nat) (changes : ModelChanges) :
    ModelChanges :=
  let confirmed : ModelChanges :=
    { changes with
      confirmedCount := some (belief.confirmedCount + 1)
      lastConfirmedAt := some now }
  let contested : ModelChanges :=
    { changes with contestedCount := some (belief.contestedCount + 1) }
  match op.action with
  | .confirm | .unchanged => confirmed
  | .revise =>
    match changes.confidence with
    | some confidence =>
      if confidence < current then contested
      else if current < confidence then confirmed
      else changes
    | none => changes
  | .falsify => { contested with resolvedAt := some now }
  | .archive | .supersede => changes

def resolve (belief : BeliefRow) (now : Nat) (changes : ModelChanges) : ModelChanges :=
  let isPrediction := belief.propositionKind = some "prediction" ∨
    belief.claimRole = some "prediction"
  match op.outcome with
  | some outcome =>
    if isPrediction ∨ op.action = .falsify then
      { changes with
        resolutionOutcome := some outcome
        resolvedAt := changes.resolvedAt.or (some now) }
    else changes
  | none => changes

def changes (ctx : ApplyContext) (row : Models.ModelRow) (belief : BeliefRow) : ModelChanges :=
  -- `row["confidence"] or 0.5`
  let current := if belief.confidence = 0 then 1 / 2 else belief.confidence
  op.resolve belief ctx.clock.processNow (op.countChanges belief current ctx.clock.processNow
    (op.baseChanges row (op.newConfidence ctx current)))

end MemoryLifecycleOp

def statusText : Models.ModelStatus → String
  | .active => "active"
  | .archived => "archived"
  | .superseded => "superseded"
  | .contestedFalse => "contested_false"

def archiveReasonText : Models.ModelArchiveReason → String
  | .decay => "decay"
  | .falsifierTriggered => "falsifier_triggered"
  | .contestedIncorrect => "contested_incorrect"
  | .contestedReadingIncorrect => "contested_reading_incorrect"
  | .superseded => "superseded"
  | .manual => "manual"
  | .resolvedConfirmed => "resolved_confirmed"
  | .resolvedViolated => "resolved_violated"
  | .severeDrift => "severe_drift"
  | .deprecated => "deprecated"
  | .actedUpon => "acted_upon"
  | .dismissedByUser => "dismissed_by_user"
  | .situationResolved => "situation_resolved"
  | .hypothesisDismissedByUser => "hypothesis_dismissed_by_user"
  | .hypothesisUserApproved => "hypothesis_user_approved"
  | .hypothesisUserCorrected => "hypothesis_user_corrected"
  | .hypothesisUserOther => "hypothesis_user_other"

def causeKindText : Models.CauseKind → String
  | .supportingDeprecated => "supporting_deprecated"
  | .supportingSuperseded => "supporting_superseded"
  | .falsifierTriggeredUpstream => "falsifier_triggered_upstream"
  | .contestedCluster => "contested_cluster"
  | .supportingArchived => "supporting_archived"
  | .contributorArchived => "contributor_archived"
  | .instanceArchived => "instance_archived"
  | .patternArchived => "pattern_archived"
  | .counterevidenceArchived => "counterevidence_archived"

def archiveColumns (status : Models.ModelStatus) (reason : Option Models.ModelArchiveReason) :
    List (String × ColumnValue) :=
  [("archive_reason", reason.elim .null fun reason => .text (archiveReasonText reason)),
    ("status", .text (statusText status))]

/-- The metadata of an archive's observation, on the state before it; the archived
model is active no longer when its dependents are counted. -/
def archiveMetadata (db : Models.ModelDb) (modelId tenantId : Nat)
    (reason : Models.ModelArchiveReason) :
    List (String × Acts.Scalar) :=
  let touching := db.edges.rows.filter fun entry =>
    Models.touchesModel modelId tenantId entry.1 entry.2
  let cascades := (touching.filter fun entry =>
      entry.1.source = modelId ∧ (Models.onSourceArchive entry.1.kind).isSome).length +
    (touching.filter fun entry =>
      entry.1.target = modelId ∧ (Models.onTargetArchive entry.1.kind).isSome).length
  let dependents := (Models.dependentsOf db modelId).filter (· ≠ modelId)
  [("archive_reason", .text (archiveReasonText reason)),
    ("dependent_count", .number dependents.length),
    ("reeval_cause_kind", .text (causeKindText (Models.legacySupportsCauseKind reason))),
    ("edge_cascades", .number cascades), ("edges_marked_inert", .number touching.length)]

section

variable (ctx : ApplyContext) (modelId : Nat) (reason : Models.ModelArchiveReason)

def recordArchive (row : Models.ModelRow) (metadata : List (String × Acts.Scalar)) : DomainTx Unit
    := do
  emitStateChange ctx
    { kind := "archive_model"
      entityId := modelId
      tenantId := row.tenantId
      causeEventId := ctx.causeEventId
      metadata := some metadata
      entityKind := some "model" }
  let previous := archiveColumns row.status row.archiveReason
  let new := archiveColumns .archived (some reason)
  emitAuditEvent
    { modelId
      tenantId := row.tenantId
      occurredAt := ctx.clock.transactionNow
      causeType := .archive
      newState := new
      previousState := some previous
      causeId := ctx.causeEventId
      changedFields :=
        (new.filter fun entry => previous.lookup entry.1 ≠ some entry.2).map Prod.fst }

def applyClaimArchive : DomainTx Unit := do
  let found ← Tx.read fun db => (db.models.models.get modelId).map fun row =>
    (row, archiveMetadata db.models modelId row.tenantId reason)
  onModels (Models.archive ctx.clock.transactionNow modelId reason)
  Tx.forSome found fun (row, metadata) => recordArchive ctx modelId reason row metadata

end

def applyLifecycleOp (ctx : ApplyContext) (op : MemoryLifecycleOp) : DomainTx Unit :=
  match op.action with
  | .archive => applyClaimArchive ctx op.modelId (op.reason.getD .decay)
  | .supersede => applyClaimArchive ctx op.modelId (op.reason.getD .superseded)
  | _ => do
    let found ← Tx.read fun db => (db.model op.modelId).filter fun found =>
      found.1.tenantId = ctx.tenantId
    let (row, belief) ← Tx.orRaise found
      (.validationError "memory_lifecycle_op target model not found")
    applyClaimUpdate ctx op.modelId (op.changes ctx row belief)

end FyralisCore.Think.Applier
