import FyralisCore.Think.LifecycleOps

/-! The loops of `apply_diff` over the operations of a diff: an operation that the
domain refuses at apply time is dropped, and the drop is counted
(`feedback_stats.py`). -/
namespace FyralisCore.Think.Applier

open Relational Transaction
open Acts (Json strip)

inductive FeedbackOutcome where
  | attempt
  | success
  | dropped
  | failure
  deriving DecidableEq, Repr

structure FeedbackKey where
  tenantId : Nat
  surface : String
  opType : String
  opKind : String
  reason : String
  deriving DecidableEq

structure FeedbackRow where
  attemptCount : Nat := 0
  successCount : Nat := 0
  droppedCount : Nat := 0
  failureCount : Nat := 0
  lastPayload : List (String × String)
  firstSeenAt : Nat
  lastSeenAt : Nat

def FeedbackRow.add (row : FeedbackRow) (count : Nat) : FeedbackOutcome → FeedbackRow
  | .attempt => { row with attemptCount := row.attemptCount + count }
  | .success => { row with successCount := row.successCount + count }
  | .dropped => { row with droppedCount := row.droppedCount + count }
  | .failure => { row with failureCount := row.failureCount + count }

structure ThinkDb where
  domain : DomainDb := {}
  feedbackStats : Table FeedbackKey FeedbackRow := ∅

abbrev ThinkTx (α : Type) : Type := Tx ThinkDb (ThinkDb → ThinkDb) Empty DomainError α

def domainPart : Part ThinkDb (change : DomainDb → (DomainDb → DomainDb) → DomainDb) where
  view := ThinkDb.domain
  put db domain := { db with domain }
  put_view _ := rfl
  put_put _ _ _ := rfl
  view_put _ _ := rfl

def onDomain {α : Type} (body : DomainTx α) : ThinkTx α := body.onPart domainPart id

def clipped (limit : Nat) (text : String) : String :=
  String.ofList (text.toList.take limit)

def FeedbackRow.record (existing : Option FeedbackRow) (now : Nat) (outcome : FeedbackOutcome)
    (payload : List (String × String)) : FeedbackRow :=
  match existing with
  | none => FeedbackRow.add { lastPayload := payload, firstSeenAt := now, lastSeenAt := now } 1 outcome
  | some row => { row.add 1 outcome with lastPayload := payload, lastSeenAt := now }

def ThinkDb.recordDrop (db : ThinkDb) (ctx : ApplyContext) (opType opKind reason message : String) :
    ThinkDb :=
  let key : FeedbackKey :=
    { tenantId := ctx.tenantId
      surface := "think_apply"
      opType := clipped 80 (strip opType)
      opKind := clipped 80 (strip opKind)
      reason := clipped 160 (strip reason) }
  { db with
    feedbackStats := db.feedbackStats.put key
      (FeedbackRow.record (db.feedbackStats.get key) ctx.clock.transactionNow .dropped
        [("message", clipped 500 message)]) }

section

variable (ctx : ApplyContext)

def recordApplyDrop (opType opKind reason message : String) : ThinkTx Unit :=
  .query (fun _ => none) fun _ =>
    .ok ([fun db => db.recordDrop ctx opType opKind reason message], ())

def classifyApplyActDropReason (error : DomainError) (message : String) : String :=
  let msg := message.toLower
  if error.errorClass = .invariantViolation then "illegal_transition"
  else if occursIn "not found" msg then "missing_entity_reference"
  else if occursIn "requires" msg || occursIn "entity" msg then "invalid_shape"
  else "unclassified"

def classifyApplyResourceDropReason (message : String) : String :=
  let msg := message.toLower
  if occursIn "invalid transaction_type" msg || occursIn "invalid kind" msg then
    "invalid_transaction_type"
  else if occursIn "not found" msg then "missing_entity_reference"
  else if occursIn "requires" msg || occursIn "delta" msg then "invalid_shape"
  else "unclassified"

inductive OpOutcome where
  | applied
  | skipped (reason : String)
  | dropped (reason message : String)
  deriving DecidableEq

/-- What the loops of the different kinds of operations differ in. -/
structure DropPolicy where
  opType : String
  /-- The classes of the `except` clause. -/
  handled : List ErrorClass
  classify : DomainError → String → String

def memoryLifecyclePolicy : DropPolicy where
  opType := "memory_lifecycle"
  handled := [.validationError]
  classify _ _ := "apply_validation_error"

def relationClaimPolicy : DropPolicy where
  opType := "relation_claim"
  handled := [.edgeRegistryError, .validationError]
  classify _ message := classifyApplyEdgeDropReason message

def edgePolicy : DropPolicy where
  opType := "edge"
  handled := [.edgeRegistryError, .validationError]
  classify _ message := classifyApplyEdgeDropReason message

def actPolicy : DropPolicy where
  opType := "act"
  handled := [.invariantViolation, .validationError]
  classify := classifyApplyActDropReason

def resourcePolicy : DropPolicy where
  opType := "resource"
  handled := [.validationError]
  classify _ message := classifyApplyResourceDropReason message

def dropOp (opType opKind reason message : String) : ThinkTx OpOutcome :=
  (recordApplyDrop ctx opType opKind reason message).bind fun _ => .done (.dropped reason message)

/-- `try: ... except ...: record and continue` -/
def applyOrDrop (policy : DropPolicy) (opKind : String) (body : DomainTx Unit) :
    ThinkTx OpOutcome :=
  (onDomain body).attempt.bind fun
    | .ok () => .done .applied
    | .error error =>
      let message := error.message ctx.decimal
      if error.errorClass ∈ policy.handled then
        dropOp ctx policy.opType opKind (policy.classify error message) message
      else .raise error

abbrev PendingIds : Type := Table Nat Nat

def PendingIds.resolve (pending : PendingIds) (modelId : Nat) : Nat :=
  (pending.get modelId).getD modelId

def EdgeOp.resolvePending (pending : PendingIds) (op : EdgeOp) : EdgeOp :=
  let source := pending.resolve op.sourceModelId
  let target := pending.resolve op.targetModelId
  let sourceWasPending := (pending.get op.sourceModelId).isSome
  let targetWasPending := (pending.get op.targetModelId).isSome
  if op.edgeKind = .registry .supersededBy ∧ sourceWasPending ∧ ¬ targetWasPending then
    { op with
      sourceModelId := target
      targetModelId := source
      metadata := Models.mergeMetadata
        [("canonicalized_direction", .string "existing_model_superseded_by_same_diff_insert")]
        op.metadata }
  else { op with sourceModelId := source, targetModelId := target }

def RelationClaimOp.resolvePending (pending : PendingIds) (op : RelationClaimOp) :
    RelationClaimOp :=
  let isPending := fun modelId? : Option Nat =>
    modelId?.any fun modelId => (pending.get modelId).isSome
  let resolved :=
    { op with
      sourceModelId := op.sourceModelId.map pending.resolve
      targetModelId := op.targetModelId.map pending.resolve }
  if (isPending op.sourceModelId || isPending op.targetModelId) && resolved.endpoints.isSome then
    { resolved with
      endpointBindingStatus := .bound
      bindingConfidence := max op.bindingConfidence (4 / 5) }
  else resolved

def applyEdgeStep (pending : PendingIds) (given : EdgeOp) : ThinkTx OpOutcome :=
  let op := given.resolvePending pending
  if op.sourceModelId = op.targetModelId then
    .done (.skipped "resolved_to_same_model_after_reconciliation")
  else applyOrDrop ctx edgePolicy op.op.text (applyEdgeOp ctx op)

def applyRelationClaimStep (pending : PendingIds) (given : RelationClaimOp) : ThinkTx OpOutcome :=
  let op := given.resolvePending pending
  if op.sourceModelId.isSome ∧ op.sourceModelId = op.targetModelId then
    .done (.skipped "resolved_to_same_model_after_reconciliation")
  else applyOrDrop ctx relationClaimPolicy "upsert" (applyRelationClaimOp ctx op)

def applyLifecycleStep (op : MemoryLifecycleOp) : ThinkTx OpOutcome :=
  applyOrDrop ctx memoryLifecyclePolicy op.action.text (applyLifecycleOp ctx op)

def modelIdExists (modelId : Nat) (db : ThinkDb) : Bool :=
  (db.domain.models.models.get modelId).any fun row => row.tenantId = ctx.tenantId

def ActOp.resolvePending (pending : PendingIds) (op : ActOp) : ActOp :=
  { op with confidenceBasis := op.confidenceBasis.map pending.resolve }

def applyActStep (pending : PendingIds) (given : ActOp) : ThinkTx OpOutcome :=
  let op := given.resolvePending pending
  Tx.bind (.read fun db => op.confidenceBasis.all fun basis => modelIdExists ctx basis db)
    fun basisExists =>
      if basisExists then applyOrDrop ctx actPolicy op.entity.op (applyActOp ctx op)
      else
        dropOp ctx "act" op.entity.op "missing_confidence_basis"
          ("act_op " ++ op.entity.op ++ ": confidence_basis model not found")

def applyResourceStep (op : ResourceOp) : ThinkTx OpOutcome :=
  applyOrDrop ctx resourcePolicy op.op (applyResourceOp ctx op)

/-- An operation of a diff, or a part of `apply_diff` between the loops. -/
inductive DiffOp where
  | lifecycle (op : MemoryLifecycleOp)
  | relationClaim (op : RelationClaimOp)
  | edge (op : EdgeOp)
  | act (op : ActOp)
  | resource (op : ResourceOp)
  | other (body : DomainTx Unit)

def DiffOp.run (pending : PendingIds) : DiffOp → ThinkTx OpOutcome
  | .lifecycle op => applyLifecycleStep ctx op
  | .relationClaim op => applyRelationClaimStep ctx pending op
  | .edge op => applyEdgeStep ctx pending op
  | .act op => applyActStep ctx pending op
  | .resource op => applyResourceStep ctx op
  | .other body => (onDomain body).bind fun _ => .done .applied

def applyOps (pending : PendingIds) (ops : List DiffOp) : ThinkTx (List OpOutcome) :=
  Tx.mapEach ops (DiffOp.run ctx pending)

structure ValidatedDiff where
  memoryLifecycleOps : List MemoryLifecycleOp := []
  relationClaimOps : List RelationClaimOp := []
  edgeOps : List EdgeOp := []
  actOps : List ActOp := []
  resourceOps : List ResourceOp := []

/-- The parts of `apply_diff` besides the five loops, on the tables of the domain: the
claim operations, which bind the placeholders, the relation frames, the ontology gaps
and what follows the resource operations. -/
structure OtherPhases where
  claimOps : DomainTx PendingIds
  relationFrameOps : PendingIds → DomainTx Unit
  ontologyGapOps : PendingIds → DomainTx Unit
  conclusion : DomainTx Unit

def ValidatedDiff.ops (diff : ValidatedDiff) (phases : OtherPhases) (pending : PendingIds) :
    List DiffOp :=
  diff.memoryLifecycleOps.map .lifecycle ++ diff.relationClaimOps.map .relationClaim ++
    [.other (phases.relationFrameOps pending)] ++ diff.edgeOps.map .edge ++
    [.other (phases.ontologyGapOps pending)] ++ diff.actOps.map .act ++
    diff.resourceOps.map .resource ++ [.other phases.conclusion]

def applyDiff (phases : OtherPhases) (diff : ValidatedDiff) : ThinkTx (List OpOutcome) :=
  (onDomain phases.claimOps).bind fun pending => applyOps ctx pending (diff.ops phases pending)

end

end FyralisCore.Think.Applier
