import FyralisCore.Think.PostCommit
import FyralisCore.Think.Validate

/-! The post-commit actions of an applied diff: the payload of each kind and
`enqueue_post_commit_actions` (`post_commit.py`), which runs in the transaction of the
application. -/
namespace FyralisCore.Think.PostCommit

open Relational
open Acts (Json)
open Applier (Entry)
open Validator (ValidatedDiff ValidatorRules ValidatorError EntityRef ClaimOp ActOpKind)

def summarizeOpCount (diff : ValidatedDiff) : Json :=
  let count := fun size : Nat => Json.number (toString size)
  .object [("claim_ops", count diff.claimOps.length),
      ("memory_lifecycle_ops", count diff.memoryLifecycleOps.length),
      ("relation_claim_ops", count diff.relationClaimOps.length),
      ("relation_frame_ops", count diff.relationFrameOps.length),
      ("edge_ops", count diff.edgeOps.length),
      ("ontology_gap_ops", count diff.ontologyGapOps.length),
      ("act_ops", count diff.actOps.length),
      ("resource_ops", count diff.resourceOps.length)]

variable (rules : ValidatorRules)

/-- `_add(t, i)` of a scope entity; a missing type is the text of None. -/
def scopeEntity (item : Json) : List EntityRef :=
  match item, (Models.field "id" item).filter Models.notNull with
  | .object _, some id =>
    [(rules.uuid.str ((Models.field "type" item).getD .null), rules.uuid.str id)]
  | _, _ => []

def claimEntities (op : ClaimOp) : Except ValidatorError (List EntityRef) :=
  let named := op.modelId.toList.map rules.modelRef
  match op.op, op.entry with
  | .insert, some (first :: rest) => do
    let items ← Validator.iterate (Entry.get (first :: rest) "scope_entities")
    return named ++ items.flatMap (scopeEntity rules)
  | _, _ => .ok named

def actEntityType : ActOpKind → Option String
  | .createCommitment | .transitionCommitment => some "commitment"
  | .createGoal | .updateGoal | .transitionGoal => some "goal"
  | .createDecision | .transitionDecision => some "decision"
  | _ => none

section

variable (diff : ValidatedDiff)

/-- `_affected_entities` before the duplicates are gone. -/
def affectedRefs : Except ValidatorError (List EntityRef) := do
  let claims ← diff.claimOps.mapM (claimEntities rules)
  let models := fun modelIds : List Nat => modelIds.map rules.modelRef
  return claims.flatten ++
    (diff.memoryLifecycleOps.flatMap fun proposal => models proposal.modelIds) ++
    (diff.edgeOps.flatMap fun op => models [op.sourceModelId, op.targetModelId]) ++
    (diff.relationClaimOps.flatMap fun op =>
      models (op.sourceModelId.toList ++ op.targetModelId.toList ++ op.evidenceModelIds)) ++
    (diff.relationFrameOps.flatMap fun op =>
      models (op.participants.map (·.modelId) ++ op.evidenceModelIds)) ++
    (diff.ontologyGapOps.flatMap fun op =>
      models (op.sourceModelId :: op.targetModelId :: op.evidenceModelIds)) ++
    (diff.actOps.flatMap fun op =>
      (actEntityType op.op).toList.flatMap fun kind => rules.refAt kind op.entity "id") ++
    diff.resourceOps.flatMap (Validator.resourceOpTouches rules)

def affectedEntities : Except ValidatorError Json := do
  let refs ← affectedRefs rules diff
  let sorted := refs.eraseDups.mergeSort fun first second =>
    decide (first.1 < second.1 ∨ (first.1 = second.1 ∧ first.2 ≤ second.2))
  return .array (sorted.map fun ref => .object [("type", .string ref.1), ("id", .string ref.2)])

def summarizeDiff (affected : Json) : Json :=
  .object [("tenant_id", .string (rules.uuid.text diff.tenantId)),
      ("trigger_ref", .string (rules.uuid.text diff.triggerRef)),
      ("op_counts", summarizeOpCount diff),
      ("affected_entities", affected),
      ("dropped_op_count", .number (toString diff.droppedOpCount))]

def predictionItem (op : ClaimOp) : Option Json :=
  match op.op, op.entry with
  | .insert, some entry =>
    some (.object [("tenant_id", .string (rules.uuid.text diff.tenantId)),
        ("trigger_ref", .string (rules.uuid.text diff.triggerRef)),
        ("entry", .object entry),
        ("evaluate_at", (entry.get "evaluate_at").getD .null)])
  | _, _ => none

def predictionsPayload : Json :=
  .object [("predictions", .array (diff.newPredictions.filterMap (predictionItem rules diff)))]

def edgeDiscoveryPayload (appliedModelIds : List Nat) : Json :=
  .object [("model_ids", .array (appliedModelIds.eraseDups.map fun modelId =>
    .string (rules.uuid.text modelId)))]

/-- The key of a payload that has to hold something; a broadcast needs nothing. -/
def ActionKind.contentKey : ActionKind → Option String
  | .publishAnomalies => some "anomalies"
  | .schedulePredictions => some "predictions"
  | .broadcastRealtime => none
  | .invalidateMetrics => some "affected_entities"
  | .discoverModelEdges => some "model_ids"

def payloadHasContent (kind : ActionKind) (payload : Json) : Bool :=
  kind.contentKey.all fun key => (Models.field key payload).any Models.truthy

structure Applied where
  anomalies : List Json := []
  appliedModelIds : List Nat := []

def postCommitActions (applied : Applied) : Except ValidatorError (List (ActionKind × Json)) := do
  let affected ← affectedEntities rules diff
  return [
    (.publishAnomalies, .object [("anomalies", .array applied.anomalies)]),
    (.schedulePredictions, predictionsPayload rules diff),
    (.broadcastRealtime, .object [("diff_summary", summarizeDiff rules diff affected)]),
    (.invalidateMetrics, .object [("affected_entities", affected)]),
    (.discoverModelEdges, edgeDiscoveryPayload rules applied.appliedModelIds)]

end

structure Queue where
  actions : Table Nat ActionRow
  nextId : Nat

def Queue.has (queue : Queue) (tenantId triggerId : Nat) (kind : ActionKind) : Bool :=
  queue.actions.any fun _ row =>
    row.tenantId = tenantId && row.triggerId = triggerId && row.actionKind = kind

/-- One pass of the loop of `enqueue_post_commit_actions`; the new row has no processing
time, so that it is in conflict with none. -/
def enqueueAction (now : Rat) (tenantId triggerId : Nat) (queue : Queue)
    (action : ActionKind × Json) : Queue :=
  if !payloadHasContent action.1 action.2 then queue
  else if queue.has tenantId triggerId action.1 then queue
  else
    { actions := queue.actions.insertNew queue.nextId
        { tenantId, triggerId, actionKind := action.1, actionPayload := action.2
          createdAt := now, scheduledAt := now }
      nextId := queue.nextId + 1 }

def enqueuePostCommitActions (now : Rat) (diff : ValidatedDiff) (applied : Applied)
    (queue : Queue) : Except ValidatorError Queue := do
  let actions ← postCommitActions rules diff applied
  return actions.foldl (enqueueAction now diff.tenantId diff.triggerRef) queue

end FyralisCore.Think.PostCommit
