import FyralisCore.Models.EdgesRepo

/-! The archive of a model (`ModelsRepo.archive` of `repo.py`): the cascade over
its edges, the one over the array columns, and its edges made inert. -/
namespace FyralisCore.Models

open Relational Transaction

/-- INSERT INTO model_reeval_queue ... ON CONFLICT DO NOTHING; the dependent is
a foreign key. -/
def enqueueReeval (now tenantId dependentId causeModelId : Nat) (causeKind : CauseKind) :
    ModelTx Unit := do
  let id ← Tx.newId
  let key : ReevalKey := ⟨tenantId, dependentId, some causeModelId, none⟩
  execute fun db =>
    if (db.reevalQueue.get key).isSome then .ok (fun db => db, ())
    else if (db.models.get dependentId).isNone then
      .error (.foreignKeyViolation "model_reeval_queue")
    else
      .ok (fun db =>
        { db with reevalQueue := db.reevalQueue.put key { id, causeKind, enqueuedAt := now } }, ())

def onSourceArchive : EdgeKind → Option CascadeCallback
  | .registry kind => (edgeRegistry kind).onSourceArchive
  | .dynamic _ => none

def onTargetArchive : EdgeKind → Option CascadeCallback
  | .registry kind => (edgeRegistry kind).onTargetArchive
  | .dynamic _ => none

/-- Enqueue the other endpoint, if the kind has a callback for this side. -/
def cascade (now modelId tenantId : Nat) (reason : ModelArchiveReason)
    (callback : Option CascadeCallback) (otherEndpoint : Nat) : ModelTx Unit :=
  Tx.forSome callback fun callback =>
    enqueueReeval now tenantId otherEndpoint modelId (callback.causeKind reason)

def ModelRow.archived (now : Nat) (reason : ModelArchiveReason) (row : ModelRow) : ModelRow :=
  { row with
    status := .archived
    archivedAt := some now
    archiveReason := some reason }

/-- The active models that list the model in `supporting_model_ids`. -/
def dependentsOf (db : ModelDb) (modelId : Nat) : List Nat :=
  (db.models.rows.filter fun entry =>
    modelId ∈ entry.2.supportingModelIds ∧ entry.2.status = .active).map Prod.fst

def archive (now modelId : Nat) (reason : ModelArchiveReason) : ModelTx Unit := do
  let found ← Tx.read fun db => db.models.get modelId
  let row ← Tx.orRaise found (.notFound modelId)
  change fun db =>
    { db with models := db.models.update modelId (ModelRow.archived now reason) }
  let registryKinds := RegistryKind.all.map EdgeKind.registry
  let forwardEdges ← traverseForward modelId registryKinds row.tenantId .active
  Tx.forEach forwardEdges fun edge =>
    cascade now modelId row.tenantId reason (onSourceArchive edge.1.kind) edge.1.target
  let backwardEdges ← traverseBackward modelId registryKinds row.tenantId .active
  Tx.forEach backwardEdges fun edge =>
    cascade now modelId row.tenantId reason (onTargetArchive edge.1.kind) edge.1.source
  let dependents ← Tx.read fun db => dependentsOf db modelId
  Tx.forEach dependents fun dependent =>
    enqueueReeval now row.tenantId dependent modelId (legacySupportsCauseKind reason)
  (markInert now modelId row.tenantId "endpoint_archived").bind fun _ => .done ()

end FyralisCore.Models
