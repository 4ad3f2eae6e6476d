import FyralisCore.Lib.Dict
import FyralisCore.Models.Insert

/-! Batches of models: the plan that orders them by their dependencies
(`batch.py`) and the set-oriented insert (`_insert_many_bulk` of `repo.py`). -/
namespace FyralisCore.Models

open Relational Transaction
open Acts (Json)

variable (rules : InsertRules)

structure PlannedModel where
  index : Nat
  id : Nat
  proposed : ModelCreate
  dependsOn : List Nat

structure ModelBatchPlan where
  models : List PlannedModel
  strata : List (List PlannedModel)

def duplicateIds : List Nat → List Nat → List Nat
  | _, [] => []
  | seen, id :: rest =>
    if id ∈ seen then id :: duplicateIds (id :: seen) rest else duplicateIds (id :: seen) rest

def addDependency (fieldName : String) (modelId : Nat) (batchIds : List Nat)
    (dependency : Option Nat) : Except ModelError (List Nat) :=
  match dependency with
  | none => .error (.notUuid fieldName)
  | some id =>
    if id = modelId then .error (.selfDependency fieldName modelId)
    else if id ∈ batchIds then .ok [id]
    else .ok []

def iterItems (fieldName : String) : Option Json → Except ModelError (List Json)
  | none => .ok []
  | some (.array items) => .ok items
  | some (.string text) => .ok (text.toList.map fun character => .string character.toString)
  | some (.object fields) => .ok (fields.map fun entry => .string entry.1)
  | some value => if truthy value then .error (.notIterable fieldName) else .ok []

def plannedMembers (proposition : Json) : Except ModelError (List Json) :=
  if textField "claim_role" proposition = some "situation" ∨
      textField "legacy_kind" proposition = some "situation" then
    iterItems "proposition.member_model_ids" (field "member_model_ids" proposition)
  else .ok []

def intraBatchDependencies (proposed : ModelCreate) (modelId : Nat) (batchIds : List Nat) :
    Except ModelError (List Nat) := do
  let supporting ← proposed.supportingModelIds.mapM fun id =>
    addDependency "supporting_model_ids" modelId batchIds (some id)
  let contributing ← proposed.contributingModels.mapM fun id =>
    addDependency "contributing_models" modelId batchIds (some id)
  let members ← plannedMembers proposed.proposition
  let composed ← (members.filter notNull).mapM fun raw =>
    addDependency "proposition.member_model_ids" modelId batchIds (rules.parseUuid (rules.str raw))
  return (supporting.flatten ++ contributing.flatten ++ composed.flatten).eraseDups

/-- `_topological_strata`; every round but the last takes a model out, so there
are no more rounds than models. -/
def topologicalStrata : Nat → List PlannedModel → List Nat →
    Except ModelError (List (List PlannedModel))
  | 0, _, _ => .ok []
  | rounds + 1, remaining, emitted =>
    if remaining.isEmpty then .ok []
    else
      let isReady := fun planned : PlannedModel => planned.dependsOn.all (· ∈ emitted)
      let ready := remaining.filter isReady
      if ready.isEmpty then .error (.dependencyCycle (remaining.map PlannedModel.id))
      else do
        let later ← topologicalStrata rounds (remaining.filter fun planned => !isReady planned)
          (emitted ++ ready.map PlannedModel.id)
        return ready :: later

/-- `plan_model_batch` once the identifiers are assigned. -/
def planAssigned (proposed : List (Nat × ModelCreate)) : Except ModelError ModelBatchPlan := do
  let duplicates := duplicateIds [] (proposed.map Prod.fst)
  refuse duplicates
  let planned ← proposed.zipIdx.mapM fun ((modelId, draft), index) => do
    let dependsOn ← intraBatchDependencies rules draft modelId (proposed.map Prod.fst)
    return { index, id := modelId, proposed := draft, dependsOn : PlannedModel }
  let strata ← topologicalStrata planned.length planned []
  return ⟨planned, strata⟩
where
  refuse (duplicates : List Nat) : Except ModelError Unit :=
    if duplicates = [] then .ok () else .error (.duplicateIds duplicates)

def assignId (draft : ModelCreate) : ModelTx (Nat × ModelCreate) := do
  let modelId ← idOrNew draft.id
  return (modelId, { draft with id := some modelId })

def planModelBatch (proposed : List ModelCreate) : ModelTx ModelBatchPlan := do
  let assigned ← Tx.mapEach proposed assignId
  Tx.ofExcept (planAssigned rules assigned)

def bulkWrite {K V : Type} [DecidableEq K] (constraint : String) (table : ModelDb → Table K V)
    (store : ModelDb → Table K V → ModelDb) (rows : List (K × V)) : ModelTx Unit :=
  execute fun db =>
    match (table db).insertFresh rows with
    | some after => .ok (fun db => store db after, ())
    | none => .error (.uniqueViolation constraint)

def validateBatchScopeActors (plan : ModelBatchPlan) : ModelTx Unit := do
  let tenants := (plan.models.map fun planned => planned.proposed.tenantId).eraseDups
  Tx.forEach tenants fun tenantId =>
    validateScopeActors tenantId
      ((plan.models.filter fun planned => planned.proposed.tenantId = tenantId).flatMap
        fun planned => planned.proposed.scopeActors).eraseDups

def prepareBulkInsertStratum (stratum : List PlannedModel) : ModelTx Unit :=
  Tx.forEach stratum fun planned => do
    Tx.ofExcept (checkFalsifier rules planned.proposed)
    Tx.when (planned.proposed.supportingModelIds ≠ [])
      (checkNoSupportCycle planned.id planned.proposed.supportingModelIds)

section

variable (now : Nat) (stratum : List PlannedModel)

def bulkActorRows : List ((Nat × Nat) × ScopeRow) :=
  firstByKey (stratum.flatMap fun planned =>
    planned.proposed.scopeActors.map fun actor =>
      ((planned.id, actor), { tenantId := planned.proposed.tenantId, createdAt := now }))

def bulkEntityRows : List ((Nat × String × Nat) × ScopeRow) :=
  firstByKey (stratum.flatMap fun planned =>
    (scopeEntityKeys rules planned.proposed.scopeEntities).map fun entity =>
      ((planned.id, entity), { tenantId := planned.proposed.tenantId, createdAt := now }))

def bulkMemberRows : List ((Nat × Nat) × CompositionRow) :=
  firstByKey (stratum.flatMap fun planned =>
    (compositionMemberIds rules planned.id planned.proposed.proposition).map fun member =>
      ((planned.id, member),
        compositionRow rules now planned.proposed.tenantId planned.proposed.proposition))

end

def bulkEdgeRow (now id : Nat) (createdByEventId evidenceModelId : Nat) : EdgeRow where
  id := id
  detectedBy := .llmExplicit
  createdAt := now
  createdByEventId := some createdByEventId
  confidence := 1
  evidenceEventIds := [createdByEventId]
  evidenceModelIds := [evidenceModelId]
  reviewStatus := .accepted
  lastConfirmedAt := some now
  confirmedCount := 1

def incomingEdges (planned : PlannedModel) (kind : RegistryKind) (sources : List Nat) :
    List (EdgeKey × Nat) :=
  (sources.filter (· ≠ planned.id)).map fun source =>
    (⟨planned.proposed.tenantId, source, planned.id, kind⟩, planned.proposed.bornFromEventId)

def bulkEdges (stratum : List PlannedModel) : List (EdgeKey × Nat) :=
  firstByKey (stratum.flatMap fun planned =>
    incomingEdges planned .supports planned.proposed.supportingModelIds ++
      incomingEdges planned .contributesToResolution planned.proposed.contributingModels)

def bulkInsertModelRelations (now : Nat) (stratum : List PlannedModel) : ModelTx Unit := do
  let rows ← Tx.mapEach (bulkEdges stratum) fun edge => do
    let id ← Tx.newId
    return (edge.1, bulkEdgeRow now id edge.2 edge.1.source)
  bulkWrite "model_edges_unique" ModelDb.edges (fun db edges => { db with edges }) rows

def bulkInsertStratum (now : Nat) (stratum : List PlannedModel) : ModelTx Unit := do
  prepareBulkInsertStratum rules stratum
  bulkWrite "models_pkey" ModelDb.models (fun db models => { db with models })
    (stratum.map fun planned => (planned.id, planned.proposed.row now))
  bulkWrite "model_scope_actors_pkey" ModelDb.scopeActors
    (fun db scopeActors => { db with scopeActors }) (bulkActorRows now stratum)
  bulkWrite "model_scope_entities_pkey" ModelDb.scopeEntities
    (fun db scopeEntities => { db with scopeEntities }) (bulkEntityRows rules now stratum)
  bulkWrite "model_composition_members_pkey" ModelDb.compositionMembers
    (fun db compositionMembers => { db with compositionMembers })
    (bulkMemberRows rules now stratum)
  bulkInsertModelRelations now stratum

def insertManyBulk (now : Nat) (plan : ModelBatchPlan) : ModelTx (List Nat) := do
  validateBatchScopeActors plan
  Tx.forEach plan.strata (bulkInsertStratum rules now)
  return plan.models.map PlannedModel.id

def batchRequiresSerialInsert (plan : ModelBatchPlan) : Bool :=
  plan.models.any fun planned => claimRole planned.proposed.proposition = .recommendation

def insertMany (now : Nat) (proposed : List ModelCreate) : ModelTx (List Nat) :=
  if proposed.isEmpty then .done []
  else do
    let plan ← planModelBatch rules proposed
    if batchRequiresSerialInsert plan then do
      Tx.forEach plan.strata.flatten fun planned =>
        (insertConstructed rules now planned.proposed).bind fun _ => .done ()
      return plan.models.map PlannedModel.id
    else insertManyBulk rules now plan

end FyralisCore.Models
