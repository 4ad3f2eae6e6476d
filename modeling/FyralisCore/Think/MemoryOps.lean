import FyralisCore.Think.ActOps

/-! The operations of a diff on the memory graph: edges (`_apply_edge_op`), relation
claims (`_apply_relation_claim_op`) and the lifecycle of models
(`_compile_memory_lifecycle_update`, `_apply_claim_update`, `_apply_claim_archive`). -/
namespace FyralisCore.Think.Applier

open Relational Transaction Models
open Acts (Json strip)
open Models (EdgeKind EdgeKey EdgeLink EdgeRow ModelDb)

def occursIn (needle text : String) : Bool :=
  decide (needle.toList <:+: text.toList)

def mergeEventIds (groups : List (List Nat)) : List Nat :=
  groups.flatten.eraseDups

def classifyApplyEdgeDropReason (message : String) : String :=
  let msg := message.toLower
  if occursIn "cycle" msg then "cycle_prevention"
  else if occursIn "mutually exclusive" msg then "mutually_exclusive_edge"
  else if occursIn "self-edge" msg then "invalid_shape"
  else if occursIn "unknown edge_kind" msg || occursIn "reserved" msg then "invalid_edge_kind"
  else if occursIn "weight" msg then "invalid_weight"
  else if occursIn "confidence" msg then "invalid_confidence"
  else if occursIn "detected_by" msg || occursIn "review_status" msg then "invalid_shape"
  else "unclassified"

inductive EdgeAction where
  | add
  | retire
  deriving DecidableEq, Repr

def EdgeAction.text : EdgeAction → String
  | .add => "add"
  | .retire => "retire"

structure EdgeOp where
  op : EdgeAction
  sourceModelId : Nat
  targetModelId : Nat
  edgeKind : EdgeKind
  weight : Option Rat := none
  confidence : Rat := 1
  evidenceEventIds : List Nat := []
  evidenceModelIds : List Nat := []
  explanation : Option String := none
  metadata : List (String × Json) := []
  reviewStatus : String := "accepted"
  detectedBy : Option String := none
  decayAfter : Option Nat := none
  expiresAt : Option Nat := none
  reason : Option String := none

def textOr (value : Option String) (default : String) : String :=
  (value.filter (· ≠ "")).getD default

def EdgeOp.link (op : EdgeOp) (ctx : ApplyContext) : EdgeLink where
  source := op.sourceModelId
  target := op.targetModelId
  kind := op.edgeKind
  tenantId := ctx.tenantId
  detectedBy := textOr op.detectedBy "think_edge_op"
  weight := op.weight
  metadata := op.metadata
  createdByEventId := ctx.causeEventId
  confidence := op.confidence
  evidenceEventIds := some (mergeEventIds [op.evidenceEventIds, ctx.causeEventId.toList])
  evidenceModelIds := some op.evidenceModelIds
  explanation := op.explanation
  reviewStatus := op.reviewStatus
  decayAfter := op.decayAfter
  expiresAt := op.expiresAt

def modelCall {α : Type} (body : Models.ModelTx α) : DomainTx Unit :=
  onModels (body.bind fun _ => .done ())

def applyEdgeOp (ctx : ApplyContext) (op : EdgeOp) : DomainTx Unit :=
  match op.op with
  | .add => modelCall (link ctx.clock.transactionNow (op.link ctx))
  | .retire =>
    modelCall (retire ctx.clock.transactionNow op.sourceModelId op.targetModelId op.edgeKind
      ctx.tenantId (textOr op.reason "edge_op_retire"))

structure RelationClaimOp where
  id : Option Nat := none
  sourceModelId : Option Nat := none
  targetModelId : Option Nat := none
  subjectRef : List (String × Json) := []
  objectRef : List (String × Json) := []
  predicate : String
  edgeKind : EdgeKind
  direction : RelationDirection := .sourceToTarget
  endpointBindingStatus : EndpointBindingStatus := .unbound
  writePolicy : RelationWritePolicy := .candidate
  status : RelationClaimStatus := .active
  confidence : Rat := 1 / 2
  weight : Option Rat := none
  bindingConfidence : Rat := 0
  evidenceEventIds : List Nat := []
  evidenceModelIds : List Nat := []
  evidenceText : Option String := none
  explanation : Option String := none
  temporalBounds : List (String × Json) := []
  metadata : List (String × Json) := []

def clamp01 (value : Rat) : Rat := max 0 (min 1 value)

def cleanOptionalText (value : Option String) : Option String :=
  (value.map strip).filter (· ≠ "")

namespace RelationClaimOp

variable (op : RelationClaimOp) (ctx : ApplyContext)

def endpoints : Option (Nat × Nat) :=
  op.sourceModelId.bind fun source => op.targetModelId.map fun target => (source, target)

def bindingStatus : EndpointBindingStatus :=
  if op.endpoints.isSome then .bound else op.endpointBindingStatus

def evidenceEvents : List Nat := mergeEventIds [op.evidenceEventIds, ctx.causeEventId.toList]

/-- `_validate_relation_claim`; the texts that are literals of their types are not
checked again. -/
def refusal : Option DomainError :=
  if Acts.isBlank op.predicate then some (.validationError "relation claim requires predicate")
  else if Acts.isBlank op.edgeKind.text then
    some (.validationError "relation claim requires edge_kind")
  else if op.sourceModelId.isSome ∧ op.sourceModelId = op.targetModelId then
    some (.validationError "relation claim cannot use same source/target model")
  else if ¬ op.weight.all fun weight => 0 ≤ weight ∧ weight ≤ 1 then
    some (.validationError "relation claim weight must be in [0, 1]")
  else if op.writePolicy = .acceptedEdge ∧ op.endpoints.isNone then
    some (.validationError "accepted relation claim requires bound endpoints")
  else if op.writePolicy = .acceptedEdge ∧ op.bindingStatus ≠ .bound then
    some (.validationError "accepted relation claim requires bound status")
  else none

def row : RelationClaimRow where
  tenantId := ctx.tenantId
  sourceObservationId := (op.evidenceEvents ctx).head?
  thinkRunId := ctx.thinkRunId
  sourceModelId := op.sourceModelId
  targetModelId := op.targetModelId
  subjectRef := op.subjectRef
  objectRef := op.objectRef
  predicate := strip op.predicate
  edgeKind := strip op.edgeKind.text
  direction := op.direction
  endpointBindingStatus := op.bindingStatus
  writePolicy := op.writePolicy
  status := op.status
  confidence := clamp01 op.confidence
  weight := op.weight.map clamp01
  bindingConfidence := clamp01 op.bindingConfidence
  evidenceEventIds := op.evidenceEvents ctx
  evidenceModelIds := mergeEventIds [op.evidenceModelIds]
  evidenceText := cleanOptionalText op.evidenceText
  explanation := cleanOptionalText op.explanation
  temporalBounds := op.temporalBounds
  metadata := mergeMetadata op.metadata
    [("relation_claim_op", .bool true),
      ("cause_event_id", ctx.causeEventId.elim .null fun id => .string (toString id))]
  createdAt := ctx.clock.transactionNow
  updatedAt := ctx.clock.transactionNow

def edgeMetadata (claimId : Nat) : List (String × Json) :=
  mergeMetadata op.metadata
    [("relation_claim_id", .string (toString claimId)), ("source", .string "relation_claim_op")]

def link (source target : Nat) (metadata : List (String × Json)) : EdgeLink where
  source := source
  target := target
  kind := op.edgeKind
  tenantId := ctx.tenantId
  detectedBy := "think_edge_op"
  weight := op.weight
  metadata := metadata
  createdByEventId := ctx.causeEventId
  confidence := op.confidence
  evidenceEventIds := some (op.evidenceEvents ctx)
  evidenceModelIds := some op.evidenceModelIds
  explanation := (op.explanation.filter (· ≠ "")).or op.evidenceText
  reviewStatus := "accepted"

end RelationClaimOp

def RelationClaimRow.upsert (existing excluded : RelationClaimRow) (now : Nat) : RelationClaimRow :=
  { excluded with
    tenantId := existing.tenantId
    createdAt := existing.createdAt
    updatedAt := now
    decidedAt :=
      if excluded.status.isDecided then existing.decidedAt.or (some now) else existing.decidedAt }

section

variable (ctx : ApplyContext)

/-- `insert_relation_claim`, once the claim is valid: the id of its row. -/
def insertRelationClaim (op : RelationClaimOp) : DomainTx Nat := do
  let rowId ← match op.id with
    | some id => Tx.done id
    | none => Tx.newId
  execute fun db =>
    let proposed := op.row ctx
    let written := match db.relationClaims.get rowId with
      | some existing => existing.upsert proposed ctx.clock.transactionNow
      | none => proposed
    { db with relationClaims := db.relationClaims.put rowId written }
  return rowId

def RelationClaimRow.accept (edgeIds : List Nat) (now : Nat) (row : RelationClaimRow) :
    RelationClaimRow :=
  { row with
    status := .accepted
    acceptedEdgeIds := edgeIds
    metadata := mergeMetadata row.metadata
      [("latest_adjudication", .object [("reason", .string "accepted_relation_claim_created_edge"),
          ("accepted_edge_ids", .array (edgeIds.map fun id => .string (toString id)))])]
    decidedAt := some now
    updatedAt := now }

def markRelationClaimAccepted (claimId : Nat) (edgeIds : List Nat) : DomainTx Unit :=
  execute fun db =>
    { db with
      relationClaims := db.relationClaims.updateWhere
        (fun id row => id = claimId ∧ row.tenantId = ctx.tenantId)
        fun _ => RelationClaimRow.accept edgeIds ctx.clock.transactionNow }

def supportSuperseders : List Models.RegistryKind := [.blocks, .contradicts, .weakens]

def conflictPairs (source target : Nat) (symmetric : Bool) : List (Nat × Nat) :=
  if symmetric ∧ source ≠ target then [(source, target), (target, source)] else [(source, target)]

def conflictRows (db : ModelDb) (spec : Models.EdgeKindSpec) (tenantId : Nat) (pair : Nat × Nat) :
    List (EdgeKey × EdgeRow) :=
  db.edges.rows.filter fun entry =>
    entry.1.tenantId = tenantId ∧ entry.1.source = pair.1 ∧ entry.1.target = pair.2 ∧
      entry.1.kind ∈ spec.mutuallyExclusiveWith ∧ entry.2.isLive

/-- The pairs whose support edges give way to the claim: all the conflicts are
`supports` edges that nobody entered by hand. -/
def supersededPairs (db : ModelDb) (tenantId : Nat) (edgeKind : EdgeKind) (source target : Nat) :
    List (Nat × Nat) :=
  match edgeKind with
  | .registry kind =>
    let spec := edgeRegistry kind
    if kind ∈ supportSuperseders ∧
        EdgeKind.registry .supports ∈ spec.mutuallyExclusiveWith then
      let pairs := (conflictPairs source target (!spec.isDirected)).filter fun pair =>
        conflictRows db spec tenantId pair ≠ []
      if pairs.all fun pair => (conflictRows db spec tenantId pair).all fun entry =>
          entry.1.kind = .registry .supports ∧ entry.2.detectedBy ≠ .manual
      then pairs else []
    else []
  | .dynamic _ => []

def relatedByAge (db : ModelDb) (condition : EdgeKey → Bool) (related : EdgeKey → Nat) : List Nat :=
  let entries := db.edges.rows.filter fun entry => condition entry.1 ∧ entry.2.status = .active
  (entries.insertionSort fun first second =>
    first.2.createdAt < second.2.createdAt ∨
      (first.2.createdAt = second.2.createdAt ∧ first.2.id ≤ second.2.id)).map
        fun entry => related entry.1

def refreshSupportingModelIds (tenantId modelId : Nat) : Models.ModelTx Unit :=
  change fun db =>
    let supports := relatedByAge db
      (fun key => key.tenantId = tenantId ∧ key.target = modelId ∧ key.kind = .registry .supports)
      EdgeKey.source
    let instances := relatedByAge db
      (fun key => key.tenantId = tenantId ∧ key.source = modelId ∧ key.kind = .registry .instanceOf)
      EdgeKey.target
    { db with
      models := db.models.updateWhere (fun id row => id = modelId ∧ row.tenantId = tenantId)
        fun _ row => { row with supportingModelIds := (supports ++ instances).eraseDups } }

def retireSupports (reason : String) (pair : Nat × Nat) : Models.ModelTx (Option (Nat × Nat)) := do
  let count ← retire ctx.clock.transactionNow pair.1 pair.2 (.registry .supports)
    ctx.tenantId reason
  return if count = 0 then none else some (pair.2, count)

/-- `_retire_superseded_support_edges_for_relation_claim`: how many edges of how many
pairs it has retired. -/
def retireSupersededSupportEdges (op : RelationClaimOp) (source target claimId : Nat) :
    Models.ModelTx (List (Nat × Nat)) := do
  let pairs ← Tx.read fun db => supersededPairs db ctx.tenantId op.edgeKind source target
  let reason := "superseded_by_relation_claim:" ++ op.edgeKind.text ++ ":" ++ toString claimId
  let retired ← Tx.mapEach pairs (retireSupports ctx reason)
  let retired := retired.filterMap id
  Tx.forEach (retired.map Prod.fst).eraseDups (refreshSupportingModelIds ctx.tenantId)
  return retired

def DomainError.isExclusion (decimal : Rat → String) (error : DomainError) : Bool :=
  error.errorClass == .edgeRegistryError &&
    classifyApplyEdgeDropReason (error.message decimal) == "mutually_exclusive_edge"

/-- The edge of an accepted claim: linked, or linked after the support edges that
exclude it are retired. -/
def linkAcceptedClaim (op : RelationClaimOp) (source target claimId : Nat) : DomainTx (List Nat) := do
  let metadata := op.edgeMetadata claimId
  let now := ctx.clock.transactionNow
  match ← (onModels (link now (op.link ctx source target metadata))).attempt with
  | .ok edgeIds => return edgeIds
  | .error error =>
    Tx.ensure (error.isExclusion ctx.decimal) error
    let retired ← onModels (retireSupersededSupportEdges ctx op source target claimId)
    Tx.ensure (!retired.isEmpty) error
    let count := (retired.map Prod.snd).sum
    onModels (link now (op.link ctx source target
      (mergeMetadata metadata [("superseded_edge_count", .number (toString count))])))

/-- The edges of a claim: a retired claim retires them, an accepted one makes one. -/
def applyClaimEdges (op : RelationClaimOp) (claimId : Nat) : DomainTx Unit :=
  match op.endpoints with
  | none => return ()
  | some (source, target) =>
    if op.status = .retired then
      modelCall (retire ctx.clock.transactionNow source target op.edgeKind ctx.tenantId
        (textOr op.explanation "relation_claim_retired"))
    else
      Tx.when (op.writePolicy = .acceptedEdge) do
        let edgeIds ← linkAcceptedClaim ctx op source target claimId
        markRelationClaimAccepted ctx claimId edgeIds

def refuse : Option DomainError → DomainTx Unit
  | some error => .raise error
  | none => .done ()

def applyRelationClaimOp (op : RelationClaimOp) : DomainTx Unit := do
  refuse op.refusal
  let claimId ← insertRelationClaim ctx op
  applyClaimEdges ctx op claimId

end

end FyralisCore.Think.Applier
