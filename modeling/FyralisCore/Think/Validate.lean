import FyralisCore.Lib.PartialAccept
import FyralisCore.Think.ValidatorEdges

/-! `validate` of `validator.py`: the containment of the region, one pass over the
operations of each kind, and the diff of those that pass. -/
namespace FyralisCore.Think.Validator

open Relational PartialAccept
open Acts (Json)
open Models (truthy)
open Applier (Entry EdgeOp RelationClaimOp LifecycleProposal ApplyContext DomainDb UuidRules)

abbrev EntityRef : Type := String × String

variable (rules : ValidatorRules)

def ValidatorRules.refAt (kind : String) (entity : Entry) (key : String) : List EntityRef :=
  ((entity.get key).filter Models.notNull).toList.map fun value => (kind, rules.uuid.str value)

def ValidatorRules.refIfTrue (kind : String) (entity : Entry) (key : String) : List EntityRef :=
  ((entity.get key).filter truthy).toList.map fun value => (kind, rules.uuid.str value)

def goalItem : Json → Except ValidatorError Json
  | .array (goal :: _) => .ok goal
  | .array [] => .error (.python "list index out of range")
  | item => .ok item

def ValidatorRules.scopeRef (item : Json) : List EntityRef :=
  match (Models.field "type" item).filter truthy, (Models.field "id" item).filter truthy with
  | some kind, some id => [(rules.uuid.str kind, rules.uuid.str id)]
  | _, _ => []

def ValidatorRules.modelRef (modelId : Nat) : EntityRef := ("model", rules.uuid.text modelId)

def ValidatorRules.modelRefs (pending modelIds : List Nat) : List EntityRef :=
  (modelIds.filter fun modelId => decide (modelId ∉ pending)).map rules.modelRef

def claimOpTouches (op : ClaimOp) : Except ValidatorError (List EntityRef) :=
  match op.op, op.entry with
  | .insert, some (first :: rest) => do
    let items ← iterate (Entry.get (first :: rest) "scope_entities")
    return items.flatMap rules.scopeRef
  | _, _ => .ok (op.modelId.toList.map rules.modelRef)

def lifecycleTouches (pending : List Nat) (proposal : LifecycleProposal) : List EntityRef :=
  rules.modelRef proposal.op.modelId :: rules.modelRefs pending proposal.op.evidenceModelIds ++
    proposal.supersededByModelId.toList.map rules.modelRef

def actOpTouches (op : ActOp) : Except ValidatorError (List EntityRef) :=
  match op.op with
  | .createCommitment | .transitionCommitment => do
    let items ← iterate (op.entity.get "contributes_to_goal_ids")
    let goals ← items.mapM goalItem
    return rules.refAt "commitment" op.entity "id" ++
      goals.map fun goal => ("goal", rules.uuid.str goal)
  | .createGoal | .transitionGoal | .updateGoal =>
    .ok (rules.refAt "goal" op.entity "id" ++ rules.refAt "goal" op.entity "parent_goal_id")
  | .createDecision | .transitionDecision => .ok (rules.refAt "decision" op.entity "id")
  | .addEdgeContributesTo =>
    .ok (rules.refIfTrue "commitment" op.entity "commitment_id" ++
      rules.refIfTrue "goal" op.entity "goal_id")
  | .addEdgeDependsOn =>
    .ok (rules.refIfTrue "commitment" op.entity "dependent_commitment_id" ++
      rules.refIfTrue "commitment" op.entity "dependency_commitment_id")
  | .addEdgeConstrainedBy =>
    .ok (rules.refIfTrue "commitment" op.entity "commitment_id" ++
      rules.refIfTrue "decision" op.entity "decision_id")

def resourceOpTouches (op : ResourceOp) : List EntityRef :=
  op.resourceId.toList.map fun resourceId => ("resource", rules.uuid.text resourceId)

def iterEntityIdsTouched (diff : RawDiff) (claimOps : List ClaimOp) :
    Except ValidatorError (List EntityRef) := do
  let pending := claimOps.flatMap fun op => op.placeholders rules.uuid
  let claims ← claimOps.mapM (claimOpTouches rules)
  let acts ← diff.actOps.mapM (actOpTouches rules)
  return claims.flatten ++ diff.memoryLifecycleOps.flatMap (lifecycleTouches rules pending) ++
    (diff.edgeOps.flatMap fun op =>
      rules.modelRefs pending [op.sourceModelId, op.targetModelId]) ++
    (diff.relationClaimOps.flatMap fun op =>
      rules.modelRefs pending (op.sourceModelId.toList ++ op.targetModelId.toList)) ++
    (diff.relationFrameOps.flatMap fun op =>
      rules.modelRefs pending (op.participants.map RelationFrameParticipantOp.modelId ++
        op.evidenceModelIds)) ++
    (diff.ontologyGapOps.flatMap fun op =>
      rules.modelRefs pending (op.sourceModelId :: op.targetModelId :: op.evidenceModelIds)) ++
    acts.flatten ++ diff.resourceOps.flatMap (resourceOpTouches rules)

def enforceRegionContainment (diff : RawDiff) (claimOps : List ClaimOp)
    (allowedRegion : Option (List EntityRef)) (strictRegion : Bool) :
    Except ValidatorError Unit :=
  match allowedRegion, strictRegion with
  | some allowed, true => do
    let touched ← iterEntityIdsTouched rules diff claimOps
    let missing := touched.filter fun ref => decide (ref ∉ allowed)
    if missing = [] then return ()
    else .error (.outOfRegion (missing.take 10) touched.length allowed.eraseDups.length)
  | _, _ => .ok ()

/-! ### The passes over the operations of each kind -/

abbrev OpPass (β : Type) : Type := PartialAccept.Pass β String

abbrev OpPolicy (α : Type) : Type := PartialAccept.Policy α String ValidatorError

/-- The errors that an `except` clause catches, and the text before each. -/
def dropping {α : Type} (decimal : Rat → String) (label : α → String) (handled : List ErrorKind) :
    OpPolicy α where
  handles error := decide (error.kind ∈ handled)
  drop op error := label op ++ ": " ++ error.message decimal

section

variable (decimal : Rat → String)

def claimPolicy : OpPolicy ClaimOp :=
  dropping decimal (fun op => "claim_op " ++ op.op.text) [.falsifier, .validation]

def lifecyclePolicy : OpPolicy LifecycleProposal :=
  dropping decimal (fun proposal => "memory_lifecycle_op " ++ proposal.op.action.text) [.validation]

def edgePolicy : OpPolicy EdgeOp :=
  dropping decimal (fun op => "edge_op " ++ op.op.text) [.validation, .registry]

def relationClaimPolicy : OpPolicy RelationClaimOp :=
  dropping decimal (fun _ => "relation_claim_op upsert") [.validation, .registry]

def relationFramePolicy : OpPolicy RelationFrameOp :=
  dropping decimal (fun _ => "relation_frame_op upsert") [.validation]

def ontologyGapPolicy : OpPolicy OntologyGapOp :=
  dropping decimal (fun _ => "ontology_gap_op propose_edge_type") [.validation, .registry]

def actPolicy : OpPolicy ActOp :=
  dropping decimal (fun op => "act_op " ++ op.op.text) [.validation, .invariant, .trustTier]

def resourcePolicy : OpPolicy ResourceOp :=
  dropping decimal (fun op => "resource_op " ++ op.op.text) [.validation]

end

/-- The database and the circumstances of one validation; `ctx` is that of the
application. -/
structure ValidationContext where
  ctx : ApplyContext
  db : DomainDb

variable (vctx : ValidationContext)

def validateClaimOps (ops : List ClaimOp) : Except ValidatorError (OpPass ClaimOp) :=
  acceptEach (claimPolicy vctx.ctx.decimal)
    (fun _ => acceptClaimOp rules vctx.ctx.clock.processNow vctx.db) ops

section

variable (diff : RawDiff)

def validateMemoryLifecycleOps : Except ValidatorError (OpPass LifecycleProposal) :=
  acceptEach (lifecyclePolicy vctx.ctx.decimal)
    (fun _ => validateMemoryLifecycleOp { vctx.ctx with tenantId := diff.tenantId } vctx.db)
    diff.memoryLifecycleOps

def validateEdgeOps (pending : List Nat) : Except ValidatorError (OpPass EdgeOp) :=
  acceptEach (edgePolicy vctx.ctx.decimal)
    (validateEdgeOp rules vctx.db diff.tenantId pending) diff.edgeOps

def validateRelationClaimOps (pending : List Nat) :
    Except ValidatorError (OpPass RelationClaimOp) :=
  acceptEach (relationClaimPolicy vctx.ctx.decimal)
    (fun _ => validateRelationClaimOp rules vctx.db diff.tenantId pending) diff.relationClaimOps

def validateRelationFrameOps (pending : List Nat) :
    Except ValidatorError (OpPass RelationFrameOp) :=
  acceptEach (relationFramePolicy vctx.ctx.decimal)
    (fun _ => validateRelationFrameOp rules vctx.db diff.tenantId pending) diff.relationFrameOps

def validateOntologyGapOps (pending : List Nat) : Except ValidatorError (OpPass OntologyGapOp) :=
  acceptEach (ontologyGapPolicy vctx.ctx.decimal)
    (fun _ => validateOntologyGapOp vctx.db diff.tenantId pending) diff.ontologyGapOps

def validateActOps (pending : Table Nat Rat) : Except ValidatorError (OpPass ActOp) :=
  acceptEach (actPolicy vctx.ctx.decimal) (fun _ => validateActOp rules pending vctx.db) diff.actOps

def validateResourceOps : Except ValidatorError (OpPass ResourceOp) :=
  acceptEach (resourcePolicy vctx.ctx.decimal) (fun _ => validateResourceOpShape) diff.resourceOps

def countSubmittedOps (claimOps : List ClaimOp) : Nat :=
  claimOps.length + diff.memoryLifecycleOps.length + diff.relationClaimOps.length +
    diff.relationFrameOps.length + diff.edgeOps.length + diff.ontologyGapOps.length +
    diff.actOps.length + diff.resourceOps.length

/-- The diff that `validate` returns: predictions are claims by now. -/
def validatedDiff (claims : OpPass ClaimOp) (lifecycle : OpPass LifecycleProposal)
    (edges : OpPass EdgeOp) (relationClaims : OpPass RelationClaimOp)
    (frames : OpPass RelationFrameOp) (gaps : OpPass OntologyGapOp) (acts : OpPass ActOp)
    (resources : OpPass ResourceOp) : ValidatedDiff :=
  let errors := claims.dropped ++ lifecycle.dropped ++ edges.dropped ++ relationClaims.dropped ++
    frames.dropped ++ gaps.dropped ++ acts.dropped ++ resources.dropped
  { triggerRef := diff.triggerRef
    tenantId := diff.tenantId
    claimOps := claims.kept
    memoryLifecycleOps := lifecycle.kept
    relationClaimOps := relationClaims.kept
    relationFrameOps := frames.kept
    edgeOps := edges.kept
    ontologyGapOps := gaps.kept
    actOps := acts.kept
    resourceOps := resources.kept
    newPredictions := []
    droppedOpCount := errors.length
    droppedOpErrors := errors.take 25 }

end

def ValidatedDiff.isEmpty (diff : ValidatedDiff) : Bool :=
  diff.claimOps.isEmpty && diff.memoryLifecycleOps.isEmpty && diff.relationClaimOps.isEmpty &&
    diff.relationFrameOps.isEmpty && diff.edgeOps.isEmpty && diff.ontologyGapOps.isEmpty &&
    diff.actOps.isEmpty && diff.resourceOps.isEmpty

def raiseIfEveryOpFailed (total neutralized : Nat) (diff : ValidatedDiff) :
    Except ValidatorError ValidatedDiff :=
  if 0 < total ∧ diff.isEmpty ∧ neutralized = 0 then
    .error (.everyOpFailed diff.droppedOpErrors total)
  else .ok diff

def validate (diff : RawDiff) (allowedRegion : Option (List EntityRef)) (strictRegion : Bool) :
    Except ValidatorError ValidatedDiff := do
  let claimOps := diff.claimOps ++ diff.newPredictions
  enforceRegionContainment rules diff claimOps allowedRegion strictRegion
  let claims ← validateClaimOps rules vctx claimOps
  let lifecycle ← validateMemoryLifecycleOps vctx diff
  let basis := pendingClaimBasisConfidence rules claims.kept
  let pending := basis.primaryKeys
  let edges ← validateEdgeOps rules vctx diff pending
  let relationClaims ← validateRelationClaimOps rules vctx diff pending
  let frames ← validateRelationFrameOps rules vctx diff pending
  let gaps ← validateOntologyGapOps vctx diff pending
  let acts ← validateActOps rules vctx diff basis
  let resources ← validateResourceOps vctx diff
  raiseIfEveryOpFailed (countSubmittedOps diff claimOps) (edges.neutralized + acts.neutralized)
    (validatedDiff diff claims lifecycle edges relationClaims frames gaps acts resources)

end FyralisCore.Think.Validator
