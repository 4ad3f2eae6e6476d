import FyralisCore.Think.Validator

/-! The checks of one operation between models (`validator.py`, `edge_semantics.py`): edges,
relation claims, relation frames and ontology gaps. -/
namespace FyralisCore.Think.Validator

open Acts (Json strip)
open Models (EdgeKind EdgeKindSpec RegistryKind ModelRow)
open Applier (Entry EdgeOp RelationClaimOp DomainDb)

variable (rules : ValidatorRules)

section

variable (db : DomainDb)

def tenantModel (tenantId modelId : Nat) : Option ModelRow :=
  (db.models.models.get modelId).filter fun row => row.tenantId = tenantId

def missingModels (tenantId : Nat) (pending modelIds : List Nat) : List Nat :=
  modelIds.filter fun modelId =>
    (tenantModel db tenantId modelId).isNone && decide (modelId ∉ pending)

def inactiveModels (tenantId : Nat) (modelIds : List Nat) : List Nat :=
  modelIds.filter fun modelId =>
    (tenantModel db tenantId modelId).any fun row => row.status ≠ .active

def refuseMissing (what : String) (missing : List Nat) : Except ValidatorError Unit :=
  if missing = [] then .ok ()
  else
    .error (.validationError (what ++ " references " ++ toString missing.length ++
      " missing model(s)"))

def refuseInactive (message : String) (inactive : List Nat) : Except ValidatorError Unit :=
  if inactive = [] then .ok () else .error (.validationError message)

def refuseIf (condition : Bool) (message : String) : Except ValidatorError Unit :=
  if condition then .error (.validationError message) else .ok ()

def ofModelError {α : Type} : Except Models.ModelError α → Except ValidatorError α
  | .ok value => .ok value
  | .error error => .error (.edgeRegistryError error)

def inUnit (value : Rat) : Bool := decide (0 ≤ value ∧ value ≤ 1)

def isBlank (text : Option String) : Bool := text.all fun text => strip text = ""

def refinableKinds : List EdgeKind := [.registry .supports, .registry .coOccursWith]

def refined (op : EdgeOp) (refinement : EdgeRefinement) : EdgeOp :=
  { op with
    edgeKind := .registry refinement.edgeKind
    weight := refinement.weight
    metadata := ((Entry.setDefault op.metadata "canonicalized_from_edge_kind"
        (.string op.edgeKind.text)).setDefault "canonicalization_reason"
        (.string refinement.reason)).setDefault "canonicalized_by" (.string "edge_semantic_refiner")
    explanation :=
      if isBlank op.explanation then
        some ("Refined from " ++ op.edgeKind.text ++ ": " ++ refinement.reason ++ ".")
      else op.explanation }

def canonicalizeEdgeSemantics (op : EdgeOp) : EdgeOp :=
  if op.op ≠ .add ∨ op.edgeKind ∉ refinableKinds then op
  else
    match rules.refine db op with
    | none => op
    | some refinement =>
      if EdgeKind.registry refinement.edgeKind = op.edgeKind then op else refined op refinement

def preciseDurableKinds : List EdgeKind :=
  [RegistryKind.blocks, .contributesToResolution, .contradicts, .earlyWarningFor, .explains,
    .weakens].map EdgeKind.registry

def autoAcceptMinConfidence : Rat := 17 / 25

def promotesReview (op : EdgeOp) (endpointModelsVerified : Bool) : Bool :=
  op.op = .add && (op.reviewStatus == "candidate" || op.reviewStatus == "needs_review") &&
    decide (op.edgeKind ∈ preciseDurableKinds) &&
    decide (autoAcceptMinConfidence ≤ op.confidence) && !isBlank op.explanation &&
    (!op.evidenceEventIds.isEmpty || !op.evidenceModelIds.isEmpty || endpointModelsVerified)

def normalizeEdgeReviewStatus (op : EdgeOp) (endpointModelsVerified : Bool) : EdgeOp :=
  if promotesReview op endpointModelsVerified then
    let promoted := (Entry.setDefault op.metadata "review_status_promoted_by"
      (.string "edge_semantic_refiner")).setDefault "review_status_promoted_reason"
      (.string "explicit_evidence_backed_precise_edge")
    { op with
      reviewStatus := "accepted"
      metadata :=
        if endpointModelsVerified && op.evidenceEventIds.isEmpty && op.evidenceModelIds.isEmpty then
          Entry.setDefault promoted "review_status_promoted_evidence"
            (.string "verified_endpoint_models")
        else promoted }
  else op

def enforceEdgeSpecificity (op : EdgeOp) : EdgeOp :=
  let assessment := rules.assessSpecificity db op
  let scored := Entry.setDefault op.metadata "edge_specificity_score" assessment.score
  if assessment.needsReview then
    { op with
      reviewStatus := "needs_review"
      metadata := (scored.setDefault "edge_specificity_reasons"
          (.array (assessment.reasons.map .string))).setDefault "review_status_downgraded_by"
          (.string "edge_specificity_guard") }
  else { op with metadata := scored }

/-- The targets of the active edges of the scope, and of the additions before. -/
def scopeTargets (tenantId : Nat) (scope : List EdgeKind) (earlier : List EdgeOp)
    (frontier : List Nat) : List Nat :=
  let stored := db.models.edges.rows.filter fun entry =>
    entry.1.tenantId = tenantId ∧ entry.1.source ∈ frontier ∧ entry.1.kind ∈ scope ∧
      entry.2.status = .active
  let proposed := earlier.filter fun op =>
    op.op = .add ∧ op.edgeKind ∈ scope ∧ op.sourceModelId ∈ frontier
  (stored.map fun entry => entry.1.target) ++ proposed.map EdgeOp.targetModelId

/-- The loop of `_edge_would_create_cycle`; none where the guard stops it. -/
def reaches (targets : List Nat → List Nat) (source : Nat) : Nat → List Nat → List Nat → Option Bool
  | 0, _, _ => none
  | fuel + 1, seen, frontier =>
    let fresh := frontier.filter (· ∉ seen)
    if fresh = [] then some false
    else if source ∈ fresh then some true
    else reaches targets source fuel (fresh ++ seen) (targets fresh)

def depthGuard : Nat := 512

def edgeWouldCreateCycle (tenantId : Nat) (earlier : List EdgeOp) (op : EdgeOp) : Except
    ValidatorError Bool := do
  let spec ← ofModelError (Models.resolveEdgeKindSpec db.models tenantId op.edgeKind)
  match spec.cycleScope with
  | none => return false
  | some scope =>
    match reaches (scopeTargets db tenantId scope earlier) op.sourceModelId depthGuard []
        [op.targetModelId] with
    | some found => return found
    | none => .error (.validationError "edge_op cycle traversal exceeded depth guard")

def explainedKinds : List EdgeKind :=
  [RegistryKind.contradicts, .weakens, .causes, .explains, .predicts, .blocks, .enables,
    .sameIssueAs, .earlyWarningFor, .alternativeTo].map EdgeKind.registry

def EdgeOp.withKnownSource (op : EdgeOp) : EdgeOp :=
  { op with detectedBy := op.detectedBy.filter fun text =>
      text = "" || (Models.EdgeDetectedBy.ofText text).isSome }

def checkEdgeShape (tenantId : Nat) (op : EdgeOp) : Except ValidatorError Unit := do
  let spec ← ofModelError (Models.resolveEdgeKindSpec db.models tenantId op.edgeKind)
  ofModelError (Models.validateWeightForSpec spec op.weight)
  refuseIf (!inUnit op.confidence) "edge_op confidence must be in [0, 1]"
  match op.op with
  | .add =>
    refuseIf (decide (op.edgeKind ∈ explainedKinds) && isBlank op.explanation)
      ("edge_op add " ++ Acts.quoted op.edgeKind.text ++ " requires explanation")
  | .retire => refuseIf (isBlank op.reason) "edge_op retire requires reason"

/-- What is left of an addition between models that are there; none where it would close
a cycle. -/
def admitEdge (tenantId : Nat) (earlier : List EdgeOp) (op : EdgeOp) : Except ValidatorError
    (Option EdgeOp) := do
  let endpoints := [op.sourceModelId, op.targetModelId]
  refuseInactive "edge_op add requires active model endpoints"
    (inactiveModels db tenantId endpoints)
  let verified := endpoints.all fun modelId => (tenantModel db tenantId modelId).isSome
  let op := enforceEdgeSpecificity rules db (normalizeEdgeReviewStatus op verified)
  let cycle ← edgeWouldCreateCycle db tenantId earlier op
  return if cycle then none else some op

def validateEdgeOp (tenantId : Nat) (pending : List Nat) (earlier : List EdgeOp) (given : EdgeOp) :
    Except ValidatorError (Option EdgeOp) := do
  refuseIf (given.sourceModelId = given.targetModelId) "edge_op self-edge not allowed"
  let canonical := canonicalizeEdgeSemantics rules db given
  checkEdgeShape db tenantId canonical
  let op := EdgeOp.withKnownSource canonical
  refuseMissing "edge_op" (missingModels db tenantId pending [op.sourceModelId, op.targetModelId])
  match op.op with
  | .add => admitEdge rules db tenantId earlier op
  | .retire => return some op

def semanticText (op : RelationClaimOp) : String :=
  " ".intercalate (([op.predicate, op.explanation.getD "", op.evidenceText.getD ""].filter
    fun part => strip part ≠ ""))

def edgeProxy (op : RelationClaimOp) (source target : Nat) : EdgeOp where
  op := .add
  sourceModelId := source
  targetModelId := target
  edgeKind := op.edgeKind
  weight := op.weight
  confidence := op.confidence
  evidenceEventIds := op.evidenceEventIds
  evidenceModelIds := op.evidenceModelIds
  explanation := some (semanticText op)
  metadata := op.metadata
  reviewStatus :=
    if op.writePolicy = .acceptedEdge ∨ op.status = .accepted then "accepted" else "candidate"

def canonicalizeRelationClaim (op : RelationClaimOp) (source target : Nat) (verified : Bool) :
    RelationClaimOp :=
  let proxy := edgeProxy op source target
  let edge := enforceEdgeSpecificity rules db
    (normalizeEdgeReviewStatus (canonicalizeEdgeSemantics rules db proxy) verified)
  let kindChanged := decide (edge.edgeKind ≠ op.edgeKind)
  let accepted := edge.reviewStatus = "accepted" ∧ op.writePolicy ≠ .acceptedEdge
  { op with
    edgeKind := edge.edgeKind
    predicate :=
      if kindChanged && strip op.predicate == op.edgeKind.text then edge.edgeKind.text
      else op.predicate
    weight := edge.weight
    explanation :=
      if edge.explanation ≠ proxy.explanation ∧ edge.explanation.any (· ≠ "") then edge.explanation
      else op.explanation
    metadata := edge.metadata
    writePolicy := if accepted then .acceptedEdge else op.writePolicy
    status := if accepted then .accepted else op.status }

def normalizeWeight (spec : EdgeKindSpec) (op : RelationClaimOp) : RelationClaimOp :=
  { op with
    weight :=
      if !spec.weightAllowed then none
      else if op.weight.isNone && spec.weightRequired then
        some (min 1 (max (1 / 20) op.confidence))
      else op.weight }

def canAutoAccept (op : RelationClaimOp) : Bool :=
  decide (op.edgeKind.text ∉
    ["supports", "same_issue_as", "analogous_to", "co_occurs_with", "alternative_to"])

def hasEvidence (op : RelationClaimOp) : Bool :=
  !op.evidenceEventIds.isEmpty || !op.evidenceModelIds.isEmpty || !isBlank op.evidenceText ||
    !isBlank op.explanation

/-- The binding, the policy and the status at the end of `_validate_relation_claim_op`. -/
def settle (op : RelationClaimOp) : RelationClaimOp :=
  let bound := op.endpoints.isSome
  let vague := Entry.isText op.metadata "review_status_downgraded_by" "edge_specificity_guard"
  let binds := bound && decide (op.endpointBindingStatus ≠ .bound)
  let rebound :=
    { op with
      endpointBindingStatus := if binds then .bound else op.endpointBindingStatus
      bindingConfidence := if binds then max op.bindingConfidence (4 / 5) else op.bindingConfidence }
  if vague ∧ op.writePolicy = .acceptedEdge then
    { rebound with writePolicy := .needsReview, status := .needsReview }
  else if bound ∧ (op.writePolicy = .candidate ∨ op.writePolicy = .needsReview) ∧
      autoAcceptMinConfidence ≤ op.confidence ∧ ¬ vague ∧ canAutoAccept op ∧ hasEvidence op then
    { rebound with writePolicy := .acceptedEdge, status := .accepted }
  else if op.writePolicy = .acceptedEdge then { rebound with status := .accepted }
  else if op.status = .accepted then { rebound with status := .candidate }
  else rebound

def checkRelationClaimShape (op : RelationClaimOp) : Except ValidatorError Unit := do
  refuseIf (strip op.predicate = "") "relation_claim_op requires predicate"
  refuseIf (strip op.edgeKind.text = "") "relation_claim_op requires edge_kind"
  refuseIf (!inUnit op.confidence) "relation_claim_op confidence must be in [0, 1]"
  refuseIf (!inUnit op.bindingConfidence) "relation_claim_op binding_confidence must be in [0, 1]"
  refuseIf (op.sourceModelId.isSome && op.sourceModelId == op.targetModelId)
    "relation_claim_op cannot use same source/target model"
  refuseIf (decide (op.writePolicy = .acceptedEdge) && op.endpoints.isNone)
    "accepted relation claim requires bound endpoints"
  refuseIf (decide (op.endpointBindingStatus = .bound) && op.endpoints.isNone)
    "bound relation claim requires source and target models"

def bindRelationClaim (tenantId : Nat) (pending : List Nat) (op : RelationClaimOp) : Except
    ValidatorError RelationClaimOp :=
  match op.endpoints with
  | none => .ok op
  | some (source, target) => do
    let endpoints := [source, target]
    refuseMissing "relation_claim_op" (missingModels db tenantId pending endpoints)
    refuseInactive "accepted relation claim requires active model endpoints"
      (inactiveModels db tenantId endpoints)
    let verified := endpoints.all fun modelId => (tenantModel db tenantId modelId).isSome
    return canonicalizeRelationClaim rules db op source target verified

def validateRelationClaimOp (tenantId : Nat) (pending : List Nat) (given : RelationClaimOp) : Except
    ValidatorError (Option RelationClaimOp) := do
  checkRelationClaimShape given
  let bound ← bindRelationClaim rules db tenantId pending given
  let spec ← ofModelError (Models.resolveEdgeKindSpec db.models tenantId bound.edgeKind)
  let op := normalizeWeight spec bound
  ofModelError (Models.validateWeightForSpec spec op.weight)
  refuseIf (decide (op.writePolicy ≠ .noEdge) && !hasEvidence op)
    "relation_claim_op requires evidence or explanation"
  return some (settle op)

def isRoleChar (letter : Char) : Bool :=
  letter.isLower || letter.isDigit || letter == '_'

def collapse : List Char → List Char
  | '_' :: '_' :: rest => collapse ('_' :: rest)
  | letter :: rest => letter :: collapse rest
  | [] => []

def normalizeRelationRole (value : String) : String :=
  let letters := (rules.lower (strip value)).toList.map fun letter =>
    if isRoleChar letter then letter else '_'
  let joined := (collapse letters).dropWhile (· == '_')
  String.ofList (((joined.reverse.dropWhile (· == '_')).reverse).take 80)

def checkParticipant (participant : RelationFrameParticipantOp) :
    Except ValidatorError RelationFrameParticipantOp := do
  let role := normalizeRelationRole rules participant.role
  refuseIf (role = "") "relation_frame_op participant requires role"
  refuseIf (!inUnit participant.bindingConfidence)
    "relation_frame_op participant binding_confidence must be in [0, 1]"
  return { participant with role }

def checkParticipants : List (Nat × String) → List RelationFrameParticipantOp →
    Except ValidatorError (List RelationFrameParticipantOp)
  | _, [] => .ok []
  | seen, participant :: rest => do
    let checked ← checkParticipant rules participant
    let key := (checked.modelId, checked.role)
    refuseIf (key ∈ seen) "duplicate relation_frame_op participant"
    let others ← checkParticipants (key :: seen) rest
    return checked :: others

/-- The status and the binding at the end of `_validate_relation_frame_op`. -/
def settleFrame (op : RelationFrameOp) : RelationFrameOp :=
  if op.writePolicy = .projectEdges then
    { op with participantBindingStatus := .bound, status := .accepted }
  else if op.status = .accepted then { op with status := .candidate }
  else op

def validateRelationFrameOp (tenantId : Nat) (pending : List Nat) (op : RelationFrameOp) : Except
    ValidatorError (Option RelationFrameOp) := do
  let relationKind := normalizeRelationRole rules op.relationKind
  refuseIf (relationKind = "") "relation_frame_op requires relation_kind"
  refuseIf (decide (op.participants.length < 2))
    "relation_frame_op requires at least two participants"
  refuseIf (decide (12 < op.participants.length)) "relation_frame_op cannot exceed 12 participants"
  refuseIf (!inUnit op.confidence) "relation_frame_op confidence must be in [0, 1]"
  let participants ← checkParticipants rules [] op.participants
  let modelIds := (participants.map RelationFrameParticipantOp.modelId).eraseDups
  refuseIf (decide (modelIds.length < 2)) "relation_frame_op requires at least two distinct models"
  refuseMissing "relation_frame_op" (missingModels db tenantId pending modelIds)
  refuseInactive "relation_frame_op requires active model participants"
    (inactiveModels db tenantId modelIds)
  return some (settleFrame { op with relationKind, participants })

/-- `[a-z][a-z0-9_]{2,63}` -/
def isSnakeCase (text : String) : Bool :=
  match text.toList with
  | first :: rest =>
    first.isLower && decide (2 ≤ rest.length ∧ rest.length ≤ 63) && rest.all isRoleChar
  | [] => false

def edgeKindOfText (text : String) : EdgeKind :=
  match RegistryKind.all.find? fun kind => kind.text == text with
  | some kind => .registry kind
  | none =>
    if hnew : text ∉ RegistryKind.all.map RegistryKind.text then .dynamic ⟨text, hnew⟩
    else .registry .supports

def isEdgeKindWritable (tenantId : Nat) (kind : EdgeKind) : Bool :=
  (Models.resolveEdgeKindSpec db.models tenantId kind).isOk

def checkFallbackKind (label : String) (kind : Option String) : Except ValidatorError Unit :=
  refuseIf (kind.any fun kind => decide (strip kind ∉ RegistryKind.all.map RegistryKind.text))
    ("ontology_gap_op " ++ label ++ " fallback edge kind is not registered")

def checkGapShape (tenantId : Nat) (op : OntologyGapOp) : Except ValidatorError Unit := do
  let proposed := strip op.proposedEdgeKind
  refuseIf (op.sourceModelId = op.targetModelId) "ontology_gap_op self-edge example not allowed"
  refuseIf (!isSnakeCase proposed) "ontology_gap_op proposed_edge_kind must be snake_case"
  refuseIf (isEdgeKindWritable db tenantId (edgeKindOfText proposed))
    "ontology_gap_op proposed_edge_kind already exists; use edge_ops"
  refuseIf (decide ((strip op.description).length < 12)) "ontology_gap_op requires a description"
  refuseIf (decide ((strip op.relationshipSummary).length < 12))
    "ontology_gap_op requires relationship_summary"
  refuseIf (op.droppedDimensions.all fun dimension => strip dimension = "")
    "ontology_gap_op requires dropped_dimensions explaining semantic loss"
  checkFallbackKind "parent_kind" op.parentKind
  checkFallbackKind "nearest_existing_kind" op.nearestExistingKind
  match op.scores.find? fun score => !inUnit score.2 with
  | some (label, _) =>
    .error (.validationError ("ontology_gap_op " ++ label ++ " score must be in [0, 1]"))
  | none => return ()

def validateOntologyGapOp (tenantId : Nat) (pending : List Nat) (op : OntologyGapOp) : Except
    ValidatorError (Option OntologyGapOp) := do
  checkGapShape db tenantId op
  refuseMissing "ontology_gap_op" (missingModels db tenantId pending
    (op.sourceModelId :: op.targetModelId :: op.evidenceModelIds))
  refuseInactive "ontology_gap_op requires active model endpoints"
    (inactiveModels db tenantId [op.sourceModelId, op.targetModelId])
  return some { op with
    proposedEdgeKind := strip op.proposedEdgeKind
    description := strip op.description
    relationshipSummary := strip op.relationshipSummary
    droppedDimensions := (op.droppedDimensions.map strip).filter (· ≠ "") }

end

end FyralisCore.Think.Validator
