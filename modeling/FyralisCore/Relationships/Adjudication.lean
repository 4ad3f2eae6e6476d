import FyralisCore.Ingestion.Summaries
import FyralisCore.Relationships.Candidates

/-! The adjudication of the candidates a Think run was triggered by
(`adjudication.py`): what the diff has applied decides each of them. -/
namespace FyralisCore.Relationships

open Relational Transaction ReadCommitted
open Acts (Json strip)
open Models (EdgeKind isTruthyAt)
open Ingestion.Summaries (stringAt)

/-- An entry of `applied["edge_ops"]`, its identifiers coerced. -/
structure EdgeSummary where
  op : String
  reviewStatus : Option String := none
  edgeKind : Option String := none
  sourceModelId : Option Nat := none
  targetModelId : Option Nat := none
  edgeIds : List Nat := []

structure RelationClaimSummary where
  writePolicy : Option String := none
  status : Option String := none
  edgeKind : Option String := none
  sourceModelId : Option Nat := none
  targetModelId : Option Nat := none

/-- The lists of `applied`; of those that are only counted, the lengths. -/
structure Applied where
  edgeOps : List EdgeSummary := []
  /-- `model_id` of each applied claim. -/
  claimOps : List (Option Nat) := []
  relationClaimOps : List RelationClaimSummary := []
  memoryLifecycleOps : Nat := 0
  relationFrameOps : Nat := 0
  ontologyGapOps : Nat := 0
  actOps : Nat := 0
  resourceOps : Nat := 0

structure ClaimOp where
  op : String
  entry : Option Fields := none

structure Diff where
  claimOps : List ClaimOp := []
  droppedOpCount : Nat := 0
  droppedOpErrors : List String := []

def isNonBlankAt (fields : Fields) (key : String) : Bool :=
  (stringAt fields key).any fun text => strip text ≠ ""

def hasMechanism (metadata : Fields) : Bool :=
  isNonBlankAt metadata "mechanism" ||
    (dictAt metadata "causal").any fun causal => isNonBlankAt causal "mechanism_summary"

def hasDependencyBasis (metadata : Fields) : Bool :=
  isTruthyAt metadata "dependency_basis" ||
    (dictAt metadata "rule").any fun rule => isTruthyAt rule "dependency_basis"

def hasLeadTimeEvidence (metadata : Fields) : Bool :=
  isTruthyAt metadata "lead_time_evidence" || isTruthyAt metadata "historical_basis" ||
    (dictAt metadata "rule").any fun rule =>
      isTruthyAt rule "lead_time_evidence" || isTruthyAt rule "historical_basis"

def structuralRequirements : EdgeKind → List (String × (Fields → Bool))
  | .registry .blocks =>
    [("mechanism_or_dependency_basis", fun md => hasMechanism md || hasDependencyBasis md)]
  | .registry .earlyWarningFor =>
    [("lead_time_evidence_or_historical_basis", hasLeadTimeEvidence)]
  | .registry .explains => [("mechanism", hasMechanism)]
  | .registry .enables => [("mechanism", hasMechanism)]
  | _ => []

def structuralMissingFields (edgeKind : Option EdgeKind) (metadata : Fields) : List String :=
  match edgeKind with
  | none => []
  | some kind =>
    ((structuralRequirements kind).filter fun requirement => !requirement.2 metadata).map Prod.fst

section

variable (candidate : CandidateRow)

def candidateMemberSet : List Nat :=
  candidate.memberModelIds ++ candidate.sourceModelId.toList ++ candidate.targetModelId.toList

def joinsMembers (source target : Option Nat) : Bool :=
  match source, target with
  | some left, some right =>
    left ∈ candidateMemberSet candidate ∧ right ∈ candidateMemberSet candidate
  | _, _ => false

def differsInKind (edgeKind : Option String) : Bool :=
  (Models.truthyKind candidate.edgeKind).any fun kind => edgeKind ≠ some kind.text

def acceptedEdgeIds (applied : Applied) : List Nat :=
  (applied.edgeOps.filter fun summary =>
    summary.op = "add" ∧ summary.reviewStatus.all (· = "accepted") ∧
    !differsInKind candidate summary.edgeKind ∧
    joinsMembers candidate summary.sourceModelId summary.targetModelId).flatMap
      EdgeSummary.edgeIds

end

def memberIds (rules : RelationRules) : Json → Except RelationError (List Nat)
  | .array items => .ok (items.filterMap fun
    | .string text => rules.uuid text
    | _ => none)
  | .object fields => .ok (fields.filterMap fun field => rules.uuid field.1)
  | .string _ => .ok []
  | value => .error (.notIterable value)

def memberField (first second : Fields) : Json :=
  (((first.lookup "member_model_ids").filter Models.truthy).or
    ((second.lookup "member_model_ids").filter Models.truthy)).getD (.array [])

def situationPressureTypes : List String :=
  ["capacity", "trust", "revenue", "compliance", "decision", "execution", "market", "resource"]

def validateSituationFields (proposition : Fields) : List String :=
  (if (stringAt proposition "pressure_type").any (· ∈ situationPressureTypes) then []
    else ["pressure_type"]) ++
  (if isNonBlankAt proposition "shared_mechanism" then [] else ["shared_mechanism"])

/-- `_accepted_situation` from this claim on: the model of the first situation that
has all the members, and the fields it lacks. -/
def acceptedSituationFrom (rules : RelationRules) (members : List Nat) :
    List ClaimOp → List (Option Nat) → Except RelationError (Option Nat × List String)
  | [], _ => .ok (none, [])
  | claim :: rest, summaries =>
    let others := acceptedSituationFrom rules members rest summaries.tail
    match claim.op, claim.entry with
    | "insert", some entry =>
      match ((entry.lookup "proposition").filter Models.truthy).getD (.object []) with
      | .object proposition =>
        if Models.claimRole (.object proposition) ≠ .situation then others
        else do
          let found ← memberIds rules (memberField proposition entry)
          if members.all (· ∈ found) then
            match summaries with
            | [] => others
            | modelId :: _ => return (modelId, validateSituationFields proposition)
          else others
      | _ => others
    | _, _ => others

def acceptedSituation (rules : RelationRules) (candidate : CandidateRow) (diff : Diff)
    (applied : Applied) : Except RelationError (Option Nat × List String) :=
  let members := candidate.memberModelIds.eraseDups
  if members.length < 2 then .ok (none, [])
  else acceptedSituationFrom rules members diff.claimOps applied.claimOps

def hasNeedsReviewEdge (candidate : CandidateRow) (applied : Applied) : Bool :=
  (applied.edgeOps.any fun summary =>
    summary.op = "add" ∧
    (summary.reviewStatus = some "candidate" ∨ summary.reviewStatus = some "needs_review") ∧
    joinsMembers candidate summary.sourceModelId summary.targetModelId) ||
  applied.relationClaimOps.any fun summary =>
    (summary.writePolicy = some "candidate" ∨ summary.writePolicy = some "needs_review") ∧
    summary.status.all (fun status => status = "candidate" ∨ status = "needs_review") ∧
    !differsInKind candidate summary.edgeKind ∧
    joinsMembers candidate summary.sourceModelId summary.targetModelId

structure CandidateAdjudication where
  candidateId : Nat
  reviewStatus : CandidateStatus
  reason : String
  decisionReason : String
  acceptedModelId : Option Nat := none
  acceptedEdgeIds : List Nat := []
  metadata : Fields := []

def textOrNull (text : Option String) : Json := (text.map Json.string).getD .null

def Applied.opCount (applied : Applied) : Nat :=
  applied.claimOps.length + applied.memoryLifecycleOps + applied.relationClaimOps.length +
    applied.relationFrameOps + applied.edgeOps.length + applied.ontologyGapOps + applied.actOps +
    applied.resourceOps

/-- `_adjudicate` for a candidate of an edge kind the ontology lacks. -/
def adjudicateEdgeType (candidateId : Nat) (candidate : CandidateRow) : CandidateAdjudication where
  candidateId := candidateId
  reviewStatus := .needsReview
  reason := "edge_type_candidate_requires_ontology_promotion"
  decisionReason := "needs_review_unrelated_ops"
  metadata :=
    [("proposed_edge_kind",
        match candidate.proposedProposition with
        | some (.object proposal) => (proposal.lookup "proposed_edge_kind").getD .null
        | _ => .null),
      ("promotion_surface", .string "ontology_gap")]

def adjudicateEdges (candidateId : Nat) (candidate : CandidateRow) (edgeIds : List Nat) :
    CandidateAdjudication :=
  let edgeKind := textOrNull (candidate.edgeKind.map EdgeKind.text)
  let missing :=
    structuralMissingFields (Models.truthyKind candidate.edgeKind) candidate.metadata
  if missing ≠ [] then
    { candidateId
      reviewStatus := .needsReview
      reason := "think_applied_edge_without_structural_justification"
      decisionReason := "needs_review_missing_mechanism"
      acceptedEdgeIds := edgeIds
      metadata :=
        [("edge_kind", edgeKind), ("missing_fields", .array (missing.map Json.string))] }
  else
    { candidateId
      reviewStatus := .accepted
      reason := "think_promoted_candidate_to_durable_memory"
      decisionReason := "accepted_with_justification"
      acceptedEdgeIds := edgeIds
      metadata := [("edge_kind", edgeKind)] }

def adjudicateSituation (candidateId modelId : Nat) (missing : List String) :
    CandidateAdjudication :=
  if missing ≠ [] then
    { candidateId
      reviewStatus := .needsReview
      reason := "situation_model_missing_required_fields"
      decisionReason := "needs_review_situation_missing_fields"
      acceptedModelId := some modelId
      metadata := [("missing_fields", .array (missing.map Json.string))] }
  else
    { candidateId
      reviewStatus := .accepted
      reason := "think_promoted_candidate_to_durable_memory"
      decisionReason := "accepted_with_justification"
      acceptedModelId := some modelId }

def adjudicateUnapplied (candidateId : Nat) (candidate : CandidateRow) (diff : Diff)
    (applied : Applied) : CandidateAdjudication :=
  if hasNeedsReviewEdge candidate applied || diff.droppedOpCount ≠ 0 then
    { candidateId
      reviewStatus := .needsReview
      reason :=
        if diff.droppedOpCount = 0 then "think_found_partial_or_uncertain_candidate_evidence"
        else "think_validation_dropped_candidate_ops"
      decisionReason :=
        if diff.droppedOpCount = 0 then "needs_review_partial_evidence"
        else "needs_review_dropped_ops"
      metadata :=
        [("dropped_op_count", .number (toString diff.droppedOpCount)),
          ("dropped_op_errors", .array ((diff.droppedOpErrors.take 5).map Json.string))] }
  else if applied.opCount = 0 then
    { candidateId
      reviewStatus := .rejected
      reason := "think_interpreted_candidate_as_noise_or_non_durable"
      decisionReason := "rejected_no_match" }
  else
    { candidateId
      reviewStatus := .needsReview
      reason := "think_applied_other_ops_without_directly_promoting_candidate"
      decisionReason := "needs_review_unrelated_ops" }

def adjudicate (rules : RelationRules) (candidateId : Nat) (candidate : CandidateRow) (diff : Diff)
    (applied : Applied) : Except RelationError CandidateAdjudication :=
  if candidate.candidateKind = .edgeType then .ok (adjudicateEdgeType candidateId candidate)
  else do
    let edgeIds := acceptedEdgeIds candidate applied
    let (modelId, missing) ← acceptedSituation rules candidate diff applied
    if edgeIds ≠ [] then return adjudicateEdges candidateId candidate edgeIds
    else
      match modelId with
      | some modelId => return adjudicateSituation candidateId modelId missing
      | none => return adjudicateUnapplied candidateId candidate diff applied

def CandidateAdjudication.decisionMetadata (adjudication : CandidateAdjudication) : Fields :=
  Dict.update [("reason", .string adjudication.reason),
      ("decision_reason", .string adjudication.decisionReason),
      ("accepted_edge_ids", idTexts adjudication.acceptedEdgeIds),
      ("accepted_model_id", textOrNull (adjudication.acceptedModelId.map toString))]
    adjudication.metadata

def adjudicateCandidates (rules : RelationRules) (now tenantId : Nat) (diff : Diff)
    (applied : Applied) : List Nat → RelationTx (List CandidateAdjudication)
  | [] => .done []
  | candidateId :: rest => do
    match ← getCandidate candidateId tenantId with
    | none => adjudicateCandidates rules now tenantId diff applied rest
    | some candidate =>
      let adjudication ← Tx.ofExcept (adjudicate rules candidateId candidate diff applied)
      let _ ← markDecided now candidateId tenantId
        { reviewStatus := adjudication.reviewStatus
          acceptedModelId := adjudication.acceptedModelId
          acceptedEdgeIds := adjudication.acceptedEdgeIds
          decisionMetadata := adjudication.decisionMetadata }
      let others ← adjudicateCandidates rules now tenantId diff applied rest
      return adjudication :: others

inductive RelationCall where
  /-- The promotion of the weekly maintenance. -/
  | promote (now : Nat) (args : PromotionArgs)
  /-- The end of a Think run. -/
  | adjudicate (now tenantId : Nat) (candidateIds : List Nat) (diff : Diff) (applied : Applied)

def relationProgram (rules : RelationRules) : RelationCall → RelationTx Unit
  | .promote now args => (promoteHighConfidenceEdges rules args now).bind fun _ => .done ()
  | .adjudicate now tenantId candidateIds diff applied =>
    (adjudicateCandidates rules now tenantId diff applied candidateIds.eraseDups).bind
      fun _ => .done ()

def relationSchema (rules : RelationRules) :
    Schema RelationDb RelationWrite Nat RelationError RelationCall where
  apply := RelationDb.apply
  program := relationProgram rules

end FyralisCore.Relationships
