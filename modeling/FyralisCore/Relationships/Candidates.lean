import FyralisCore.Lib.Dict
import FyralisCore.Lib.Part
import FyralisCore.Lib.ReadCommitted
import FyralisCore.Models.Insert

/-! Relationship candidates (`relationships/repo.py`, `promoter.py`,
`adjudication.py`, migrations 0044 and 0119) and the two transactions that
decide them: the housekeeper's promotion and the adjudication at the end of a
Think run. -/
namespace FyralisCore.Relationships

open Relational Transaction ReadCommitted
open Acts (Json)
open Models (EdgeKind EdgeKindSpec ModelDb ModelError ModelTx)

inductive CandidateKind where
  | edge
  | situation
  | edgeType
  deriving DecidableEq

inductive Basis where
  | observed
  | inferred
  | correlated
  | topologySuggested
  | causalHypothesis
  | causalConfirmed
  | ontologyGap
  deriving DecidableEq

def Basis.text : Basis → String
  | .observed => "observed"
  | .inferred => "inferred"
  | .correlated => "correlated"
  | .topologySuggested => "topology_suggested"
  | .causalHypothesis => "causal_hypothesis"
  | .causalConfirmed => "causal_confirmed"
  | .ontologyGap => "ontology_gap"

inductive CandidateStatus where
  | candidate
  | needsReview
  | accepted
  | rejected
  | contested
  | retired
  deriving DecidableEq

abbrev Fields := List (String × Json)

structure CandidateRow where
  tenantId : Nat
  candidateKind : CandidateKind
  basis : Basis
  sourceModelId : Option Nat := none
  targetModelId : Option Nat := none
  edgeKind : Option EdgeKind := none
  memberModelIds : List Nat := []
  evidenceEventIds : List Nat := []
  evidenceModelIds : List Nat := []
  proposedProposition : Option Json := none
  explanation : String
  uncertaintyScore : ℚ := 0
  confidenceScore : ℚ := 0
  judgmentLeverageScore : ℚ := 0
  source : String := "relationship_candidate_service"
  reviewStatus : CandidateStatus := .candidate
  acceptedModelId : Option Nat := none
  acceptedEdgeIds : List Nat := []
  createdAt : Nat
  decidedAt : Option Nat := none
  expiresAt : Option Nat := none
  metadata : Fields := []

structure RelationDb where
  models : ModelDb := {}
  candidates : Table Nat CandidateRow := ∅

structure Decision where
  reviewStatus : CandidateStatus
  acceptedModelId : Option Nat := none
  acceptedEdgeIds : List Nat := []
  decisionMetadata : Fields

inductive RelationWrite where
  /-- A write of `link`, made for a candidate. -/
  | edge (candidateId : Nat) (change : ModelDb → ModelDb)
  | retire (candidateId now : Nat)
  | decide (candidateId now : Nat) (decision : Decision)

def CandidateRow.retired (now : Nat) (row : CandidateRow) : CandidateRow :=
  { row with
    reviewStatus := .retired
    decidedAt := some now
    metadata := Dict.update row.metadata [("retired_reason", .string "expired")] }

def CandidateStatus.isDecision : CandidateStatus → Bool
  | .accepted | .rejected | .contested | .retired => true
  | .candidate | .needsReview => false

def CandidateRow.decided (now : Nat) (decision : Decision) (row : CandidateRow) : CandidateRow :=
  { row with
    reviewStatus := decision.reviewStatus
    acceptedModelId := decision.acceptedModelId
    acceptedEdgeIds := decision.acceptedEdgeIds
    metadata :=
      Dict.update row.metadata [("latest_adjudication", .object decision.decisionMetadata)]
    decidedAt := if decision.reviewStatus.isDecision then some now else row.decidedAt }

def RelationDb.apply (db : RelationDb) : RelationWrite → RelationDb
  | .edge _ change => { db with models := change db.models }
  | .retire candidateId now =>
    { db with candidates := db.candidates.update candidateId (CandidateRow.retired now) }
  | .decide candidateId now decision =>
    { db with candidates := db.candidates.update candidateId (CandidateRow.decided now decision) }

inductive RelationError where
  | model (error : ModelError)
  | invalidStatus (status : CandidateStatus)
  /-- `int` of a value that is no number. -/
  | notInt (value : Json)
  /-- A loop over a value that is no sequence. -/
  | notIterable (value : Json)

abbrev RelationTx := Tx RelationDb RelationWrite Nat RelationError

structure RelationRules where
  /-- `int(value)`, if it is one. -/
  int : Json → Option Int
  /-- `UUID(text)`, if it is one. -/
  uuid : String → Option Nat
  /-- `f"{type(exc).__name__}:{exc}"` -/
  describe : RelationError → String

def forCandidate {α : Type} (candidateId : Nat) : ModelTx α → RelationTx α
  | .done value => .done value
  | .raise error => .raise (.model error)
  | .statement _ writes next =>
    .statement (fun _ => none) (fun db => (writes db.models).map (.edge candidateId))
      fun db => forCandidate candidateId (next db.models)
  | .mint next => .mint fun id => forCandidate candidateId (next id)

/-! ### `RelationshipCandidatesRepo` -/

def getCandidate (candidateId tenantId : Nat) : RelationTx (Option CandidateRow) :=
  Tx.read fun db => (db.candidates.get candidateId).filter (·.tenantId = tenantId)

/-- `mark_decided`. The UPDATE finds its row and locks it, and writes the row it
has locked. -/
def markDecided (now candidateId tenantId : Nat) (decision : Decision) :
    RelationTx (Option CandidateRow) := do
  Tx.ensure (decision.reviewStatus ≠ .candidate) (.invalidStatus decision.reviewStatus)
  let found ← Tx.readLocking
    (fun db => ((db.candidates.get candidateId).filter (·.tenantId = tenantId)).map
      fun _ => candidateId)
    fun db => (db.candidates.get candidateId).filter (·.tenantId = tenantId)
  match found with
  | none => return none
  | some row =>
    Tx.query (fun _ => none) fun _ =>
      .ok ([.decide candidateId now decision], some (row.decided now decision))

/-! ### `promote_high_confidence_edges` -/

def CandidateStatus.isUndecided : CandidateStatus → Bool
  | .candidate | .needsReview | .contested => true
  | .accepted | .rejected | .retired => false

def CandidateRow.isExpired (row : CandidateRow) (tenantId now : Nat) : Bool :=
  row.tenantId = tenantId ∧ row.reviewStatus.isUndecided ∧ row.expiresAt.any (· ≤ now)

def retireEach (tenantId now : Nat) : List Nat → RelationTx Nat
  | [] => .done 0
  | candidateId :: rest => do
    let expired := fun (db : RelationDb) =>
      (db.candidates.get candidateId).any (·.isExpired tenantId now)
    let count ← Tx.query (fun db => if expired db then some candidateId else none) fun db =>
      if expired db then .ok ([.retire candidateId now], 1) else .ok ([], 0)
    let others ← retireEach tenantId now rest
    return count + others

def retireExpiredCandidates (tenantId now : Nat) : RelationTx Nat := do
  let candidateIds ← Tx.read fun db =>
    (db.candidates.rows.filter fun entry => entry.2.isExpired tenantId now).map Prod.fst
  retireEach tenantId now candidateIds

structure PromotionArgs where
  tenantId : Nat
  limit : Int := 50
  minConfidence : ℚ := 8 / 10
  minLeverage : ℚ := 75 / 100
  maxUncertainty : ℚ := 5 / 10

def edgeIntelligenceSource : String := "edge_intelligence_kernel"
def edgeIntelligenceMinConfidence : ℚ := 7 / 10
def edgeIntelligenceMinLeverage : ℚ := 5 / 10
def edgeIntelligenceMaxUncertainty : ℚ := 55 / 100

def edgeIntelligencePreciseKinds : List EdgeKind :=
  [.registry .blocks, .registry .causes, .registry .contributesToResolution,
    .registry .contradicts, .registry .earlyWarningFor, .registry .enables, .registry .explains,
    .registry .weakens]

def CandidateRow.isPromotable (row : CandidateRow) (args : PromotionArgs) (now : Nat) : Bool :=
  row.tenantId = args.tenantId ∧ row.candidateKind = .edge ∧
  (row.reviewStatus = .candidate ∨ row.reviewStatus = .needsReview) ∧
  (row.basis = .observed ∨ row.basis = .causalConfirmed) ∧
  row.sourceModelId.isSome ∧ row.targetModelId.isSome ∧ row.edgeKind.isSome ∧
  min args.minConfidence edgeIntelligenceMinConfidence ≤ row.confidenceScore ∧
  min args.minLeverage edgeIntelligenceMinLeverage ≤ row.judgmentLeverageScore ∧
  row.uncertaintyScore ≤ max args.maxUncertainty edgeIntelligenceMaxUncertainty ∧
  row.expiresAt.all (now < ·)

def CandidateRow.precedes (row other : CandidateRow) : Bool :=
  other.judgmentLeverageScore < row.judgmentLeverageScore ∨
  other.judgmentLeverageScore = row.judgmentLeverageScore ∧
    (other.confidenceScore < row.confidenceScore ∨
      other.confidenceScore = row.confidenceScore ∧ row.createdAt ≤ other.createdAt)

def promotableCandidates (args : PromotionArgs) (now : Nat) (db : RelationDb) :
    List (Nat × CandidateRow) :=
  ((db.candidates.rows.filter fun entry => entry.2.isPromotable args now).mergeSort
    fun entry other => entry.2.precedes other.2).take (max 1 args.limit).toNat

def dictAt (fields : Fields) (key : String) : Option Fields :=
  match fields.lookup key with
  | some (.object inner) => some inner
  | _ => none

section

variable (rules : RelationRules)

def countAt (counts : Fields) (key : String) : Except RelationError Int :=
  match (counts.lookup key).filter Models.truthy with
  | none => .ok 0
  | some value =>
    match rules.int value with
    | some count => .ok count
    | none => .error (.notInt value)

def isDirectEdgeIntelligenceCandidate (row : CandidateRow) : Except RelationError Bool :=
  if row.source ≠ edgeIntelligenceSource then .ok false
  else if row.edgeKind.all (· ∉ edgeIntelligencePreciseKinds) then .ok false
  else if row.confidenceScore < edgeIntelligenceMinConfidence then .ok false
  else if row.judgmentLeverageScore < edgeIntelligenceMinLeverage then .ok false
  else if edgeIntelligenceMaxUncertainty < row.uncertaintyScore then .ok false
  else
    match (dictAt row.metadata "edge_intelligence").bind (dictAt · "counts") with
    | none => .ok false
    | some counts => do
      let explicit ← countAt rules counts "explicit_relation"
      let coUsed ← countAt rules counts "co_used_valid_diff"
      let thinkEdge ← countAt rules counts "think_edge_op"
      let t4Accept ← countAt rules counts "t4_accept"
      return 0 < explicit ∧ 0 < coUsed ∧ (0 < thinkEdge ∨ 0 < t4Accept)

def passesPromotionGate (args : PromotionArgs) (row : CandidateRow) : Except RelationError Bool :=
  if args.minConfidence ≤ row.confidenceScore ∧ args.minLeverage ≤ row.judgmentLeverageScore ∧
      row.uncertaintyScore ≤ args.maxUncertainty then .ok true
  else isDirectEdgeIntelligenceCandidate rules row

def candidateWeight (row : CandidateRow) (spec : EdgeKindSpec) : Option ℚ :=
  if spec.weightAllowed then
    some (max (1 / 10) (min 1 ((row.confidenceScore + row.judgmentLeverageScore) / 2)))
  else none

def promotionLink (tenantId candidateId : Nat) (row : CandidateRow) (source target : Nat)
    (kind : EdgeKind) (spec : EdgeKindSpec) : Models.EdgeLink where
  source := source
  target := target
  kind := kind
  tenantId := tenantId
  detectedBy := "link_miner"
  weight := candidateWeight row spec
  metadata := Dict.update
    [("relationship_candidate_id", .string (toString candidateId)),
      ("basis", .string row.basis.text),
      ("promotion", .string "high_confidence_housekeeper")] row.metadata
  confidence := row.confidenceScore
  evidenceEventIds := some row.evidenceEventIds
  evidenceModelIds := some row.evidenceModelIds
  explanation := some row.explanation
  reviewStatus := "accepted"

def idTexts (ids : List Nat) : Json := .array (ids.map fun id => .string (toString id))

/-- The body of the loop: the edges of a candidate that is promoted, none for one
that does not pass. -/
def promoteCandidate (args : PromotionArgs) (now candidateId : Nat) (row : CandidateRow) :
    RelationTx (Option (List Nat)) := do
  let passes ← Tx.ofExcept (passesPromotionGate rules args row)
  if passes then
    match row.sourceModelId, row.targetModelId, row.edgeKind with
    | some source, some target, some kind =>
      let spec ← forCandidate candidateId (Models.ask fun db =>
        Models.resolveEdgeKindSpec db args.tenantId kind)
      let edgeIds ← forCandidate candidateId (Models.link now
        (promotionLink args.tenantId candidateId row source target kind spec))
      let _ ← markDecided now candidateId args.tenantId
        { reviewStatus := .accepted
          acceptedEdgeIds := edgeIds
          decisionMetadata :=
            [("reason", .string "high_confidence_housekeeper_promotion"),
              ("promoted_edge_ids", idTexts edgeIds)] }
      return some edgeIds
    -- the SELECT leaves no such row
    | _, _, _ => return none
  else
    return none

end

structure PromotionReport where
  promotedCandidates : Nat := 0
  promotedEdgeIds : List Nat := []
  retiredStaleCandidates : Nat := 0
  failedCandidates : Nat := 0
  errors : List String := []

/-- A candidate that fails is marked. PostgreSQL refuses this after an SQL error; here the run goes
on. -/
def promoteEach (rules : RelationRules) (args : PromotionArgs) (now : Nat)
    (report : PromotionReport) : List (Nat × CandidateRow) → RelationTx PromotionReport
  | [] => .done report
  | (candidateId, row) :: rest => do
    match ← Tx.attempt (promoteCandidate rules args now candidateId row) with
    | .ok none => promoteEach rules args now report rest
    | .ok (some edgeIds) =>
      promoteEach rules args now
        { report with
          promotedCandidates := report.promotedCandidates + 1
          promotedEdgeIds := report.promotedEdgeIds ++ edgeIds } rest
    | .error error =>
      let _ ← markDecided now candidateId args.tenantId
        { reviewStatus := .needsReview
          decisionMetadata :=
            [("reason", .string "housekeeper_promotion_failed"),
              ("error", .string (rules.describe error))] }
      promoteEach rules args now
        { report with
          failedCandidates := report.failedCandidates + 1
          errors := report.errors ++ [toString candidateId ++ ":" ++ rules.describe error] } rest

def promoteHighConfidenceEdges (rules : RelationRules) (args : PromotionArgs) (now : Nat) :
    RelationTx PromotionReport := do
  let retired ← retireExpiredCandidates args.tenantId now
  let rows ← Tx.read (promotableCandidates args now)
  promoteEach rules args now { retiredStaleCandidates := retired } rows

end FyralisCore.Relationships
