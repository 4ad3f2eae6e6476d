import FyralisCore.Lib.Part
import FyralisCore.Models.Insert
import FyralisCore.Observations.StateChange

/-! Pattern candidates (`services/workers/precipitation/proposer.py`): their
proposal, their promotion to a pattern model, their rejection, and the branch of
the deterministic Think handler that reviews one
(`services/reasoning/think/deterministic.py`). -/
namespace FyralisCore.Precipitation

open Relational Transaction Models
open Acts (Json)

structure CandidateRow where
  tenantId : Nat
  proposedSignature : Json
  observedTendency : Json
  constituentModelIds : List Nat
  clusterSize : Nat
  density : Rat
  promotedAt : Option Nat := none
  promotedPatternModelId : Option Nat := none
  rejectedAt : Option Nat := none
  rejectionReason : Option String := none

structure PrecipitationDb where
  acts : Acts.Db := {}
  models : ModelDb := {}
  candidates : Table Nat CandidateRow := ∅
  /-- The models whose `embedding` is not null. -/
  embedded : List Nat := []

inductive PrecipitationError where
  | validationError (message : String)
  /-- An exception of the language, and those of pydantic. -/
  | python (name : String)
  | uniqueViolation (constraint : String)
  | checkViolation (constraint : String)
  | model (error : ModelError)
  | act (error : Acts.ActError)

abbrev PrecipitationTx (α : Type) : Type :=
  Tx PrecipitationDb (PrecipitationDb → PrecipitationDb) Empty PrecipitationError α

def actsPart : Part PrecipitationDb Acts.Db.apply where
  view := PrecipitationDb.acts
  put db acts := { db with acts }
  put_view _ := rfl
  put_put _ _ _ := rfl
  view_put _ _ := rfl

def modelsPart : Part PrecipitationDb ModelDb.apply where
  view := PrecipitationDb.models
  put db models := { db with models }
  put_view _ := rfl
  put_put _ _ _ := rfl
  view_put _ _ := rfl

def onModels {α : Type} (body : ModelTx α) : PrecipitationTx α := body.onPart modelsPart .model

def execute (write : PrecipitationDb → PrecipitationDb) : PrecipitationTx Unit :=
  .query (fun _ => none) fun _ => .ok ([write], ())

structure Cluster where
  tenantId : Nat
  members : List Nat
  density : Rat
  proposedSignature : Json
  observedTendency : Json

def Cluster.row (cluster : Cluster) : CandidateRow where
  tenantId := cluster.tenantId
  proposedSignature := cluster.proposedSignature
  observedTendency := cluster.observedTendency
  constituentModelIds := cluster.members.insertionSort (· ≤ ·)
  clusterSize := cluster.members.length
  density := cluster.density

def Cluster.covers (cluster : Cluster) (row : CandidateRow) : Bool :=
  row.tenantId = cluster.tenantId &&
    cluster.members.all (fun member => member ∈ row.constituentModelIds) &&
      row.constituentModelIds.length = cluster.members.length

/-- The INSERT of `write_candidates` with the constraints of its table. -/
def insertCandidate (id : Nat) (row : CandidateRow) : PrecipitationTx Unit :=
  .query (fun _ => none) fun db =>
    if (db.candidates.get id).isSome then .error (.uniqueViolation "pattern_candidates_pkey")
    else if row.clusterSize < 3 then
      .error (.checkViolation "pattern_candidates_cluster_size_check")
    else if row.density < 0 ∨ 1 < row.density then
      .error (.checkViolation "pattern_candidates_density_check")
    else .ok ([fun db => { db with candidates := db.candidates.put id row }], ())

def writeCandidate (cluster : Cluster) : PrecipitationTx Nat := do
  let existing ← Tx.read fun db =>
    (db.candidates.rows.find? fun entry => cluster.covers entry.2).map Prod.fst
  match existing with
  | some id => return id
  | none =>
    let newId ← Tx.newId
    insertCandidate newId cluster.row
    return newId

def writeCandidates (clusters : List Cluster) : PrecipitationTx (List Nat) :=
  Tx.mapEach clusters writeCandidate

/-- What a promotion takes from the rest of the program: what an insert takes, and
`construct_model`, from the proposition and the natural text to the canonical
proposition. -/
structure PromotionRules where
  insert : InsertRules
  construct : Json → String → Except PrecipitationError Json

def asDict : Json → Except PrecipitationError (List (String × Json))
  | .object fields => .ok fields
  | _ => .error (.python "AttributeError")

def naturalTendency (exemplars : Json) : Except PrecipitationError Json :=
  if truthy exemplars then
    match exemplars with
    | .array (first :: _) => .ok first
    | .string text => .ok (.string (String.ofList (text.toList.take 1)))
    | .object _ => .error (.python "KeyError")
    | _ => .error (.python "TypeError")
  else .ok (.string "pattern")

def patternProposition (signature tendency : Json) : Except PrecipitationError Json := do
  let fields ← asDict tendency
  let observed ← naturalTendency ((fields.lookup "exemplars").getD (.array [.string ""]))
  let count := fun key => (fields.lookup key).getD (.number "0")
  return .object
    [("kind", .string "pattern"), ("signature", signature), ("observed_tendency", observed),
      ("trigger_conditions", .object
        [("cluster_density", count "cluster_density"), ("cluster_size", count "cluster_size")])]

section

variable (rules : PromotionRules)

def patternNatural (signature : Json) (constituents : List Nat) : Except PrecipitationError String
    := do
  let fields ← asDict signature
  let kind := (fields.lookup "kind").getD (.string "cluster_signature")
  return "Pattern proposal: " ++ rules.insert.str kind ++ " across " ++
    toString constituents.length ++ " related Models"

/-- The `ModelCreate` of the pattern, once `construct_model` has made its
proposition canonical. -/
def patternModel (candidate : CandidateRow) (proposition : Json) (bornFromEventId : Nat)
    (patternConfidence : Rat) : ModelCreate where
  tenantId := candidate.tenantId
  bornFromEventId := bornFromEventId
  proposition := proposition
  confidence := patternConfidence
  supportingModelIds := candidate.constituentModelIds

/-- The relations of a constituent: the pattern is given as all of `instance_of`. -/
def instanceRelations (candidate : CandidateRow) (bornFromEventId patternId constituent : Nat) :
    RelationArgs where
  modelId := constituent
  tenantId := candidate.tenantId
  detectedBy := "precipitation"
  instanceOf := some [patternId]
  createdByEventId := some bornFromEventId

def pendingCandidate (candidateId : Nat) : PrecipitationTx CandidateRow :=
  .query (fun _ => none) fun db =>
    let named := "pattern_candidate " ++ toString candidateId
    match db.candidates.get candidateId with
    | none => .error (.validationError (named ++ " not found"))
    | some row =>
      if row.promotedAt.isSome then .error (.validationError (named ++ " already promoted"))
      else if row.rejectedAt.isSome then .error (.validationError (named ++ " already rejected"))
      else .ok ([], row)

/-- `_compute_centroid_embedding`, which needs one embedding. -/
def computeCentroidEmbedding (modelIds : List Nat) : PrecipitationTx Unit :=
  .require fun db =>
    if modelIds.any (fun id => (db.models.models.get id).isSome && id ∈ db.embedded) then none
    else some (.validationError "no embeddings found for pattern_candidate constituents")

/-- The bounds of `confidence` in `ModelCreate`. -/
def checkConfidence (confidence : Rat) : PrecipitationTx Unit :=
  .ensure (1 / 20 ≤ confidence ∧ confidence ≤ 19 / 20) (.python "ValidationError")

def checkConstituents (constituents : List Nat) : PrecipitationTx Unit :=
  .require fun db =>
    if constituents.all (fun id => (db.models.models.get id).isSome) then none
    else some (.model (.foreignKeyViolation "model_edges"))

def insertPattern (now : Nat) (proposed : ModelCreate) : PrecipitationTx Nat := do
  let patternId ← onModels (insertConstructed rules.insert now proposed)
  execute fun db => { db with embedded := patternId :: db.embedded }
  return patternId

def recordPromotion (now candidateId patternId : Nat) : PrecipitationTx Unit :=
  execute fun db =>
    { db with
      candidates := db.candidates.update candidateId fun row =>
        { row with promotedAt := some now, promotedPatternModelId := some patternId } }

def promotePatternCandidate (now candidateId bornFromEventId : Nat) (patternConfidence : Rat) :
    PrecipitationTx Nat := do
  let candidate ← pendingCandidate candidateId
  let proposition ← Tx.ofExcept
    (patternProposition candidate.proposedSignature candidate.observedTendency)
  computeCentroidEmbedding candidate.constituentModelIds
  let natural ← Tx.ofExcept
    (patternNatural rules candidate.proposedSignature candidate.constituentModelIds)
  checkConfidence patternConfidence
  let canonical ← Tx.ofExcept (rules.construct proposition natural)
  checkConstituents candidate.constituentModelIds
  let patternId ← insertPattern rules now
    (patternModel candidate canonical bornFromEventId patternConfidence)
  Tx.forEach candidate.constituentModelIds fun constituent =>
    onModels (setModelRelations now
      (instanceRelations candidate bornFromEventId patternId constituent))
  recordPromotion now candidateId patternId
  return patternId

def rejectPatternCandidate (now candidateId : Nat) (reason : String) : PrecipitationTx Unit :=
  execute fun db =>
    { db with
      candidates := db.candidates.updateWhere
        (fun id row => id = candidateId && row.rejectedAt.isNone && row.promotedAt.isNone)
        fun _ row => { row with rejectedAt := some now, rejectionReason := some reason } }

/-- The event a reviewed pattern is born from: the trigger's, or a new one. -/
def bornEvent (clock : Acts.Clock) (tenantId candidateId : Nat) : Option Nat → PrecipitationTx Nat
  | some observationId => .done observationId
  | none =>
    (Observations.emitStateChange clock
      { kind := "pattern_review_triggered"
        entityId := candidateId
        tenantId
        entityKind := some "pattern_candidate" }).onPart actsPart .act

/-- The pattern the review has promoted the candidate to. A promotion that fails
leaves the candidate rejected, `reason` being the text of its exception. -/
def patternReview (reason : PrecipitationError → String) (clock : Acts.Clock)
    (tenantId candidateId : Nat) (observationId : Option Nat) : PrecipitationTx (Option Nat) := do
  let born ← bornEvent clock tenantId candidateId observationId
  let result ← (promotePatternCandidate rules clock.transactionNow candidateId born
    (7 / 10)).savepoint
  match result with
  | .ok patternId => return some patternId
  | .error error =>
    rejectPatternCandidate clock.transactionNow candidateId ("promotion failed: " ++ reason error)
    return none

end

end FyralisCore.Precipitation
