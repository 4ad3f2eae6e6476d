import FyralisCore.Acts.Schema
import FyralisCore.Models.EdgeRegistry

/-! The model tables that edges, inserts and archives touch
(`0001_foundation.sql`, `0031_model_edges.sql`, `0043_memory_graph_upgrade.sql`,
`0047_memory_grammar_and_composition.sql`) and the errors of their
repositories. Identifiers and timestamps are natural numbers. -/
namespace FyralisCore.Models

open Relational Transaction

inductive EdgeStatus where
  | active
  | inert
  | disputed
  deriving DecidableEq, Repr

inductive ReviewStatus where
  | accepted
  | candidate
  | needsReview
  | disputed
  | rejected
  | retired
  deriving DecidableEq, Repr

def ReviewStatus.text : ReviewStatus → String
  | .accepted => "accepted"
  | .candidate => "candidate"
  | .needsReview => "needs_review"
  | .disputed => "disputed"
  | .rejected => "rejected"
  | .retired => "retired"

def ReviewStatus.ofText (text : String) : Option ReviewStatus :=
  [ReviewStatus.accepted, .candidate, .needsReview, .disputed, .rejected, .retired].find?
    (·.text == text)

inductive EdgeDetectedBy where
  | llmExplicit
  | thinkEdgeOp
  | linkMiner
  | tensionMiner
  | retrievalCritic
  | precipitation
  | manual
  | backfill
  | reconciler
  | falsifierOverlap
  | cascade
  deriving DecidableEq, Repr

def EdgeDetectedBy.text : EdgeDetectedBy → String
  | .llmExplicit => "llm_explicit"
  | .thinkEdgeOp => "think_edge_op"
  | .linkMiner => "link_miner"
  | .tensionMiner => "tension_miner"
  | .retrievalCritic => "retrieval_critic"
  | .precipitation => "precipitation"
  | .manual => "manual"
  | .backfill => "backfill"
  | .reconciler => "reconciler"
  | .falsifierOverlap => "falsifier_overlap"
  | .cascade => "cascade"

def EdgeDetectedBy.ofText (text : String) : Option EdgeDetectedBy :=
  [EdgeDetectedBy.llmExplicit, .thinkEdgeOp, .linkMiner, .tensionMiner, .retrievalCritic,
    .precipitation, .manual, .backfill, .reconciler, .falsifierOverlap, .cascade].find?
    (·.text == text)

structure EdgeKey where
  tenantId : Nat
  source : Nat
  target : Nat
  kind : EdgeKind
  deriving DecidableEq

def EdgeKey.mirror (key : EdgeKey) : EdgeKey :=
  { key with source := key.target, target := key.source }

structure EdgeRow where
  id : Nat
  weight : Option Rat := none
  metadata : List (String × Acts.Json) := []
  status : EdgeStatus := .active
  detectedBy : EdgeDetectedBy
  createdAt : Nat
  createdByEventId : Option Nat := none
  statusChangedAt : Option Nat := none
  statusReason : Option String := none
  confidence : Rat := 1
  evidenceEventIds : List Nat := []
  evidenceModelIds : List Nat := []
  explanation : Option String := none
  reviewStatus : ReviewStatus := .accepted
  lastConfirmedAt : Option Nat := none
  confirmedCount : Nat := 0
  contestedCount : Nat := 0
  decayAfter : Option Nat := none
  expiresAt : Option Nat := none

inductive ModelStatus where
  | active
  | archived
  | superseded
  | contestedFalse
  deriving DecidableEq, Repr

structure ModelRow where
  tenantId : Nat
  bornFromEventId : Option Nat := none
  proposition : Acts.Json
  scopeActors : List Nat := []
  scopeEntities : List Acts.Json := []
  supportingModelIds : List Nat := []
  contributingModels : List Nat := []
  status : ModelStatus := .active
  archivedAt : Option Nat := none
  archiveReason : Option ModelArchiveReason := none
  createdAt : Nat

structure ScopeRow where
  tenantId : Nat
  source : String := "model_scope"
  confidence : Rat := 1
  createdAt : Nat

structure CompositionRow where
  tenantId : Nat
  memberRole : String := "member"
  contribution : Option String := none
  confidence : Rat := 1
  evidenceEventIds : List Nat := []
  source : String := "model_proposition"
  createdAt : Nat

/-- `model_reeval_queue_dedup`; two absent values count as equal. -/
structure ReevalKey where
  tenantId : Nat
  modelId : Nat
  causeModelId : Option Nat
  processedAt : Option Nat
  deriving DecidableEq

structure ReevalRow where
  id : Nat
  causeKind : CauseKind
  enqueuedAt : Nat

structure ModelDb where
  models : Table Nat ModelRow := ∅
  edges : Table EdgeKey EdgeRow := ∅
  /-- `relationship_ontology_proposals` by tenant and proposed kind. -/
  proposals : Table (Nat × EdgeKind) ProposalRow := ∅
  actors : Table Nat Acts.ActorRow := ∅
  /-- By model and actor. -/
  scopeActors : Table (Nat × Nat) ScopeRow := ∅
  /-- By model, entity type and entity. -/
  scopeEntities : Table (Nat × String × Nat) ScopeRow := ∅
  /-- By composite model and member. -/
  compositionMembers : Table (Nat × Nat) CompositionRow := ∅
  reevalQueue : Table ReevalKey ReevalRow := ∅

inductive ModelError where
  | unknownKind (kind : EdgeKind)
  | notEnabled (kind : EdgeKind)
  | weightRequired (kind : EdgeKind)
  | weightForbidden (kind : EdgeKind) (weight : Rat)
  | weightOutOfRange (kind : EdgeKind) (weight : Rat)
  | mutuallyExclusive (kind existing : EdgeKind) (source target : Nat)
  | confidenceOutOfRange (confidence : Rat)
  | invalidReviewStatus (text : String)
  | invalidDetectedBy (text : String)
  | selfEdge (kind : EdgeKind) (modelId : Nat)
  | cycle (kind : EdgeKind) (source : Nat) (targets : List Nat) (scope : List EdgeKind)
  | selfSupport (modelId : Nat)
  | supportCycle (modelId : Nat) (supports : List Nat)
  | scopeActorsMissing (missing : List Nat)
  | falsifierInadequate (reason : String) (confidence : Rat)
  | recommendationInvalid (message : String)
  | duplicateIds (ids : List Nat)
  | notUuid (field : String)
  | notIterable (field : String)
  | selfDependency (field : String) (modelId : Nat)
  | dependencyCycle (modelIds : List Nat)
  | notFound (modelId : Nat)
  | uniqueViolation (constraint : String)
  | foreignKeyViolation (table : String)
  deriving DecidableEq

def pyRepr (text : String) : String :=
  "'" ++ text ++ "'"

def pyReprList (texts : List String) : String :=
  "[" ++ String.intercalate ", " (texts.map pyRepr) ++ "]"

def sortedKinds (kinds : List EdgeKind) : List String :=
  (kinds.map EdgeKind.text).mergeSort fun a b => decide (a ≤ b)

def ModelError.message (decimal : Rat → String) : ModelError → String
  | .unknownKind kind =>
    "unknown edge_kind " ++ pyRepr kind.text ++ "; legal: " ++
      pyReprList (sortedKinds (RegistryKind.all.map .registry))
  | .notEnabled kind =>
    "edge_kind " ++ pyRepr kind.text ++ " is registered but not enabled for writes"
  | .weightRequired kind => "edge_kind " ++ pyRepr kind.text ++ " requires a weight; got None"
  | .weightForbidden kind weight =>
    "edge_kind " ++ pyRepr kind.text ++ " forbids weight; got " ++ decimal weight
  | .weightOutOfRange kind weight =>
    "edge_kind " ++ pyRepr kind.text ++ " weight out of range [0, 1]: " ++ decimal weight
  | .mutuallyExclusive kind existing source target =>
    "edge_kind " ++ pyRepr kind.text ++ " mutually exclusive with " ++ pyRepr existing.text ++
      " between " ++ toString source ++ " → " ++ toString target
  | .confidenceOutOfRange confidence =>
    "edge confidence out of range [0, 1]: " ++ decimal confidence
  | .invalidReviewStatus text => "invalid edge review_status " ++ pyRepr text
  | .invalidDetectedBy text => "invalid edge detected_by " ++ pyRepr text
  | .selfEdge _ modelId =>
    "self-edge not allowed: source == target == " ++ toString modelId
  | .cycle kind source _ scope =>
    "edge " ++ pyRepr kind.text ++ " (" ++ toString source ++
      " → targets) would create a cycle in scope " ++ pyReprList (sortedKinds scope)
  | .selfSupport _ => "supporting_model_ids cannot reference the model itself"
  | .supportCycle _ _ => "supporting_model_ids would create a cycle"
  | .scopeActorsMissing missing =>
    "scope_actors reference " ++ toString missing.length ++ " non-existent actor(s)"
  | .falsifierInadequate reason _ => reason
  | .recommendationInvalid message => message
  | .duplicateIds _ => "batch contains duplicate Model ids"
  | .notUuid field => field ++ " must contain UUID values"
  | .notIterable field => field ++ " is not iterable"
  | .selfDependency _ _ => "Model batch contains a self-dependency"
  | .dependencyCycle _ => "Model batch contains an intra-batch dependency cycle"
  | .notFound modelId => "model " ++ toString modelId ++ " not found"
  | .uniqueViolation constraint =>
    "duplicate key value violates unique constraint " ++ "\"" ++ constraint ++ "\""
  | .foreignKeyViolation table =>
    "insert or update on table " ++ "\"" ++ table ++ "\"" ++ " violates foreign key constraint"

def ModelError.context (decimal : Rat → String) : ModelError → List (String × String)
  | .confidenceOutOfRange confidence => [("confidence", decimal confidence)]
  | .invalidReviewStatus text => [("review_status", text)]
  | .invalidDetectedBy text => [("detected_by", text)]
  | .selfEdge kind _ => [("kind", kind.text)]
  | .cycle _ source targets scope =>
    [("source", toString source), ("targets", pyReprList (targets.map toString)),
      ("cycle_scope", pyReprList (sortedKinds scope))]
  | .selfSupport modelId => [("model_id", toString modelId)]
  | .supportCycle modelId supports =>
    [("new_model_id", toString modelId), ("new_supports", pyReprList (supports.map toString))]
  | .scopeActorsMissing missing => [("missing", pyReprList (missing.map toString))]
  | .falsifierInadequate _ confidence => [("confidence", decimal confidence)]
  | .duplicateIds ids =>
    [("field", "models.id"), ("duplicate_ids", pyReprList (ids.map toString))]
  | .notUuid field => [("field", field)]
  | .selfDependency field modelId => [("field", field), ("model_id", toString modelId)]
  | .dependencyCycle modelIds =>
    [("field", "models"), ("model_ids", pyReprList (modelIds.map toString))]
  | .notFound modelId => [("model_id", toString modelId)]
  | _ => []

/-- A transaction over the model tables; a write is the change it makes. -/
abbrev ModelTx (α : Type) : Type := Tx ModelDb (ModelDb → ModelDb) Empty ModelError α

def ModelDb.apply (db : ModelDb) (write : ModelDb → ModelDb) : ModelDb :=
  write db

def change (write : ModelDb → ModelDb) : ModelTx Unit :=
  .query (fun _ => none) fun _ => .ok ([write], ())

def execute {α : Type} (answer : ModelDb → Except ModelError ((ModelDb → ModelDb) × α)) :
    ModelTx α :=
  .query (fun _ => none) fun db => (answer db).map fun (write, value) => ([write], value)

end FyralisCore.Models
