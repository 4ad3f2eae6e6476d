import FyralisCore.Lib.RecursiveQuery
import FyralisCore.Models.Schema

/-! The edge repository (`edges_repo.py`): links with their checks and their
upsert, deletions, retirements and the traversals. -/
namespace FyralisCore.Models

open Relational Transaction

def assertWritable : EdgeKind → Except ModelError EdgeKindSpec
  | .registry kind =>
    if (edgeRegistry kind).enabledForWrites then .ok (edgeRegistry kind)
    else .error (.notEnabled kind)
  | .dynamic kind => .error (.unknownKind (.dynamic kind))

def loadAcceptedProposal (db : ModelDb) (tenantId : Nat) (kind : EdgeKind) : Option ProposalRow :=
  (db.proposals.get (tenantId, kind)).filter fun proposal => proposal.status = .accepted

def resolveEdgeKindSpec (db : ModelDb) (tenantId : Nat) (kind : EdgeKind) :
    Except ModelError EdgeKindSpec :=
  match assertWritable kind with
  | .ok spec => .ok spec
  | .error originalError =>
    match loadAcceptedProposal db tenantId kind with
    | some proposal => .ok (specFromProposal kind proposal)
    | none => .error originalError

def ask {α : Type} (answer : ModelDb → Except ModelError α) : ModelTx α :=
  .query (fun _ => none) fun db => (answer db).map fun value => ([], value)

def validateWeightForSpec (spec : EdgeKindSpec) : Option Rat → Except ModelError Unit
  | none => if spec.weightRequired then .error (.weightRequired spec.name) else .ok ()
  | some weight =>
    if !spec.weightAllowed then .error (.weightForbidden spec.name weight)
    else if 0 ≤ weight ∧ weight ≤ 1 then .ok ()
    else .error (.weightOutOfRange spec.name weight)

def validateConfidence (confidence : Rat) : Except ModelError Unit :=
  if 0 ≤ confidence ∧ confidence ≤ 1 then .ok ()
  else .error (.confidenceOutOfRange confidence)

def uniqueUuidList (values : Option (List Nat)) : List Nat :=
  (values.getD []).eraseDups

def EdgeRow.isLive (row : EdgeRow) : Bool :=
  row.status = .active ∧ row.reviewStatus ≠ .rejected

/-- A kind that the new one excludes and that the ordered pair carries. -/
def excludedKind (db : ModelDb) (spec : EdgeKindSpec) (tenantId source target : Nat) :
    Option EdgeKind :=
  spec.mutuallyExclusiveWith.find? fun kind =>
    (db.edges.get ⟨tenantId, source, target, kind⟩).any EdgeRow.isLive

def checkMutualExclusion (spec : EdgeKindSpec) (kind : EdgeKind)
    (source target tenantId : Nat) : ModelTx Unit :=
  .require fun db =>
    (excludedKind db spec tenantId source target).map fun existing =>
      .mutuallyExclusive kind existing source target

def scopeEdges (db : ModelDb) (tenantId : Nat) (scope : List EdgeKind) : List (Nat × Nat) :=
  (db.edges.rows.filter fun entry =>
    entry.1.tenantId = tenantId ∧ entry.1.kind ∈ scope ∧ entry.2.status = .active).map
      fun entry => (entry.1.source, entry.1.target)

def cycleError (db : ModelDb) (kind : EdgeKind) (source : Nat) (targets : List Nat)
    (tenantId : Nat) (scope : List EdgeKind) : Option ModelError :=
  let targetList := targets.filter (· ≠ source)
  if targetList = [] then none
  else if source ∈ reachable (scopeEdges db tenantId scope) targetList then
    some (.cycle kind source targetList scope)
  else none

def checkNoCycle (kind : EdgeKind) (source : Nat) (targets : List Nat) (tenantId : Nat) :
    Option (List EdgeKind) → ModelTx Unit
  | none => .done ()
  | some scope => .require fun db => cycleError db kind source targets tenantId scope

structure EdgeLink where
  source : Nat
  target : Nat
  kind : EdgeKind
  tenantId : Nat
  detectedBy : String
  weight : Option Rat := none
  metadata : List (String × Acts.Json) := []
  createdByEventId : Option Nat := none
  confidence : Rat := 1
  evidenceEventIds : Option (List Nat) := none
  evidenceModelIds : Option (List Nat) := none
  explanation : Option String := none
  reviewStatus : String := "accepted"
  decayAfter : Option Nat := none
  expiresAt : Option Nat := none

def EdgeLink.key (args : EdgeLink) : EdgeKey :=
  ⟨args.tenantId, args.source, args.target, args.kind⟩

/-- `existing || excluded` of two JSON objects. -/
def mergeMetadata (existing excluded : List (String × Acts.Json)) : List (String × Acts.Json) :=
  existing.filter (fun field => (excluded.lookup field.1).isNone) ++ excluded

def mergeReviewStatus (existing excluded : ReviewStatus) : ReviewStatus :=
  if existing = .rejected ∨ existing = .retired then existing
  else if existing = .disputed ∨ excluded = .disputed then .disputed
  else if existing = .accepted ∨ excluded = .accepted then .accepted
  else if existing = .needsReview ∨ excluded = .needsReview then .needsReview
  else .candidate

def EdgeLink.excluded (args : EdgeLink) (detectedBy : EdgeDetectedBy)
    (reviewStatus : ReviewStatus) (now id : Nat) : EdgeRow where
  id := id
  weight := args.weight
  metadata := args.metadata
  status := .active
  detectedBy := detectedBy
  createdAt := now
  createdByEventId := args.createdByEventId
  confidence := args.confidence
  evidenceEventIds := uniqueUuidList args.evidenceEventIds
  evidenceModelIds := uniqueUuidList args.evidenceModelIds
  explanation := args.explanation
  reviewStatus := reviewStatus
  decayAfter := args.decayAfter
  expiresAt := args.expiresAt
  lastConfirmedAt := some now
  confirmedCount := 1

/-- DO UPDATE: the existing row after a conflict with the excluded one. -/
def EdgeRow.confirm (existing excluded : EdgeRow) (now : Nat) : EdgeRow :=
  { existing with
    weight := excluded.weight.or existing.weight
    metadata := mergeMetadata existing.metadata excluded.metadata
    confidence := max existing.confidence excluded.confidence
    evidenceEventIds := (existing.evidenceEventIds ++ excluded.evidenceEventIds).eraseDups
    evidenceModelIds := (existing.evidenceModelIds ++ excluded.evidenceModelIds).eraseDups
    explanation := excluded.explanation.or existing.explanation
    reviewStatus := mergeReviewStatus existing.reviewStatus excluded.reviewStatus
    decayAfter := excluded.decayAfter.or existing.decayAfter
    expiresAt := excluded.expiresAt.or existing.expiresAt
    lastConfirmedAt := some now
    confirmedCount := existing.confirmedCount + 1 }

def upsertedRow (db : ModelDb) (key : EdgeKey) (excluded : EdgeRow) (now : Nat) : EdgeRow :=
  match db.edges.get key with
  | some existing => existing.confirm excluded now
  | none => excluded

def upsertEdge (db : ModelDb) (key : EdgeKey) (excluded : EdgeRow) (now : Nat) : ModelDb :=
  { db with edges := db.edges.put key (upsertedRow db key excluded now) }

def insertOne (now : Nat) (key : EdgeKey) (excluded : Nat → EdgeRow) : ModelTx Nat := do
  let newId ← Tx.newId
  execute fun db =>
    .ok (fun db => upsertEdge db key (excluded newId) now,
      (upsertedRow db key (excluded newId) now).id)

def linkChecks (args : EdgeLink) : ModelTx (EdgeKindSpec × ReviewStatus × EdgeDetectedBy) := do
  let spec ← ask fun db => resolveEdgeKindSpec db args.tenantId args.kind
  Tx.ofExcept (validateWeightForSpec spec args.weight)
  Tx.ofExcept (validateConfidence args.confidence)
  let reviewStatus ← Tx.orRaise (ReviewStatus.ofText args.reviewStatus)
    (.invalidReviewStatus args.reviewStatus)
  let detectedBy ← Tx.orRaise (EdgeDetectedBy.ofText args.detectedBy)
    (.invalidDetectedBy args.detectedBy)
  Tx.ensure (args.source ≠ args.target) (.selfEdge args.kind args.source)
  checkMutualExclusion spec args.kind args.source args.target args.tenantId
  Tx.when (!spec.isDirected)
    (checkMutualExclusion spec args.kind args.target args.source args.tenantId)
  checkNoCycle args.kind args.source [args.target] args.tenantId spec.cycleScope
  return (spec, reviewStatus, detectedBy)

def linkRows (now : Nat) (spec : EdgeKindSpec) (key : EdgeKey) (excluded : Nat → EdgeRow) :
    ModelTx (List Nat) := do
  let id ← insertOne now key excluded
  if spec.isDirected then return [id]
  else
    let mirrorId ← insertOne now key.mirror excluded
    return [id, mirrorId]

def link (now : Nat) (args : EdgeLink) : ModelTx (List Nat) := do
  let (spec, reviewStatus, detectedBy) ← linkChecks args
  linkRows now spec args.key (args.excluded detectedBy reviewStatus now)

def ModelDb.deleteEdges (db : ModelDb) (condition : EdgeKey → EdgeRow → Bool) : ModelDb :=
  { db with edges := db.edges.deleteWhere condition }

def ModelDb.updateEdges (db : ModelDb) (condition : EdgeKey → EdgeRow → Bool)
    (change : EdgeRow → EdgeRow) : ModelDb :=
  { db with edges := db.edges.updateWhere condition fun _ => change }

def betweenPair (spec : EdgeKindSpec) (pair key : EdgeKey) : Bool :=
  key = pair ∨ (spec.isDirected = false ∧ key = pair.mirror)

def unlink (source target : Nat) (kind : EdgeKind) (tenantId : Nat) : ModelTx Nat := do
  let spec ← ask fun db => resolveEdgeKindSpec db tenantId kind
  let condition := fun key (_ : EdgeRow) => betweenPair spec ⟨tenantId, source, target, kind⟩ key
  execute fun db => .ok (fun db => db.deleteEdges condition, db.edges.count condition)

def activeBetweenPair (spec : EdgeKindSpec) (pair key : EdgeKey) (row : EdgeRow) : Bool :=
  betweenPair spec pair key && row.status = .active

def EdgeRow.retired (now : Nat) (reason : String) (row : EdgeRow) : EdgeRow :=
  { row with
    status := .inert
    reviewStatus := .retired
    statusChangedAt := some now
    statusReason := some reason }

def retire (now source target : Nat) (kind : EdgeKind) (tenantId : Nat) (reason : String) :
    ModelTx Nat := do
  let spec ← ask fun db => resolveEdgeKindSpec db tenantId kind
  let condition := activeBetweenPair spec ⟨tenantId, source, target, kind⟩
  execute fun db =>
    .ok (fun db => db.updateEdges condition (EdgeRow.retired now reason), db.edges.count condition)

def traverseForward (source : Nat) (kinds : List EdgeKind) (tenantId : Nat)
    (status : EdgeStatus) : ModelTx (List (EdgeKey × EdgeRow)) :=
  .read fun db => db.edges.rows.filter fun entry =>
    entry.1.tenantId = tenantId ∧ entry.1.source = source ∧ entry.1.kind ∈ kinds ∧
      entry.2.status = status

def traverseBackward (target : Nat) (kinds : List EdgeKind) (tenantId : Nat)
    (status : EdgeStatus) : ModelTx (List (EdgeKey × EdgeRow)) :=
  .read fun db => db.edges.rows.filter fun entry =>
    entry.1.tenantId = tenantId ∧ entry.1.target = target ∧ entry.1.kind ∈ kinds ∧
      entry.2.status = status

def EdgeRow.madeInert (now : Nat) (reason : String) (row : EdgeRow) : EdgeRow :=
  { row with
    status := .inert
    statusChangedAt := some now
    statusReason := some reason }

def touchesModel (modelId tenantId : Nat) (key : EdgeKey) (row : EdgeRow) : Bool :=
  key.tenantId = tenantId ∧ row.status = .active ∧ (key.source = modelId ∨ key.target = modelId)

def markInert (now modelId tenantId : Nat) (reason : String) : ModelTx (List (EdgeKey × EdgeRow)) :=
  execute fun db =>
    .ok (fun db => db.updateEdges (touchesModel modelId tenantId) (EdgeRow.madeInert now reason),
      (db.edges.rows.filter fun entry => touchesModel modelId tenantId entry.1 entry.2).map
        fun entry => (entry.1, entry.2.madeInert now reason))

end FyralisCore.Models
