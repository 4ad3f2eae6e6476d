import Mathlib.Data.List.Sort
import FyralisCore.Think.TriggerQueue

/-! One poll transaction of the worker: prune low-value rows, group event and
downstream triggers into batches, lease what is left over. Row locks are held to
the end of the transaction, so what it does to the queue is one step; the rows
that a statement gets to see, and the tables of other components that it reads,
are handed to it. -/
namespace FyralisCore.Think

open Relational

/-- What the worker reads of a model; the entities are `_entity_refs` of the
column. -/
structure ModelScope where
  tenantId : Nat
  propositionKind : Option String
  falsifier : Option (List (String × String))
  evaluateAt : Option Rat
  resolutionCriteria : Option String
  scopeActors : List Nat := []
  scopeEntities : List (String × String) := []

structure RelationshipCandidate where
  tenantId : Nat
  candidateKind : String
  reviewStatus : String
  source : Option String
  basis : Option String
  metadataTopology : Bool
  lifecycleOrigin : Option String
  judgmentLeverageScore : Option Rat
  impactScore : Option Rat
  actionabilityScore : Option Rat
  confidenceScore : Option Rat
  memberModelIds : List Nat := []
  sourceModelId : Option Nat := none
  targetModelId : Option Nat := none

structure ObservationScope where
  actorId : Option Nat
  entitiesMentioned : List (String × String)

/-- What one statement sees: the other tables as committed when it runs, and the
queue rows that are visible and, for SKIP LOCKED, not locked by others. -/
structure Snapshot where
  models : Table Nat ModelScope := ∅
  candidates : Table Nat RelationshipCandidate := ∅
  observations : Table Nat ObservationScope := ∅
  sees : Nat → Bool := fun _ => true

/-- The surroundings of one poll: `now()` of the transaction, the clock readings
of the two batch functions, the ids that uuid7 returns, and what each statement
sees. -/
structure PollEnv where
  now : Rat
  t1Now : Rat
  downstreamNow : Rat
  uuid7 : Nat → Nat
  beliefPrune : Snapshot := {}
  topologyPrune : Snapshot := {}
  missingModelPrune : Snapshot := {}
  edgeTypePrune : Snapshot := {}
  t1Batches : Snapshot := {}
  downstreamBatches : Snapshot := {}
  poll : Snapshot := {}

def pollAt (now : Rat) : PollEnv where
  now := now
  t1Now := now
  downstreamNow := now
  uuid7 := fun count => 10 + count

abbrev TriggerRecord : Type := Nat × TriggerRow

section

variable (config : WorkerConfig)

def prunable (kind : TriggerKind) (subkind : TriggerSubkind) (row : TriggerRow) : Bool :=
  row.completedAt == none && row.batchParentId == none && inTenant config row &&
    row.triggerKind == kind && row.triggerSubkind == some subkind

def nonPrediction (snapshot : Snapshot) (row : TriggerRow) : Bool :=
  row.modelId.any fun modelId => (snapshot.models.get modelId).any fun model =>
    model.tenantId == row.tenantId && model.propositionKind.getD "belief" != "prediction" &&
      model.falsifier.all List.isEmpty && model.evaluateAt == none &&
      model.resolutionCriteria == none

def missingModel (snapshot : Snapshot) (row : TriggerRow) : Bool :=
  row.modelId.all fun modelId => (snapshot.models.get modelId).all fun model =>
    model.tenantId != row.tenantId

def candidateOf (snapshot : Snapshot) (row : TriggerRow) : Option RelationshipCandidate :=
  (row.payload.relationshipCandidateId.bind id).bind fun candidateId =>
    (snapshot.candidates.get candidateId).filter fun candidate =>
      candidate.tenantId == row.tenantId

def edgeTypeCandidate (snapshot : Snapshot) (row : TriggerRow) : Bool :=
  (candidateOf snapshot row).any fun candidate => candidate.candidateKind == "edge_type"

def RelationshipCandidate.isTopological (candidate : RelationshipCandidate) : Bool :=
  candidate.source == some "latent_topology" || candidate.basis == some "topology_suggested" ||
    candidate.metadataTopology || candidate.lifecycleOrigin == some "latent_topology"

def below (score : Option Rat) (minimum : Rat) : Bool :=
  score.any fun score => decide (score < minimum)

def lowValueTopology (snapshot : Snapshot) (row : TriggerRow) : Bool :=
  (candidateOf snapshot row).any fun candidate =>
    (candidate.candidateKind == "edge" || candidate.candidateKind == "situation") &&
    (candidate.reviewStatus == "candidate" || candidate.reviewStatus == "needs_review") &&
    candidate.isTopological &&
    (below candidate.judgmentLeverageScore config.t4TopologyMinJudgmentLeverage ||
      below candidate.impactScore config.t4TopologyMinImpact ||
      below candidate.actionabilityScore config.t4TopologyMinActionability ||
      below candidate.confidenceScore config.t4TopologyMinConfidence)

/-- UPDATE ... SET completed_at = now(), locked_by = NULL, locked_at = NULL and a
note in the payload. -/
def pruneRows (now : Rat) (note : TriggerRow → AutoCompleted) (snapshot : Snapshot)
    (condition : TriggerRow → Bool) (queue : TriggerQueue) : TriggerQueue :=
  queue.updateWhere (fun id row => snapshot.sees id && condition row) fun _ row =>
    { row.completed now with payload := { row.payload with autoCompleted := some (note row) } }

def prunesNonPrediction (env : PollEnv) (row : TriggerRow) : Bool :=
  prunable config .t2 .beliefUpdated row && nonPrediction env.beliefPrune row

def prunesLowValueTopology (env : PollEnv) (row : TriggerRow) : Bool :=
  prunable config .t4 .latentRelationshipCandidate row &&
    lowValueTopology config env.topologyPrune row

def prunesMissingModel (env : PollEnv) (row : TriggerRow) : Bool :=
  prunable config .t2 .beliefUpdated row && missingModel env.missingModelPrune row

def prunesEdgeType (env : PollEnv) (row : TriggerRow) : Bool :=
  prunable config .t4 .latentRelationshipCandidate row && edgeTypeCandidate env.edgeTypePrune row

def candidateScores (snapshot : Snapshot) (row : TriggerRow) : List (Option Rat) :=
  match candidateOf snapshot row with
  | none => []
  | some candidate => [candidate.judgmentLeverageScore, candidate.impactScore,
      candidate.actionabilityScore, candidate.confidenceScore]

def pruneLowValueDownstreamRows (env : PollEnv) (queue : TriggerQueue) : TriggerQueue :=
  if config.pruneLowValueDownstreamTriggers then
    let queue := pruneRows env.now
      (fun _ => ⟨"non_prediction_belief_updated_noop", config.workerId, []⟩)
      env.beliefPrune (prunesNonPrediction config env) queue
    let queue := pruneRows env.now
      (fun row => ⟨"low_value_topology_candidate_noop", config.workerId,
        candidateScores env.topologyPrune row⟩)
      env.topologyPrune (prunesLowValueTopology config env) queue
    let queue := pruneRows env.now
      (fun _ => ⟨"missing_model_belief_updated_noop", config.workerId, []⟩)
      env.missingModelPrune (prunesMissingModel config env) queue
    pruneRows env.now (fun _ => ⟨"edge_type_candidate_aggregation_path", config.workerId, []⟩)
      env.edgeTypePrune (prunesEdgeType config env) queue
  else queue

def entityBatchTypePriority : List String :=
  ["customer", "commitment", "goal", "decision", "resource", "project", "repository", "issue",
    "ticket", "account", "invoice", "transaction", "employee", "team"]

def entityLane (refs : List (String × String)) : Option String :=
  let nonActorRefs := refs.filter fun ref => ref.1 != "actor"
  ((entityBatchTypePriority.findSome? fun wanted =>
    nonActorRefs.find? fun ref => ref.1 == wanted).or nonActorRefs.head?).map fun ref =>
      "entity:" ++ ref.1 ++ ":" ++ ref.2

def actorLane (actors : List Nat) : Option String :=
  actors.head?.map fun actorId => "actor:" ++ toString actorId

def actorEntityLane (refs : List (String × String)) : Option String :=
  actorLane ((refs.filter fun ref => ref.1 == "actor").filterMap fun ref => ref.2.toNat?)

def scopeBatchLane (entities : List (String × String)) (actorId : Option Nat)
    (actors : List Nat) : Option String :=
  (((entityLane entities).or (actorLane actorId.toList)).or (actorLane actors)).or
    (actorEntityLane entities)

def t1EventBatchLane (snapshot : Snapshot) (row : TriggerRow) : Option String :=
  (row.observationId.bind snapshot.observations.get).bind fun observation =>
    scopeBatchLane observation.entitiesMentioned observation.actorId []

def t2BeliefBatchLane (snapshot : Snapshot) (row : TriggerRow) : Option String :=
  (row.modelId.bind snapshot.models.get).bind fun model =>
    scopeBatchLane model.scopeEntities none model.scopeActors

def TriggerPayload.candidateIds (payload : TriggerPayload) : List Nat :=
  (payload.relationshipCandidateIds.getD (payload.relationshipCandidateId.bind id).toList).eraseDups

def RelationshipCandidate.modelIds (candidate : RelationshipCandidate) : List Nat :=
  candidate.memberModelIds ++ candidate.sourceModelId.toList ++ candidate.targetModelId.toList

def t4CandidateBatchLane (snapshot : Snapshot) (row : TriggerRow) : Option String :=
  let candidateIds := row.payload.candidateIds
  if candidateIds.isEmpty then none
  else
    let kinds := ((candidateIds.map fun candidateId =>
      (((snapshot.candidates.get candidateId).map (·.candidateKind)).filter (· ≠ "")).getD
        "unknown").eraseDups.insertionSort (· ≤ ·))
    let kindLane := match kinds with
      | [kind] => "candidate_kind:" ++ kind
      | kinds => "candidate_kind:mixed:" ++ ",".intercalate kinds
    let modelIds := (row.payload.memberModelIds ++ (candidateIds.filterMap fun candidateId =>
      snapshot.candidates.get candidateId).flatMap RelationshipCandidate.modelIds).eraseDups
    let scopes := modelIds.filterMap snapshot.models.get
    match scopeBatchLane (scopes.flatMap (·.scopeEntities)) none (scopes.flatMap (·.scopeActors)) with
    | some scopeLane => some (kindLane ++ "|" ++ scopeLane)
    | none => some kindLane

def downstreamBatchLane (snapshot : Snapshot) (row : TriggerRow) : Option String :=
  match row.triggerKind with
  | .t2 => t2BeliefBatchLane snapshot row
  | .t4 => t4CandidateBatchLane snapshot row
  | _ => none

def selectForUpdate (queue : TriggerQueue) (snapshot : Snapshot) (condition : TriggerRow → Bool)
    (before : TriggerRow → TriggerRow → Bool) (limit : Nat) : List TriggerRecord :=
  ((queue.rows.filter fun record => snapshot.sees record.1 && condition record.2).insertionSort
    fun first second => before first.2 second.2).take limit

def byEnqueuedAt (first second : TriggerRow) : Bool :=
  decide (first.enqueuedAt ≤ second.enqueuedAt)

def readyBatchMembers (records : List TriggerRecord) (maxSize minSize : Nat)
    (windowS now : Rat) (allowMaxSize fallbackByArrival : Bool) : Option (List TriggerRecord) :=
  let records := records.insertionSort fun first second => byEnqueuedAt first.2 second.2
  match records with
  | [] => none
  | oldest :: _ =>
    let windowElapsed := decide (windowS ≤ now - oldest.2.enqueuedAt)
    let inWindow := records.filter fun record =>
      decide (record.2.enqueuedAt ≤ oldest.2.enqueuedAt + windowS)
    let ready := windowElapsed ||
      (!fallbackByArrival && allowMaxSize && decide (maxSize ≤ inWindow.length))
    let members := (if fallbackByArrival then records else inWindow).take maxSize
    if ready && decide (minSize ≤ members.length) then some members else none

/-- The rows of one batch share tenant, kind, subkind and lane. -/
structure BatchGroup where
  tenantId : Nat
  triggerKind : TriggerKind
  triggerSubkind : Option TriggerSubkind
  lane : Option String
  deriving DecidableEq

structure BatchRules where
  windowS : Rat
  now : Rat
  minSize : Nat
  maxSize : TriggerKind → Option TriggerSubkind → Nat
  lane : TriggerRow → Option String
  /-- rows without a lane wait for the batches by arrival -/
  lanesOnly : Bool
  parentRow : BatchGroup → List TriggerRecord → TriggerRow

structure BatchRun where
  queue : TriggerQueue
  batches : List TriggerRecord
  usedIds : List Nat

def groupOf (lane : TriggerRow → Option String) (record : TriggerRecord) : BatchGroup :=
  ⟨record.2.tenantId, record.2.triggerKind, record.2.triggerSubkind, lane record.2⟩

def minEnqueuedAt (records : List TriggerRecord) : Rat :=
  (records.map fun record => record.2.enqueuedAt).min?.getD 0

/-- A dict of lists in the order of its first keys, sorted by the oldest row. -/
def batchGroups (lane : TriggerRow → Option String) (records : List TriggerRecord) :
    List (BatchGroup × List TriggerRecord) :=
  ((records.map (groupOf lane)).eraseDups.map fun group =>
    (group, records.filter fun record => groupOf lane record == group)).insertionSort
      fun first second => minEnqueuedAt first.2 ≤ minEnqueuedAt second.2

/-- UPDATE ... SET batch_parent_id of the members that are still free. -/
def adoptMembers (batchId : Nat) (memberIds : List Nat) (queue : TriggerQueue) : TriggerQueue :=
  queue.updateWhere
    (fun id row => decide (id ∈ memberIds) && row.completedAt == none && row.batchParentId == none)
    fun _ row => { row with batchParentId := some batchId }

def insertBatchRow (rules : BatchRules) (uuid7 : Nat → Nat) (group : BatchGroup)
    (members : List TriggerRecord) (run : BatchRun) : Option BatchRun :=
  let batchId := uuid7 run.batches.length
  let parent := rules.parentRow group members
  (insertTrigger run.queue batchId parent).map fun queue =>
    { queue := adoptMembers batchId (members.map Prod.fst) queue
      batches := run.batches ++ [(batchId, parent)]
      usedIds := run.usedIds ++ members.map Prod.fst }

def laneMembers (rules : BatchRules) (run : BatchRun) (group : BatchGroup)
    (records : List TriggerRecord) : Option (List TriggerRecord) :=
  let maxSize := rules.maxSize group.triggerKind group.triggerSubkind
  if (rules.lanesOnly && group.lane == none) || decide (maxSize < rules.minSize) then none
  else readyBatchMembers (records.filter fun record => !decide (record.1 ∈ run.usedIds)) maxSize
    rules.minSize rules.windowS rules.now true false

def arrivalMembers (rules : BatchRules) (_ : BatchRun) (group : BatchGroup)
    (records : List TriggerRecord) : Option (List TriggerRecord) :=
  let maxSize := rules.maxSize group.triggerKind group.triggerSubkind
  if maxSize < rules.minSize then none
  else readyBatchMembers records maxSize rules.minSize rules.windowS rules.now false true

def batchPass (rules : BatchRules) (uuid7 : Nat → Nat) (slots : Nat)
    (membersOf : BatchRun → BatchGroup → List TriggerRecord → Option (List TriggerRecord)) :
    List (BatchGroup × List TriggerRecord) → BatchRun → Option BatchRun
  | [], run => some run
  | (group, records) :: rest, run =>
    if slots ≤ run.batches.length then some run
    else match membersOf run group records with
      | none => batchPass rules uuid7 slots membersOf rest run
      | some members =>
        (insertBatchRow rules uuid7 group members run).bind
          (batchPass rules uuid7 slots membersOf rest)

/-- The `while` loop of the lanes. A pass that the loop does not end on creates a
batch, so `slots` passes are enough. -/
def laneRounds (rules : BatchRules) (uuid7 : Nat → Nat) (slots : Nat)
    (groups : List (BatchGroup × List TriggerRecord)) : Nat → BatchRun → Option BatchRun
  | 0, run => some run
  | passes + 1, run =>
    if slots ≤ run.batches.length then some run
    else (batchPass rules uuid7 slots (laneMembers rules) groups run).bind fun next =>
      if next.batches.length = run.batches.length then some next
      else laneRounds rules uuid7 slots groups passes next

/-- Batches by lane, then by arrival from the rows that no lane has used. -/
def createBatchRows (rules : BatchRules) (uuid7 : Nat → Nat) (slots : Nat)
    (candidates : List TriggerRecord) (queue : TriggerQueue) : Option BatchRun :=
  (laneRounds rules uuid7 slots (batchGroups rules.lane candidates) slots ⟨queue, [], []⟩).bind
    fun run =>
      if slots ≤ run.batches.length then some run
      else batchPass rules uuid7 slots (arrivalMembers rules)
        (batchGroups (fun _ => none) (candidates.filter fun record =>
          !decide (record.1 ∈ run.usedIds))) run

def awaitsBatch (now : Rat) (row : TriggerRow) : Bool :=
  row.completedAt == none && row.batchParentId == none && row.payload.unbatchedFrom == none &&
    lockFree config now row && decide (row.scheduledFor ≤ now) &&
    decide (row.attempts < config.triggerMaxAttempts) && inTenant config row

def t1BatchingEnabled : Bool :=
  decide (0 < config.t1BatchWindowS) && decide (2 ≤ config.t1BatchMaxSize) &&
    decide (2 ≤ config.t1BatchMinSize)

def isT1Candidate (now : Rat) (row : TriggerRow) : Bool :=
  awaitsBatch config now row && row.triggerKind == .t1 &&
    row.triggerSubkind == some .eventArrival && row.observationId.isSome

def t1ParentRow (now : Rat) (group : BatchGroup) (members : List TriggerRecord) : TriggerRow :=
  newTriggerRow now group.tenantId .t1 (some .eventBatch)
    (members.filterMap fun record => record.2.observationId).head? none
    { batch := true, batchMemberTriggerIds := members.map Prod.fst } none (some config.workerId)

def t1BatchRules (env : PollEnv) : BatchRules where
  windowS := config.t1BatchWindowS
  now := env.t1Now
  minSize := config.t1BatchMinSize
  maxSize := fun _ _ => config.t1BatchMaxSize
  lane := t1EventBatchLane env.t1Batches
  lanesOnly := true
  parentRow := t1ParentRow config env.now

def createT1BatchRows (env : PollEnv) (slots : Nat) (queue : TriggerQueue) : Option BatchRun :=
  if t1BatchingEnabled config && decide (0 < slots) then
    createBatchRows (t1BatchRules config env) env.uuid7 slots
      (selectForUpdate queue env.t1Batches (isT1Candidate config env.now) byEnqueuedAt
        (max config.t1BatchMaxSize (config.t1BatchMaxSize * slots))) queue
  else some ⟨queue, [], []⟩

def downstreamBatchingEnabled : Bool :=
  decide (0 < config.downstreamBatchWindowS) && decide (2 ≤ config.downstreamBatchMinSize) &&
    (decide (2 ≤ config.t2BatchMaxSize) || decide (2 ≤ config.t4BatchMaxSize))

def downstreamBatchMaxSize (kind : TriggerKind) (subkind : Option TriggerSubkind) : Nat :=
  match kind, subkind with
  | .t2, some .beliefUpdated => config.t2BatchMaxSize
  | .t4, some .latentRelationshipCandidate => config.t4BatchMaxSize
  | _, _ => 0

def isDownstreamCandidate (now : Rat) (row : TriggerRow) : Bool :=
  awaitsBatch config now row && !row.payload.batch &&
    ((row.triggerKind == .t2 && row.triggerSubkind == some .beliefUpdated && row.modelId.isSome) ||
      (row.triggerKind == .t4 && row.triggerSubkind == some .latentRelationshipCandidate &&
        row.payload.relationshipCandidateId.isSome))

def t2BatchPayload (members : List TriggerRecord) : TriggerPayload :=
  let modelIds := (members.filterMap fun record => record.2.modelId).eraseDups
  { batch := true
    batchMemberTriggerIds := members.map Prod.fst
    modelIds := modelIds
    memberModelIds := modelIds }

def t4LatentBatchPayload (snapshot : Snapshot) (members : List TriggerRecord) : TriggerPayload :=
  let candidateIds := (members.flatMap fun record => record.2.payload.candidateIds).eraseDups
  { batch := true
    batchMemberTriggerIds := members.map Prod.fst
    relationshipCandidateId := some candidateIds.head?
    relationshipCandidateIds := some candidateIds
    memberModelIds := ((members.flatMap fun record => record.2.payload.memberModelIds) ++
      (candidateIds.filterMap snapshot.candidates.get).flatMap
        RelationshipCandidate.modelIds).eraseDups }

def downstreamBatchPayload (snapshot : Snapshot) (group : BatchGroup)
    (members : List TriggerRecord) : TriggerPayload :=
  match group.triggerKind, group.triggerSubkind with
  | .t2, some .beliefUpdated => t2BatchPayload members
  | .t4, some .latentRelationshipCandidate => t4LatentBatchPayload snapshot members
  | _, _ => { batch := true, batchMemberTriggerIds := members.map Prod.fst }

def downstreamParentRow (env : PollEnv) (group : BatchGroup) (members : List TriggerRecord) :
    TriggerRow :=
  let payload := downstreamBatchPayload env.downstreamBatches group members
  newTriggerRow env.now group.tenantId group.triggerKind group.triggerSubkind
    (members.filterMap fun record => record.2.observationId).head? payload.modelIds.head? payload
    none (some config.workerId)

def downstreamBatchRules (env : PollEnv) : BatchRules where
  windowS := config.downstreamBatchWindowS
  now := env.downstreamNow
  minSize := config.downstreamBatchMinSize
  maxSize := downstreamBatchMaxSize config
  lane := downstreamBatchLane env.downstreamBatches
  lanesOnly := false
  parentRow := downstreamParentRow config env

def createDownstreamBatchRows (env : PollEnv) (slots : Nat) (queue : TriggerQueue) :
    Option BatchRun :=
  let largestBatch := max config.t2BatchMaxSize config.t4BatchMaxSize
  if downstreamBatchingEnabled config && decide (0 < slots) &&
      decide (config.downstreamBatchMinSize ≤ largestBatch) then
    createBatchRows (downstreamBatchRules config env) env.uuid7 slots
      (selectForUpdate queue env.downstreamBatches (isDownstreamCandidate config env.now)
        byEnqueuedAt (max largestBatch (largestBatch * slots))) queue
  else some ⟨queue, [], []⟩

def pastBatchWindow (now : Rat) (row : TriggerRow) : Bool :=
  (!t1BatchingEnabled config || row.triggerKind != .t1 ||
      row.triggerSubkind != some .eventArrival ||
      decide (row.enqueuedAt ≤ now - config.t1BatchWindowS)) &&
    (!downstreamBatchingEnabled config ||
      !((row.triggerKind == .t2 && row.triggerSubkind == some .beliefUpdated) ||
        (row.triggerKind == .t4 && row.triggerSubkind == some .latentRelationshipCandidate)) ||
      decide (row.enqueuedAt ≤ now - config.downstreamBatchWindowS))

def pollable (now : Rat) (row : TriggerRow) : Bool :=
  row.completedAt == none && row.batchParentId == none && lockFree config now row &&
    decide (row.scheduledFor ≤ now) && decide (row.attempts < config.triggerMaxAttempts) &&
    inTenant config row && pastBatchWindow config now row

def dispatchRank (row : TriggerRow) : Nat :=
  match row.triggerKind, row.triggerSubkind with
  | .t4, some .latentRelationshipCandidate => 0
  | .t2, _ => 1
  | .t4, _ => 2
  | .t3, _ => 3
  | .t1, some .eventBatch => 4
  | _, _ => 5

def byRank (first second : TriggerRow) : Bool :=
  decide (dispatchRank first < dispatchRank second) ||
    (dispatchRank first == dispatchRank second && byEnqueuedAt first second)

/-- The transaction of `_poll_and_dispatch`: the queue it leaves and the rows it
leases; `none` when a batch id violates the primary key. -/
def pollAndDispatch (env : PollEnv) (inFlight : Nat) (queue : TriggerQueue) : Option
    (TriggerQueue × List TriggerRecord) := do
  let availableSlots := config.pollBatch - inFlight
  if availableSlots = 0 then
    return (queue, [])
  let t1 ← createT1BatchRows config env availableSlots (pruneLowValueDownstreamRows config env queue)
  -- A poll that creates T1 batches leases nothing else.
  let remainingSlots := if t1.batches.isEmpty then availableSlots else 0
  let downstream ← createDownstreamBatchRows config env remainingSlots t1.queue
  let batches := t1.batches ++ downstream.batches
  let pollRows := selectForUpdate downstream.queue env.poll (pollable config env.now) byRank
    (if remainingSlots = 0 then 0 else availableSlots - batches.length)
  let leased := batches ++ pollRows
  return (leaseTriggers config.workerId env.now (leased.map Prod.fst) downstream.queue, leased)

end

end FyralisCore.Think
