import Mathlib.Algebra.Order.Field.Rat
import Mathlib.Data.List.Infix
import FyralisCore.Lib.Table

/-! The durable queue of Think triggers, with the re-evaluation queue behind its
T4 rows: the rows, and the statements that enqueue, lease, renew, complete, fail
and defer a trigger. Timestamps are seconds of the database clock. -/
namespace FyralisCore.Think

open Relational

inductive TriggerKind where
  | t1
  | t2
  | t3
  | t4
  | other (name : String)
  deriving DecidableEq

inductive TriggerSubkind where
  | eventArrival
  | eventBatch
  | beliefUpdated
  | latentRelationshipCandidate
  | modelReeval
  | other (name : String)
  deriving DecidableEq

/-- What the prunes write into the payload of a row that they complete. -/
structure AutoCompleted where
  reason : String
  completedBy : String
  candidateScores : List (Option Rat) := []
  deriving DecidableEq

/-- The keys of the payload that the worker reads or writes. The outer option of
`relationshipCandidateId` is the presence of the key, the inner one whether its
text is a UUID. -/
structure TriggerPayload where
  batch : Bool := false
  batchMemberTriggerIds : List Nat := []
  relationshipCandidateId : Option (Option Nat) := none
  relationshipCandidateIds : Option (List Nat) := none
  modelIds : List Nat := []
  memberModelIds : List Nat := []
  unbatchedFrom : Option Nat := none
  reevalRowId : Option Nat := none
  causeModelId : Option Nat := none
  causeKind : Option String := none
  cascadeDepth : Int := 0
  validationFeedback : Option String := none
  autoCompleted : Option AutoCompleted := none
  deriving DecidableEq

structure TriggerRow where
  tenantId : Nat
  triggerKind : TriggerKind
  triggerSubkind : Option TriggerSubkind
  observationId : Option Nat
  modelId : Option Nat
  payload : TriggerPayload
  enqueuedAt : Rat
  scheduledFor : Rat
  attempts : Nat
  lockedBy : Option String
  lockedAt : Option Rat
  completedAt : Option Rat
  lastError : Option String
  batchParentId : Option Nat
  deriving DecidableEq

abbrev TriggerQueue : Type := Table Nat TriggerRow

structure ReevalRow where
  tenantId : Nat
  modelId : Nat
  causeModelId : Option Nat
  causeKind : String
  enqueuedAt : Rat
  processedAt : Option Rat
  attempts : Nat
  lastError : Option String
  deriving DecidableEq

abbrev ReevalQueue : Type := Table Nat ReevalRow

structure ReevalDeadLetter where
  tenantId : Nat
  originalQueueId : Nat
  modelId : Nat
  causeModelId : Option Nat
  causeKind : String
  attempts : Nat
  lastError : String
  enqueuedAt : Rat
  deriving DecidableEq

structure ThinkDb where
  triggers : TriggerQueue
  reevals : ReevalQueue
  reevalDeadLetters : List ReevalDeadLetter

structure WorkerConfig where
  pollBatch : Nat := 10
  maxConcurrencyPerTenant : Nat := 1
  triggerMaxAttempts : Nat := 5
  reevalMaxAttempts : Nat := 5
  triggerLockTimeoutS : Rat := 600
  t1BatchWindowS : Rat := 30
  t1BatchMaxSize : Nat := 30
  t1BatchMinSize : Nat := 20
  downstreamBatchWindowS : Rat := 60
  downstreamBatchMinSize : Nat := 2
  t2BatchMaxSize : Nat := 8
  t4BatchMaxSize : Nat := 4
  pruneLowValueDownstreamTriggers : Bool := true
  t4TopologyMinJudgmentLeverage : Rat := 7 / 10
  t4TopologyMinImpact : Rat := 1 / 2
  t4TopologyMinActionability : Rat := 2 / 5
  t4TopologyMinConfidence : Rat := 1 / 2
  workerId : String
  tenantFilter : Option Nat := none
  validationMaxAttempts : Option Nat := none
  maxInferentialLineageDepth : Int := 50
  providerQuotaBackoffS : Rat := 10800
  providerRateLimitBackoffS : Rat := 900
  providerCircuitOpenBackoffS : Rat := 900
  /-- `str.casefold`, by default as on ASCII text -/
  casefold : String → String := String.toLower

/-- The row that `enqueue_trigger` inserts; a caller that passes `locked_by`
leases it at once. -/
def newTriggerRow (now : Rat) (tenantId : Nat) (triggerKind : TriggerKind)
    (triggerSubkind : Option TriggerSubkind) (observationId modelId : Option Nat)
    (payload : TriggerPayload) (scheduledFor : Option Rat) (lockedBy : Option String) :
    TriggerRow where
  tenantId := tenantId
  triggerKind := triggerKind
  triggerSubkind := triggerSubkind
  observationId := observationId
  modelId := modelId
  payload := payload
  enqueuedAt := now
  scheduledFor := scheduledFor.getD now
  attempts := 0
  lockedBy := lockedBy
  lockedAt := lockedBy.map fun _ => now
  completedAt := none
  lastError := none
  batchParentId := none

def insertTrigger (queue : TriggerQueue) (triggerId : Nat) (row : TriggerRow) :
    Option TriggerQueue :=
  if (queue.get triggerId).isSome then none else some (queue.put triggerId row)

/-- UNIQUE NULLS NOT DISTINCT (tenant_id, model_id, cause_model_id, processed_at). -/
def dedupClash (reevals : ReevalQueue) (row : ReevalRow) : Bool :=
  reevals.any fun _ other => other.tenantId == row.tenantId && other.modelId == row.modelId &&
    other.causeModelId == row.causeModelId && other.processedAt == row.processedAt

/-- `enqueue_model_reeval`: ON CONFLICT ON CONSTRAINT model_reeval_queue_dedup DO
NOTHING. -/
def enqueueModelReeval (now : Rat) (rowId tenantId modelId : Nat) (causeModelId : Option Nat)
    (causeKind : String) (reevals : ReevalQueue) : Option ReevalQueue :=
  let row : ReevalRow := ⟨tenantId, modelId, causeModelId, causeKind, now, none, 0, none⟩
  if dedupClash reevals row then some reevals
  else if (reevals.get rowId).isSome then none
  else some (reevals.put rowId row)

section

variable (config : WorkerConfig)

def lockFree (now : Rat) (row : TriggerRow) : Bool :=
  row.lockedBy == none ||
    row.lockedAt.any fun lockedAt => decide (lockedAt < now - config.triggerLockTimeoutS)

def inTenant (row : TriggerRow) : Bool :=
  config.tenantFilter.all fun tenantId => row.tenantId == tenantId

def TriggerRow.leasedTo (row : TriggerRow) (workerId : String) (now : Rat) : TriggerRow :=
  { row with lockedBy := some workerId, lockedAt := some now }

def TriggerRow.unlocked (row : TriggerRow) : TriggerRow :=
  { row with lockedBy := none, lockedAt := none }

def TriggerRow.completed (row : TriggerRow) (now : Rat) : TriggerRow :=
  { row.unlocked with completedAt := some now }

def leaseTriggers (workerId : String) (now : Rat) (ids : List Nat) (queue : TriggerQueue) :
    TriggerQueue :=
  queue.updateWhere (fun id _ => decide (id ∈ ids)) fun _ row => row.leasedTo workerId now

def heartbeatTrigger (workerId : String) (now : Rat) (triggerId : Nat) (queue : TriggerQueue) :
    TriggerQueue :=
  queue.updateWhere
    (fun id row => id == triggerId && row.completedAt == none && row.lockedBy == some workerId)
    fun _ row => { row with lockedAt := some now }

/-- `_recover_orphaned_trigger_locks`, which a worker runs when it starts. -/
def recoverOrphanedTriggerLocks (now : Rat) (queue : TriggerQueue) : TriggerQueue :=
  queue.updateWhere
    (fun _ row => row.completedAt == none && row.lockedBy != none && inTenant config row &&
      (row.lockedBy == some config.workerId || row.lockedAt == none ||
        row.lockedAt.any fun lockedAt => decide (lockedAt < now - config.triggerLockTimeoutS)))
    fun _ row => row.unlocked

def deferTriggerForBudget (workerId : String) (nextDay : Rat) (triggerId : Nat)
    (queue : TriggerQueue) : TriggerQueue :=
  queue.updateWhere (fun id row => id == triggerId && row.lockedBy == some workerId)
    fun _ row => { row.unlocked with scheduledFor := nextDay }

def completes (workerId : String) (triggerId : Nat) (queue : TriggerQueue) : Bool :=
  (queue.get triggerId).any fun row => row.lockedBy == some workerId

def completeTrigger (workerId : String) (now : Rat) (triggerId : Nat) (queue : TriggerQueue) :
    TriggerQueue :=
  queue.updateWhere (fun id row => id == triggerId && row.lockedBy == some workerId)
    fun _ row => { row.completed now with lastError := none }

def isMember (memberIds : List Nat) (triggerId id : Nat) (row : TriggerRow) : Bool :=
  decide (id ∈ memberIds) && row.batchParentId == some triggerId && row.completedAt == none

def completeMembers (now : Rat) (memberIds : List Nat) (triggerId : Nat) (queue : TriggerQueue) :
    TriggerQueue :=
  queue.updateWhere (isMember memberIds triggerId)
    fun _ row => { row.completed now with lastError := none }

/-- UPDATE model_reeval_queue SET processed_at = now() WHERE processed_at IS NULL;
`none` when the dedup constraint refuses the row. -/
def stampReeval (now : Rat) (reevalRowId : Nat) (reevals : ReevalQueue) : Option ReevalQueue :=
  match reevals.get reevalRowId with
  | some row =>
    if row.processedAt = none then
      if dedupClash reevals { row with processedAt := some now } then none
      else some (reevals.update reevalRowId fun row => { row with processedAt := some now })
    else some reevals
  | none => some reevals

def stampPromoted (now : Rat) (payload : TriggerPayload) (reevals : ReevalQueue) :
    Option ReevalQueue :=
  match payload.reevalRowId with
  | none => some reevals
  | some reevalRowId => stampReeval now reevalRowId reevals

/-- The statements of `_mark_trigger_complete` after the first one. -/
def completeRest (now : Rat) (triggerId : Nat) (payload : TriggerPayload) (db : ThinkDb) :
    Option ThinkDb :=
  (stampPromoted now payload db.reevals).map fun reevals => { db with
    triggers := completeMembers now payload.batchMemberTriggerIds triggerId db.triggers
    reevals := reevals }

def mentions (text marker : String) : Bool :=
  decide (marker.toList <:+: text.toList)

def providerFailureBackoffSeconds (error : String) : Option Rat :=
  let text := config.casefold error
  if ["usage limit", "insufficient balance", "payment required", "quota", "billing",
      "credits"].any (mentions text) then
    some config.providerQuotaBackoffS
  else if ["rate limit", "rate_limit", " 429", "429 "].any (mentions text) then
    some config.providerRateLimitBackoffS
  else if mentions text "circuit breaker" && mentions text "open" then
    some config.providerCircuitOpenBackoffS
  else none

def queueRetryBackoffSeconds (attempts : Nat) : Rat :=
  if attempts = 0 then 0 else min 300 (10 * 2 ^ (attempts - 1))

structure TriggerFailure where
  error : String
  forceTerminal : Bool := false
  isValidation : Bool := false
  feedback : Option String := none

def effectiveMaxAttempts (failure : TriggerFailure) : Nat :=
  match failure.isValidation, config.validationMaxAttempts with
  | true, some cap => min config.triggerMaxAttempts cap
  | _, _ => config.triggerMaxAttempts

def isTerminal (failure : TriggerFailure) (row : TriggerRow) : Bool :=
  failure.forceTerminal || decide (effectiveMaxAttempts config failure ≤ row.attempts + 1)

/-- The row that stays in the queue for another attempt; validator feedback goes
into its payload for the next prompt. -/
def TriggerRow.retried (now : Rat) (failure : TriggerFailure) (row : TriggerRow) : TriggerRow :=
  { row.unlocked with
    attempts := row.attempts + 1
    scheduledFor := now + (providerFailureBackoffSeconds config failure.error).getD
      (queueRetryBackoffSeconds (row.attempts + 1))
    lastError := some (failure.error.take 2000).toString
    payload :=
      match failure.feedback.filter (· ≠ ""), failure.isValidation,
        config.validationMaxAttempts with
      | some feedback, true, some _ =>
        { row.payload with validationFeedback := some (feedback.take 2000).toString }
      | _, _, _ => row.payload }

def TriggerRow.deadLettered (now : Rat) (failure : TriggerFailure) (row : TriggerRow) :
    TriggerRow :=
  { row.completed now with
    attempts := row.attempts + 1
    lastError := some (failure.error.take 2000).toString }

def releaseMembers (now : Rat) (memberIds : List Nat) (triggerId : Nat) (queue : TriggerQueue) :
    TriggerQueue :=
  queue.updateWhere (isMember memberIds triggerId) fun _ row =>
    { row.unlocked with
      batchParentId := none
      scheduledFor := now
      payload := { row.payload with unbatchedFrom := some triggerId } }

/-- `_dead_letter_reeval`: the row moves to the dead letters and is stamped. -/
def deadLetterReeval (now : Rat) (reevalRowId attempts : Nat) (lastError : String) (db : ThinkDb) :
    Option ThinkDb :=
  match db.reevals.get reevalRowId with
  | none => some db
  | some row =>
    let stamped := { row with
      processedAt := some now, attempts := attempts, lastError := some lastError }
    if dedupClash (db.reevals.remove reevalRowId) stamped then none
    else some { db with
      reevals := db.reevals.update reevalRowId fun _ => stamped
      reevalDeadLetters := db.reevalDeadLetters ++ [
        { tenantId := row.tenantId
          originalQueueId := reevalRowId
          modelId := row.modelId
          causeModelId := row.causeModelId
          causeKind := row.causeKind
          attempts := attempts
          lastError := lastError
          enqueuedAt := row.enqueuedAt }] }

/-- `_mark_trigger_failed`: nothing unless the row is uncompleted and locked by
the worker. -/
def markTriggerFailed (now : Rat) (triggerId : Nat) (failure : TriggerFailure) (db : ThinkDb) :
    Option ThinkDb :=
  match db.triggers.get triggerId with
  | none => some db
  | some row =>
    if row.completedAt = none ∧ row.lockedBy = some config.workerId then
      if isTerminal config failure row then
        let failed := { db with
          triggers := releaseMembers now row.payload.batchMemberTriggerIds triggerId
            (db.triggers.update triggerId (TriggerRow.deadLettered now failure)) }
        match row.payload.reevalRowId with
        | none => some failed
        | some reevalRowId => deadLetterReeval now reevalRowId (row.attempts + 1) failure.error failed
      else some { db with
        triggers := db.triggers.update triggerId (TriggerRow.retried config now failure) }
    else some db

end

end FyralisCore.Think
