import FyralisCore.Lib.Reach
import FyralisCore.Think.TriggerPoll

/-! Any number of think workers on one database. The statements of
`_promote_reeval_rows` are steps of their own, under row locks that last until
the transaction ends; every other transaction of the worker locks the rows it
decides on before it reads them, and is one step. -/
namespace FyralisCore.Think

open Relational Transition

inductive RunOutcome where
  | succeeded
  | failed (failure : TriggerFailure)

/-- `waiting`: behind the tenant's semaphore. `unmatched`: inside
`_mark_trigger_complete`, whose first UPDATE has found no row. -/
inductive TaskPhase where
  | waiting
  | running
  | ended (outcome : RunOutcome)
  | unmatched

/-- A dispatched trigger, with the row as its poll returned it. `renewedAt` is
`now()` of its lease or last heartbeat, `beatAt` the start of `think()` or its
last heartbeat. -/
structure TriggerTask (W : Type) where
  worker : W
  triggerId : Nat
  row : TriggerRow
  phase : TaskPhase
  renewedAt : Rat
  beatAt : Rat

/-- An open transaction of `_promote_reeval_rows`: the rows it has locked, those
it has still to look at, whether the check of the first one found no trigger,
and what it has inserted. -/
structure Promotion where
  locked : List Nat
  rows : List (Nat × ReevalRow)
  absent : Bool
  inserted : List TriggerRecord

structure WorkerSystem (W : Type) [DecidableEq W] where
  clock : Rat
  db : ThinkDb
  tasks : Table Nat (TriggerTask W)
  promotions : Table W Promotion

inductive WorkerAction (W : Type) where
  | wait (seconds : Rat)
  /-- any other component; only the promotion writes a reeval_row_id -/
  | enqueue (triggerId : Nat) (now : Rat) (tenantId : Nat) (kind : TriggerKind)
      (subkind : Option TriggerSubkind) (observationId modelId : Option Nat)
      (payload : TriggerPayload) (scheduledFor : Option Rat)
  | enqueueReeval (rowId : Nat) (now : Rat) (tenantId modelId : Nat) (causeModelId : Option Nat)
      (causeKind : String)
  | promoteLock (worker : W) (sees : Nat → Bool)
  | promoteCheck (worker : W)
  | promoteInsert (worker : W) (triggerId : Nat) (now : Rat)
  | promoteCommit (worker : W)
  | promoteRollback (worker : W)
  /-- the poll transaction; its rows become tasks -/
  | poll (worker : W) (env : PollEnv) (firstTask : Nat)
  /-- the start of the process -/
  | recover (worker : W) (now : Rat)
  | crash (worker : W)
  | rejectDepth (task : Nat) (now : Rat)
  | deferBudget (task : Nat) (nextDay : Rat)
  | think (task : Nat)
  | heartbeat (task : Nat) (now : Rat)
  /-- `think()` times out or raises; the heartbeat beats until the row is marked -/
  | raised (task : Nat) (now : Rat) (failure : TriggerFailure)
  | returned (task : Nat) (outcome : RunOutcome)
  | fail (task : Nat) (now : Rat)
  | complete (task : Nat) (now : Rat)
  | completeRest (task : Nat) (now : Rat)
  /-- a statement around the run raises -/
  | abandon (task : Nat)

def thinkWorkers : Bool → WorkerConfig
  | false => { workerId := "think-1" }
  | true => { workerId := "think-2" }

variable {W : Type} [DecidableEq W]

def WorkerSystem.fresh : WorkerSystem W := ⟨0, ⟨∅, ∅, []⟩, ∅, ∅⟩

def reevalLocked (promotions : Table W Promotion) (rowId : Nat) : Bool :=
  promotions.any fun _ promotion => decide (rowId ∈ promotion.locked)

section

variable (config : WorkerConfig)

/-- SELECT ... WHERE processed_at IS NULL ... FOR UPDATE SKIP LOCKED LIMIT. -/
def pendingReevals (sees : Nat → Bool) (reevals : ReevalQueue) : List (Nat × ReevalRow) :=
  ((reevals.rows.filter fun record => sees record.1 && record.2.processedAt == none &&
    decide (record.2.attempts < config.reevalMaxAttempts) &&
    config.tenantFilter.all fun tenantId => record.2.tenantId == tenantId).insertionSort
      fun first second => first.2.enqueuedAt ≤ second.2.enqueuedAt).take config.pollBatch

/-- An uncompleted T4 trigger with the re-evaluation row's id in its payload. -/
def isPromoted (reevalRowId : Nat) (row : TriggerRow) : Bool :=
  row.triggerKind == .t4 && row.payload.reevalRowId == some reevalRowId && row.completedAt == none

/-- What the promotion's check sees: the committed queue and its own inserts. -/
def promotedInFlight (triggers : TriggerQueue) (promotion : Promotion) (reevalRowId : Nat) : Bool :=
  triggers.any (fun _ row => isPromoted reevalRowId row) ||
    promotion.inserted.any fun record => isPromoted reevalRowId record.2

def promotedRow (now : Rat) (reevalRowId : Nat) (reeval : ReevalRow) : TriggerRow :=
  newTriggerRow now reeval.tenantId .t4 (some .modelReeval) none (some reeval.modelId)
    { reevalRowId := some reevalRowId
      causeModelId := reeval.causeModelId
      causeKind := some reeval.causeKind } none none

def TaskPhase.isActive : TaskPhase → Bool
  | .waiting => false
  | _ => true

def semaphoreFree (tasks : Table Nat (TriggerTask W)) (task : TriggerTask W) : Bool :=
  decide ((tasks.count fun _ other => decide (other.worker = task.worker) &&
    other.row.tenantId == task.row.tenantId && other.phase.isActive) <
      config.maxConcurrencyPerTenant)

def inFlight (tasks : Table Nat (TriggerTask W)) (worker : W) : Nat :=
  tasks.count fun _ task => decide (task.worker = worker)

def dispatchTasks (worker : W) (now : Rat) : List TriggerRecord → Nat →
    Table Nat (TriggerTask W) → Option (Table Nat (TriggerTask W))
  | [], _, tasks => some tasks
  | record :: rest, taskId, tasks =>
    if (tasks.get taskId).isSome then none
    else dispatchTasks worker now rest (taskId + 1)
      (tasks.put taskId ⟨worker, record.1, record.2, .waiting, now, now⟩)

/-- The re-evaluation row that a payload names is held by an open promotion, so
the statement that stamps it waits. -/
def reevalBlocked (promotions : Table W Promotion) (payload : TriggerPayload) : Bool :=
  payload.reevalRowId.any (reevalLocked promotions)

def WorkerSystem.marked (system : WorkerSystem W) (taskId : Nat) (db : ThinkDb) : WorkerSystem W :=
  { system with db := db, tasks := system.tasks.remove taskId }

def WorkerSystem.setTriggers (system : WorkerSystem W) (triggers : TriggerQueue) : WorkerSystem W :=
  { system with db := { system.db with triggers := triggers } }

def WorkerSystem.setPhase (system : WorkerSystem W) (taskId : Nat) (task : TriggerTask W)
    (phase : TaskPhase) : WorkerSystem W :=
  { system with tasks := system.tasks.put taskId { task with phase := phase } }

/-- The failure dead-letters a re-evaluation row that an open promotion holds. -/
def failureBlocked (failure : TriggerFailure) (promotions : Table W Promotion)
    (triggers : TriggerQueue) (triggerId : Nat) : Bool :=
  (triggers.get triggerId).any fun row =>
    row.completedAt == none && row.lockedBy == some config.workerId &&
      isTerminal config failure row && reevalBlocked promotions row.payload

def failTask (system : WorkerSystem W) (taskId : Nat) (task : TriggerTask W) (now : Rat)
    (failure : TriggerFailure) : Option (WorkerSystem W) :=
  if failureBlocked config failure system.promotions system.db.triggers task.triggerId then none
  else (markTriggerFailed config now task.triggerId failure system.db).map (system.marked taskId)

def depthFailure (depth : Int) : TriggerFailure where
  error := "cascade_bound_violation: depth=" ++ toString depth ++ " >= " ++
    toString config.maxInferentialLineageDepth
  forceTerminal := true

end

section

variable (config : W → WorkerConfig) (system : WorkerSystem W)

def promotionStep : WorkerAction W → Option (WorkerSystem W)
  | .promoteLock worker sees =>
    match system.promotions.get worker with
    | some _ => none
    | none =>
      let rows := pendingReevals (config worker)
        (fun rowId => sees rowId && !reevalLocked system.promotions rowId) system.db.reevals
      some { system with
        promotions := system.promotions.put worker ⟨rows.map Prod.fst, rows, false, []⟩ }
  | .promoteCheck worker =>
    match system.promotions.get worker with
    | some ⟨locked, (rowId, reeval) :: rest, false, inserted⟩ =>
      let promotion : Promotion := ⟨locked, (rowId, reeval) :: rest, false, inserted⟩
      some { system with
        promotions := system.promotions.put worker
          (if promotedInFlight system.db.triggers promotion rowId then
            { promotion with rows := rest }
          else { promotion with absent := true }) }
    | _ => none
  | .promoteInsert worker triggerId now =>
    match system.promotions.get worker with
    | some ⟨locked, (rowId, reeval) :: rest, true, inserted⟩ =>
      some { system with
        promotions := system.promotions.put worker
          ⟨locked, rest, false, inserted ++ [(triggerId, promotedRow now rowId reeval)]⟩ }
    | _ => none
  | .promoteCommit worker =>
    match system.promotions.get worker with
    | some ⟨_, [], _, inserted⟩ =>
      (system.db.triggers.insertFresh inserted).map fun triggers =>
        { system.setTriggers triggers with promotions := system.promotions.remove worker }
    | _ => none
  | .promoteRollback worker =>
    some { system with promotions := system.promotions.remove worker }
  | _ => none

def taskStep (taskId : Nat) (task : TriggerTask W) : WorkerAction W → Option (WorkerSystem W)
  | .rejectDepth _ now =>
    match task.phase with
    | .waiting =>
      if semaphoreFree (config task.worker) system.tasks task ∧
          (config task.worker).maxInferentialLineageDepth ≤ task.row.payload.cascadeDepth then
        failTask (config task.worker) system taskId task now
          (depthFailure (config task.worker) task.row.payload.cascadeDepth)
      else none
    | _ => none
  | .deferBudget _ nextDay =>
    match task.phase with
    | .waiting =>
      if semaphoreFree (config task.worker) system.tasks task ∧
          task.row.payload.cascadeDepth < (config task.worker).maxInferentialLineageDepth then
        some (system.marked taskId { system.db with
          triggers := deferTriggerForBudget (config task.worker).workerId nextDay task.triggerId
            system.db.triggers })
      else none
    | _ => none
  | .think _ =>
    match task.phase with
    | .waiting =>
      if semaphoreFree (config task.worker) system.tasks task ∧
          task.row.payload.cascadeDepth < (config task.worker).maxInferentialLineageDepth then
        some { system with
          tasks := system.tasks.put taskId { task with phase := .running, beatAt := system.clock } }
      else none
    | _ => none
  | .heartbeat _ now =>
    match task.phase with
    | .running =>
      -- One coroutine beats, so each heartbeat starts after the one before.
      if task.beatAt ≤ now ∧ now ≤ system.clock then
        some { system.setTriggers (heartbeatTrigger (config task.worker).workerId now task.triggerId
            system.db.triggers) with
          tasks := system.tasks.put taskId { task with renewedAt := now, beatAt := now } }
      else none
    | _ => none
  | .raised _ now failure =>
    match task.phase with
    | .running => failTask (config task.worker) system taskId task now failure
    | _ => none
  | .returned _ outcome =>
    match task.phase with
    | .running => some (system.setPhase taskId task (.ended outcome))
    | _ => none
  | .fail _ now =>
    match task.phase with
    | .ended (.failed failure) => failTask (config task.worker) system taskId task now failure
    | _ => none
  | .complete _ now =>
    match task.phase with
    | .ended .succeeded =>
      if completes (config task.worker).workerId task.triggerId system.db.triggers then
        if reevalBlocked system.promotions task.row.payload then none
        else (completeRest now task.triggerId task.row.payload { system.db with
          triggers := completeTrigger (config task.worker).workerId now task.triggerId
            system.db.triggers }).map (system.marked taskId)
      else some (system.setPhase taskId task .unmatched)
    | _ => none
  | .completeRest _ now =>
    match task.phase with
    | .unmatched =>
      if reevalBlocked system.promotions task.row.payload then none
      else (completeRest now task.triggerId task.row.payload system.db).map (system.marked taskId)
    | _ => none
  | .abandon _ => some (system.marked taskId system.db)
  | _ => none

def WorkerAction.task? : WorkerAction W → Option Nat
  | .rejectDepth task _ | .deferBudget task _ | .think task | .heartbeat task _ | .raised task _ _
  | .returned task _ | .fail task _ | .complete task _ | .completeRest task _ | .abandon task =>
    some task
  | _ => none

def workerStep (action : WorkerAction W) : Option (WorkerSystem W) :=
  match action.task? with
  | some taskId => (system.tasks.get taskId).bind fun task =>
      taskStep config system taskId task action
  | none =>
    match action with
    | .wait seconds =>
      if 0 ≤ seconds then some { system with clock := system.clock + seconds } else none
    | .enqueue triggerId now tenantId kind subkind observationId modelId payload scheduledFor =>
      if payload.reevalRowId = none then
        (insertTrigger system.db.triggers triggerId (newTriggerRow now tenantId kind subkind
          observationId modelId payload scheduledFor none)).map system.setTriggers
      else none
    | .enqueueReeval rowId now tenantId modelId causeModelId causeKind =>
      (enqueueModelReeval now rowId tenantId modelId causeModelId causeKind system.db.reevals).map
        fun reevals => { system with db := { system.db with reevals := reevals } }
    | .poll worker env firstTask =>
      if env.now ≤ system.clock then do
        let (triggers, leased) ← pollAndDispatch (config worker) env
          (inFlight system.tasks worker) system.db.triggers
        let tasks ← dispatchTasks worker env.now leased firstTask system.tasks
        return { system.setTriggers triggers with tasks := tasks }
      else none
    | .recover worker now =>
      if inFlight system.tasks worker = 0 ∧ now ≤ system.clock then
        some (system.setTriggers
          (recoverOrphanedTriggerLocks (config worker) now system.db.triggers))
      else none
    | .crash worker =>
      some { system with
        tasks := system.tasks.deleteWhere fun _ task => decide (task.worker = worker)
        promotions := system.promotions.remove worker }
    | action => promotionStep config system action

end

end FyralisCore.Think
