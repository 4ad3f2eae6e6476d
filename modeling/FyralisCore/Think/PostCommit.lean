import Mathlib.Data.List.Sort
import FyralisCore.Acts.Schema
import FyralisCore.Lib.Connection
import FyralisCore.Think.TriggerQueue

/-! The queue of post-commit actions and its worker (`post_commit.py`): the
statements on pending_post_commit_actions and the processing of one batch on one
connection. Handlers are a registry of programs over the other tables. -/
namespace FyralisCore.Think.PostCommit

open Relational Connection

def maxAttempts : Nat := 5

inductive ActionKind where
  | publishAnomalies
  | schedulePredictions
  | broadcastRealtime
  | invalidateMetrics
  | discoverModelEdges
  deriving DecidableEq, Repr

def ActionKind.text : ActionKind → String
  | .publishAnomalies => "publish_anomalies"
  | .schedulePredictions => "schedule_predictions"
  | .broadcastRealtime => "broadcast_realtime"
  | .invalidateMetrics => "invalidate_metrics"
  | .discoverModelEdges => "discover_model_edges"

structure ActionRow where
  tenantId : Nat
  triggerId : Nat
  actionKind : ActionKind
  actionPayload : Acts.Json
  createdAt : Rat
  scheduledAt : Rat
  processedAt : Option Rat := none
  attempts : Nat := 0
  lastError : Option String := none
  deadLetteredAt : Option Rat := none

/-- `W` is the rest of the database, which the handlers work on. -/
structure QueueDb (W : Type) where
  actions : Table Nat ActionRow
  others : W

/-- An exception. `except Exception` catches the first kind only: a cancelled task
and an exiting interpreter raise the second. -/
inductive Raised where
  | exception (typeName message : String)
  | exit (typeName : String)
  deriving DecidableEq

def inFailedTransaction : Raised :=
  .exception "InFailedSQLTransactionError"
    "current transaction is aborted, commands ignored until end of transaction block"

abbrev QueueSession (W α : Type) : Type := Session (QueueDb W) Raised α

abbrev ActionHandler (W : Type) : Type := Acts.Json → Nat → Nat → Session W Raised Unit

abbrev Dispatchers (W : Type) : Type := ActionKind → Option (ActionHandler W)

structure PendingAction where
  id : Nat
  tenantId : Nat
  triggerId : Nat
  actionKind : ActionKind
  actionPayload : Acts.Json
  attempts : Nat
  scheduledAt : Rat
  createdAt : Rat

def ActionRow.isDue (now : Rat) (tenantId : Option Nat) (row : ActionRow) : Bool :=
  (tenantId.all fun tenantId => row.tenantId = tenantId) && row.processedAt.isNone &&
    row.deadLetteredAt.isNone && decide (row.scheduledAt ≤ now)

def ActionRow.pending (id : Nat) (row : ActionRow) : PendingAction where
  id := id
  tenantId := row.tenantId
  triggerId := row.triggerId
  actionKind := row.actionKind
  actionPayload := row.actionPayload
  attempts := row.attempts
  scheduledAt := row.scheduledAt
  createdAt := row.createdAt

/-- `fetch_pending_actions`; rows locked by other sessions are skipped, and rows
of one time come in table order. -/
def fetchPendingActions (now : Rat) (locked : Nat → Bool) (limit : Nat) (tenantId : Option Nat)
    (actions : Table Nat ActionRow) : List PendingAction :=
  let due := actions.rows.filter fun entry => entry.2.isDue now tenantId && !locked entry.1
  let ordered := due.insertionSort fun first second =>
    first.2.scheduledAt ≤ second.2.scheduledAt
  (ordered.take limit).map fun entry => entry.2.pending entry.1

def clip (text : String) : String :=
  String.ofList (text.toList.take 2000)

def storable (text : String) : Bool :=
  '\x00' ∉ text.toList

def ActionRow.sameAction (row other : ActionRow) : Bool :=
  row.tenantId = other.tenantId && row.triggerId = other.triggerId &&
    row.actionKind = other.actionKind

def processedTwice (actions : Table Nat ActionRow) (now : Rat) (id : Nat) : Bool :=
  (actions.get id).any fun row =>
    actions.any fun otherId other =>
      otherId ≠ id && other.sameAction row && other.processedAt = some now

variable {W : Type}

def QueueDb.updateAction (db : QueueDb W) (id : Nat) (change : ActionRow → ActionRow) : QueueDb W :=
  { db with actions := db.actions.update id change }

def ActionRow.processed (now : Rat) (row : ActionRow) : ActionRow :=
  { row with processedAt := some now, lastError := none }

def ActionRow.retried (now : Rat) (error : String) (row : ActionRow) : ActionRow :=
  { row with
    attempts := row.attempts + 1
    scheduledAt := now + (queueRetryBackoffSeconds (row.attempts + 1)).floor
    lastError := some (clip error) }

def ActionRow.deadLettered (now : Rat) (error : String) (row : ActionRow) : ActionRow :=
  { row with deadLetteredAt := some now, lastError := some (clip error) }

def uniqueViolation : Raised :=
  .exception "UniqueViolationError"
    "duplicate key value violates unique constraint \"post_commit_dedup\""

def characterNotInRepertoire : Raised :=
  .exception "CharacterNotInRepertoireError" "invalid byte sequence for encoding \"UTF8\": 0x00"

section

variable {W : Type}

def markActionProcessed (now : Rat) (id : Nat) : QueueSession W Unit :=
  .statement inFailedTransaction fun db =>
    if processedTwice db.actions now id then .error uniqueViolation
    else .ok (db.updateAction id (ActionRow.processed now), ())

def incrementAttempts (now : Rat) (id : Nat) (error : String) : QueueSession W Nat := do
  let current ← Session.statement inFailedTransaction fun db => .ok (db, db.actions.get id)
  match current with
  | none => return 0
  | some row =>
    Session.statement inFailedTransaction fun db =>
      if storable (clip error) then .ok (db.updateAction id (ActionRow.retried now error), ())
      else .error characterNotInRepertoire
    return row.attempts + 1

def moveToDeadLetter (now : Rat) (id : Nat) (error : String) : QueueSession W Unit :=
  .statement inFailedTransaction fun db =>
    if storable (clip error) then .ok (db.updateAction id (ActionRow.deadLettered now error), ())
    else .error characterNotInRepertoire

def onOthers (body : Session W Raised Unit) : QueueSession W Unit :=
  .within QueueDb.others (fun others db => { db with others }) body

def dispatchAction (dispatchers : Dispatchers W) (action : PendingAction) : Session W Raised Unit :=
  match dispatchers action.actionKind with
  | none => .raise (.exception "RuntimeError"
    ("no handler registered for action_kind='" ++ action.actionKind.text ++ "'"))
  | some handler => handler action.actionPayload action.tenantId action.triggerId

end

structure WorkerStats where
  processed : Nat := 0
  failed : Nat := 0
  deadLettered : Nat := 0
  iterations : Nat := 0
  deriving DecidableEq

/-- The loop of `process_batch` between two actions; `dispatched` is what each
handler that ran has answered, the latest first. -/
structure BatchState (W : Type) where
  conn : Conn (QueueDb W)
  stats : WorkerStats
  dispatched : List (PendingAction × Except Raised Unit) := []

def errorText (typeName message : String) : String :=
  typeName ++ ": " ++ message

def recordFailure (now : Rat) (id : Nat) (error : String) : QueueSession W Nat := do
  let newAttempts ← incrementAttempts now id error
  if maxAttempts ≤ newAttempts then
    moveToDeadLetter now id ("exceeded max attempts (" ++ toString maxAttempts ++ "): " ++ error)
  return newAttempts

def bookkeeping (now : Rat) (action : PendingAction) (stats : WorkerStats) :
    Except Raised Unit → QueueSession W WorkerStats
  | .ok () => do
    markActionProcessed now action.id
    return { stats with processed := stats.processed + 1 }
  | .error (.exit typeName) => .raise (.exit typeName)
  | .error (.exception typeName message) => do
    let newAttempts ← recordFailure now action.id (errorText typeName message)
    if maxAttempts ≤ newAttempts then
      return { stats with deadLettered := stats.deadLettered + 1 }
    else return { stats with failed := stats.failed + 1 }

/-- One pass of the loop. The handler runs on the batch's own connection. -/
def processAction (dispatchers : Dispatchers W) (now : Rat) (action : PendingAction)
    (batch : BatchState W) : Except Raised Unit × BatchState W :=
  let (outcome, conn) := onOthers (dispatchAction dispatchers action) batch.conn
  let dispatched := (action, outcome) :: batch.dispatched
  match bookkeeping now action batch.stats outcome conn with
  | (.ok stats, conn) => (.ok (), { conn, stats, dispatched })
  | (.error error, conn) => (.error error, { conn, stats := batch.stats, dispatched })

def processActions (dispatchers : Dispatchers W) (now : Rat) :
    List PendingAction → BatchState W → Except Raised Unit × BatchState W
  | [], batch => (.ok (), batch)
  | action :: rest, batch =>
    match processAction dispatchers now action batch with
    | (.ok (), batch) => processActions dispatchers now rest batch
    | (.error error, batch) => (.error error, batch)

structure BatchRun (W : Type) where
  result : Except Raised Unit
  db : QueueDb W
  stats : WorkerStats
  dispatched : List (PendingAction × Except Raised Unit)

def processBatch (dispatchers : Dispatchers W) (now : Rat) (locked : Nat → Bool) (limit : Nat)
    (tenantId : Option Nat) (stats : WorkerStats) (db : QueueDb W) : BatchRun W :=
  let actions := fetchPendingActions now locked limit tenantId db.actions
  let (result, batch) := processActions dispatchers now actions
    { conn := { state := db }, stats := { stats with iterations := stats.iterations + 1 } }
  { result, db := batch.conn.ended db result, stats := batch.stats,
    dispatched := batch.dispatched }

end FyralisCore.Think.PostCommit
