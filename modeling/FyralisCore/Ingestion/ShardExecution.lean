import FyralisCore.Ingestion.ShardFetch

/-! One shard and the replicas that work on it: the signal path, the orphan
scan, the fetch loop and the terminal transition. A replica runs one loop of a
shard at a time. -/
namespace FyralisCore.Ingestion

inductive ShardState where
  | pending
  | inProgress
  | done
  | failed
  | reconciliationResharded
deriving DecidableEq

def ShardState.isOpen : ShardState → Bool
  | .pending | .inProgress => true
  | .done | .failed | .reconciliationResharded => false

structure ShardRow where
  state : ShardState := .pending
  startedAt : Option Nat := none
  lastError : Option String := none

structure WorkflowStateRow (Cursor : Type) where
  stateData : StateData Cursor
  lastAdvancedAt : Nat

inductive ShardStatus where
  | done
  | failed
deriving DecidableEq

/-- The data of a `shard_fetch_completed` signal. It carries no count. -/
structure ShardFetchCompleted where
  status : ShardStatus
  failureReason : Option String

/-- The `shard.fetched` progress event, with whether the UPDATE of the execution
that published it moved the row. -/
structure ShardFetched where
  observationCount : Nat
  movedRow : Bool
deriving DecidableEq

structure ShardDb (Cursor : Type) where
  shard : ShardRow := {}
  workflow : Option (WorkflowStateRow Cursor) := none
  completed : List ShardFetchCompleted := []
  published : List ShardFetched := []
  now : Nat := 0

/-- How `_run_fetch_loop` leaves its shard. -/
inductive Ending where
  | done
  | failed (reason : String)

inductive ExecutionPhase (Cursor Body : Type) where
  | idle
  /-- the claim transaction has read the row as pending -/
  | claiming
  /-- the claim transaction has read the row as terminal -/
  | replaying (status : ShardStatus)
  /-- the scan has listed the shard -/
  | orphaned
  | loadInstall
  | ensureState
  | persistInitial
  | loadCursor
  | fetchPage (current : Option (StateData Cursor))
  | writePage (current : Option (StateData Cursor)) (result : FetchResult Cursor Body)
  | advance (current : Option (StateData Cursor)) (result : FetchResult Cursor Body)
  | terminating (ending : Ending)
  | publishing (movedRow : Bool)

variable {Cursor Body Replica : Type}

def ExecutionPhase.inFetchLoop : ExecutionPhase Cursor Body → Bool
  | .loadInstall | .ensureState | .persistInitial | .loadCursor | .fetchPage _ | .writePage _ _
  | .advance _ _ => true
  | .idle | .claiming | .replaying _ | .orphaned | .terminating _ | .publishing _ => false

structure Execution (Cursor Body : Type) where
  phase : ExecutionPhase Cursor Body := .idle
  recordsFetched : Nat := 0
  /-- when this execution last stamped the shard or its workflow_states row -/
  leasedAt : Option Nat := none

def Execution.enter (exec : Execution Cursor Body) (phase : ExecutionPhase Cursor Body) :
    Execution Cursor Body :=
  { exec with phase := phase }

inductive Move (Cursor Body : Type) where
  /-- a `shard_fetch_requested` signal, delivered or delivered again -/
  | receive
  | claim
  | replay
  | scan
  | refresh
  | loadInstall (found : Bool)
  | ensure
  | bootstrap
  | load
  | fetch (result : FetchResult Cursor Body)
  /-- the S3 writes, the enqueueing and the flush go through -/
  | write
  | advance
  /-- an exception that is not recoverable -/
  | raise (reason : String)
  | terminate
  | publish
  /-- the loop parks its shard, or the process dies -/
  | stop

inductive ShardAction (Cursor Body Replica : Type) where
  | move (replica : Replica) (move : Move Cursor Body)
  | elapse (duration : Nat)
  /-- SourceOnboarding consumes the completion signal -/
  | rollUp
  /-- a reconciler re-shares the shard -/
  | reshard

structure ShardWorld (Cursor Body Replica : Type) where
  db : ShardDb Cursor := {}
  execs : Replica → Execution Cursor Body := fun _ => {}

def ShardDb.persistInitial (db : ShardDb Cursor) : ShardDb Cursor :=
  { db with workflow := some ⟨initialStateData, db.now⟩ }

def ShardDb.emitCompleted (db : ShardDb Cursor) (data : ShardFetchCompleted) : ShardDb Cursor :=
  if db.completed.isEmpty then { db with completed := [data] } else db

/-- `unspecified` stands in for an empty reason. -/
def markShard (unspecified : String) (shard : ShardRow) : Ending → ShardRow
  | .done => if shard.state.isOpen then { shard with state := .done } else shard
  | .failed reason =>
    if shard.state.isOpen then
      { shard with
        state := .failed
        lastError := some (if reason.isEmpty then unspecified else reason) }
    else shard

@[simp] theorem startedAt_markShard (unspecified : String) (shard : ShardRow) (ending : Ending) :
    (markShard unspecified shard ending).startedAt = shard.startedAt := by
  cases ending <;> grind [markShard]

theorem markShard_ne_pending (unspecified : String) (shard : ShardRow) (ending : Ending) :
    (markShard unspecified shard ending).state ≠ .pending := by
  cases ending <;> grind [markShard, ShardState.isOpen]

def Ending.data : Ending → ShardFetchCompleted
  | .done => ⟨.done, none⟩
  | .failed reason => ⟨.failed, some reason⟩

def ShardDb.terminate (db : ShardDb Cursor) (ending : Ending) : ShardDb Cursor :=
  { db with shard := markShard "<unknown>" db.shard ending }.emitCompleted ending.data

def ShardDb.isOrphan (leaseTimeout : Nat) (db : ShardDb Cursor) : Bool :=
  decide (db.shard.state = .inProgress) &&
    match db.workflow with
    | none => true
    | some row => decide (row.lastAdvancedAt + leaseTimeout < db.now)

def ShardDb.move (leaseTimeout : Nat) (db : ShardDb Cursor) (exec : Execution Cursor Body) :
    Move Cursor Body → Option (ShardDb Cursor × Execution Cursor Body)
  | .receive =>
    match exec.phase with
    | .idle => some (db, { phase := match db.shard.state with
        | .done => .replaying .done
        | .failed => .replaying .failed
        | .pending => .claiming
        -- "just consume the signal", but the loop below the transaction runs
        | .inProgress | .reconciliationResharded => .loadInstall })
    | _ => none
  | .claim =>
    match exec.phase with
    | .claiming =>
      if db.shard.state = .pending then
        some ({ db with
          shard := { db.shard with
            state := .inProgress
            startedAt := some (db.shard.startedAt.getD db.now) } }.persistInitial,
          { exec with phase := .loadInstall, leasedAt := some db.now })
      else some (db, exec.enter .idle)
    | _ => none
  | .replay =>
    match exec.phase with
    | .replaying status => some (db.emitCompleted ⟨status, none⟩, exec.enter .idle)
    | _ => none
  | .scan =>
    match exec.phase with
    | .idle => if db.isOrphan leaseTimeout then some (db, { phase := .orphaned }) else none
    | _ => none
  | .refresh =>
    match exec.phase with
    | .orphaned =>
      if db.shard.state = .inProgress then
        some ({ db with shard := { db.shard with startedAt := some db.now } },
          { exec with phase := .loadInstall, leasedAt := some db.now })
      else some (db, exec.enter .idle)
    | _ => none
  | .loadInstall found =>
    match exec.phase with
    | .loadInstall => some (db, exec.enter (if found then .ensureState else .idle))
    | _ => none
  | .ensure =>
    match exec.phase, db.workflow with
    | .ensureState, none => some (db, exec.enter .persistInitial)
    | .ensureState, some row =>
      some (db, { exec with
        phase := .loadCursor
        recordsFetched := row.stateData.recordsFetched.getD 0 })
    | _, _ => none
  | .bootstrap =>
    match exec.phase with
    | .persistInitial =>
      some (db.persistInitial, { exec with phase := .loadCursor, leasedAt := some db.now })
    | _ => none
  | .load =>
    match exec.phase with
    | .loadCursor =>
      some (db, exec.enter (.fetchPage (db.workflow.map WorkflowStateRow.stateData)))
    | _ => none
  | .fetch result =>
    match exec.phase with
    | .fetchPage current =>
      some (db, { exec with
        phase := .writePage current result
        recordsFetched := exec.recordsFetched + result.records.length })
    | _ => none
  | .write =>
    match exec.phase with
    | .writePage current result => some (db, exec.enter (.advance current result))
    | _ => none
  | .advance =>
    match exec.phase, db.workflow with
    | .advance current result, some _ =>
      some ({ db with
        workflow := some ⟨newStateData current result exec.recordsFetched, db.now⟩ },
        { exec with
          phase := if result.endOfData then .terminating .done else .loadCursor
          leasedAt := some db.now })
    -- without its row the cursor does not advance, and an exception is raised
    | _, _ => none
  | .raise reason =>
    if exec.phase.inFetchLoop then some (db, exec.enter (.terminating (.failed reason))) else none
  | .terminate =>
    match exec.phase with
    | .terminating .done =>
      some (db.terminate .done, exec.enter (.publishing db.shard.state.isOpen))
    | .terminating (.failed reason) => some (db.terminate (.failed reason), exec.enter .idle)
    | _ => none
  | .publish =>
    match exec.phase with
    | .publishing movedRow =>
      some ({ db with published := db.published ++ [⟨exec.recordsFetched, movedRow⟩] },
        exec.enter .idle)
    | _ => none
  | .stop => some (db, {})

theorem pending_of_move {leaseTimeout : Nat} {db : ShardDb Cursor}
    {exec : Execution Cursor Body} {move : Move Cursor Body}
    (hm : db.move leaseTimeout exec move = some (db', exec')) (hp : db'.shard.state = .pending) :
    db.shard.state = .pending ∧ (exec'.phase.inFetchLoop → exec.phase.inFetchLoop) := by
  cases move <;>
    · simp only [ShardDb.move] at hm
      grind [Execution.enter, ShardDb.emitCompleted, ShardDb.terminate, markShard,
        ShardDb.persistInitial, ExecutionPhase.inFetchLoop, ShardState.isOpen]

variable [DecidableEq Replica]

def ShardDb.rollUp (db : ShardDb Cursor) : Option (ShardDb Cursor) :=
  (db.completed.head?).map fun data =>
    let ending := match data.status with
      | .done => .done
      | .failed => .failed (data.failureReason.getD "")
    { db with shard := markShard "<unspecified failure>" db.shard ending }

def shardStep (leaseTimeout : Nat) (world : ShardWorld Cursor Body Replica) :
    ShardAction Cursor Body Replica → Option (ShardWorld Cursor Body Replica)
  | .move replica move =>
    (world.db.move leaseTimeout (world.execs replica) move).map fun moved =>
      { db := moved.1, execs := Function.update world.execs replica moved.2 }
  | .elapse duration =>
    some { world with db := { world.db with now := world.db.now + duration } }
  | .rollUp => world.db.rollUp.map fun db => { world with db }
  | .reshard =>
    if world.db.shard.state = .done then
      some { world with db := { world.db with
        shard := { world.db.shard with state := .reconciliationResharded } } }
    else none

end FyralisCore.Ingestion
