import FyralisCore.Ingestion.ShardExecution
import FyralisCore.Ingestion.Signals

/-! The tables that the onboarding services share: the run of a tenant, one row
a source, the shards of a source, and the signals by which the services call
each other. Every service works in transactions on these tables. -/
namespace FyralisCore.Onboarding

open Relational Transaction Ingestion

structure SourceKey where
  onboardingRunId : Nat
  source : String
deriving DecidableEq

inductive RunStatus where
  | pending
  | running
  | complete
  | failed
deriving DecidableEq

def RunStatus.isOpen : RunStatus → Bool
  | .pending | .running => true
  | .complete | .failed => false

structure OnboardingRun where
  tenantId : Nat
  status : RunStatus := .pending
  errorSummary : Option String := none
deriving DecidableEq

inductive SourceStatus where
  | pending
  | inProgress
  | completed
  | failed
deriving DecidableEq

def SourceStatus.isOpen : SourceStatus → Bool
  | .pending | .inProgress => true
  | .completed | .failed => false

structure SourceRun where
  tenantId : Nat
  status : SourceStatus := .pending
  failureReason : Option String := none
  reconciledAt : Option Nat := none
  reconciliationPassCount : Nat := 0
  lastReconcileCheckAt : Option Nat := none
deriving DecidableEq

structure Shard where
  shardKind : String
  shardIdentifier : String
deriving DecidableEq

structure OnboardingShard where
  key : SourceKey
  tenantId : Nat
  shard : Shard
  state : ShardState := .pending
  parentShardId : Option Nat := none
  lastError : Option String := none
  completedAt : Option Nat := none
deriving DecidableEq

/-- A signal kind with the identifiers in its idempotency key. -/
inductive OnboardingSignal where
  | runCreated (run : Nat)
  | sourceRequested (key : SourceKey)
  | shardRequested (shard : Nat)
  | shardCompleted (shard : Nat)
  | shardsCompleted (key : SourceKey) (pass : Nat)
  | sourceCompleted (key : SourceKey)
  | tenantCompleted (run : Nat)
deriving DecidableEq

inductive Service where
  | oauthPoller
  | tenantOnboarding
  | sourceOnboarding
  | reconciler
  | shardFetch
  | bridge
deriving DecidableEq

/-- `signal_data` beside the identifiers of the key. The emitting service is not
in the row; it is kept to tell two emits of one signal apart. -/
structure OnboardingData where
  emittedBy : Service
  tenantId : Option Nat := none
  status : ShardStatus := .done
  failureReason : Option String := none
deriving DecidableEq

def inboxOf : OnboardingSignal → Inbox
  | .runCreated _ | .sourceCompleted _ => ⟨"tenant_onboarding", "tenant_onboarding"⟩
  | .sourceRequested _ | .shardCompleted _ => ⟨"source_onboarding", "source_onboarding"⟩
  | .shardsCompleted _ _ => ⟨"reconciler", "reconciler"⟩
  | .shardRequested _ => ⟨"shard_fetch", "shard_fetch"⟩
  | .tenantCompleted _ => ⟨"bridge", "bridge"⟩

abbrev OnboardingRow : Type := SignalRow OnboardingSignal OnboardingData

/-- The sources whose completion was signalled, the latest first. -/
structure OnboardingDb where
  runs : Table Nat OnboardingRun := ∅
  sources : Table SourceKey SourceRun := ∅
  shards : Table Nat OnboardingShard := ∅
  signals : Table Nat OnboardingRow := ∅
  arrivals : List SourceKey := []

inductive OnboardingWrite where
  | run (id : Nat) (row : OnboardingRun)
  | source (key : SourceKey) (row : SourceRun)
  | shard (id : Nat) (row : OnboardingShard)
  | insert (id : Nat) (key : OnboardingSignal) (data : OnboardingData)
  | consume (id : Nat) (consumedBy : String)
  /-- no row: TenantOnboarding is about to count the sources of the run -/
  | counting (key : SourceKey)

inductive OnboardingLock where
  | run (id : Nat)
  | source (key : SourceKey)
  | shard (id : Nat)
  | signal (id : Nat)
  /-- the entry of the unique index of workflow_signals -/
  | entry (key : OnboardingSignal)
deriving DecidableEq

def arrival : OnboardingSignal → Option SourceKey
  | .sourceCompleted key => some key
  | _ => none

def OnboardingDb.apply (db : OnboardingDb) : OnboardingWrite → OnboardingDb
  | .run id row => { db with runs := db.runs.put id row }
  | .source key row => { db with sources := db.sources.put key row }
  | .shard id row => { db with shards := db.shards.put id row }
  | .insert id key data => { db with
      signals := db.signals.put id ⟨key, data, none⟩
      arrivals := (arrival key).toList ++ db.arrivals }
  | .consume id consumedBy => { db with
      signals := db.signals.update id fun row => { row with consumedBy := some consumedBy } }
  | .counting _ => db

abbrev OnboardingTx (α : Type) : Type :=
  Tx OnboardingDb OnboardingWrite OnboardingLock SignalError α

def onboardingSignals : SignalAccess OnboardingDb OnboardingWrite OnboardingLock SignalError
    OnboardingSignal OnboardingData where
  signals := OnboardingDb.signals
  inboxOf := inboxOf
  hasIdempotencyKey _ := true
  emptyData := { emittedBy := .bridge }
  insert := .insert
  consume := .consume
  rowLock := .signal
  keyLock := .entry
  error := id

def emit (key : OnboardingSignal) (data : OnboardingData) : OnboardingTx EmitResult :=
  emitSignal onboardingSignals key (some data)

def processOneSignal (inbox : Inbox) (consumedBy : String) (scan : List Nat)
    (handle : OnboardingSignal → OnboardingData → OnboardingTx Unit) : OnboardingTx Unit := do
  let signals ← claimSignals onboardingSignals inbox consumedBy 1 scan
  match signals with
  | [] => return ()
  | (_, signal) :: _ => handle signal.key signal.signalData

section

variable {K V : Type} [DecidableEq K]

def matching (table : OnboardingDb → Table K V) (key : K) (condition : V → Bool)
    (seen : OnboardingDb) : Option V :=
  ((table seen).get key).filter condition

def updateRow (table : OnboardingDb → Table K V) (write : K → V → OnboardingWrite)
    (lock : K → OnboardingLock) (key : K) (condition : V → Bool) (change : V → V) :
    OnboardingTx (Option V) :=
  Tx.query (fun seen => (matching table key condition seen).map fun _ => lock key) fun seen =>
    let changed := (matching table key condition seen).map change
    .ok ((changed.map (write key)).toList, changed)

end

def updateRun (id : Nat) : (OnboardingRun → Bool) → (OnboardingRun → OnboardingRun) →
    OnboardingTx (Option OnboardingRun) :=
  updateRow OnboardingDb.runs .run .run id

def updateSource (key : SourceKey) : (SourceRun → Bool) → (SourceRun → SourceRun) →
    OnboardingTx (Option SourceRun) :=
  updateRow OnboardingDb.sources .source .source key

def updateShard (id : Nat) : (OnboardingShard → Bool) → (OnboardingShard → OnboardingShard) →
    OnboardingTx (Option OnboardingShard) :=
  updateRow OnboardingDb.shards .shard .shard id

def insertRow (lock : OnboardingLock) (write : OnboardingWrite) : OnboardingTx Unit :=
  Tx.query (fun _ => some lock) fun _ => .ok ([write], ())

def shardsOf (seen : OnboardingDb) (key : SourceKey) : List (Nat × OnboardingShard) :=
  seen.shards.rows.filter fun entry => decide (entry.2.key = key)

def sourcesOf (seen : OnboardingDb) (run : Nat) : List (SourceKey × SourceRun) :=
  seen.sources.rows.filter fun entry => decide (entry.1.onboardingRunId = run)

def markSourceCompleted (key : SourceKey) : OnboardingTx Unit := do
  let _ ← updateSource key (fun row => row.status.isOpen) fun row =>
    { row with status := .completed }
  return ()

def markSourceFailed (key : SourceKey) (failureReason : String) : OnboardingTx Unit := do
  let _ ← updateSource key (fun row => row.status.isOpen) fun row =>
    { row with status := .failed, failureReason := some failureReason }
  return ()

def markShard (id : Nat) (ending : ShardStatus) (lastError : String) (now : Nat) :
    OnboardingTx Unit := do
  let _ ← updateShard id (fun row => row.state.isOpen) fun row =>
    match ending with
    | .done => { row with state := .done, completedAt := some now }
    | .failed => { row with state := .failed, completedAt := some now, lastError := some lastError }
  return ()

end FyralisCore.Onboarding
