import Mathlib.Data.List.Sort
import FyralisCore.Onboarding.Tables

/-! The services of an onboarding: one transaction a call. What a planner, a
reconciler or the installation tables answer is an argument of the call. -/
namespace FyralisCore.Onboarding

open Relational Transaction Ingestion Tx

def validSources : List String :=
  ["slack", "github", "discord", "gmail", "notion", "google_calendar", "google_drive", "jira",
    "mercury", "quickbooks", "grafana", "telegram", "brex", "ramp", "gusto", "deel", "fireflies",
    "signal", "aws", "miro", "figma", "carta", "hibob", "ashby", "linkedin", "whatsapp"]

structure Failure where
  typeName : String
  message : String

inductive Planning where
  | notImplemented (message : String)
  | raises (failure : Failure)
  | shards (shards : List Shard)

structure ResharedShard where
  shard : Shard
  parentShardId : Nat

/-- A gap comes with the shards that fill it: every reconciler decides for a
gap on the list of new shards that it has. -/
structure ReconciliationDecision where
  hasGaps : Bool
  newShards : List ResharedShard
  filled : hasGaps → newShards ≠ []

inductive GapCheck where
  | decided (decision : ReconciliationDecision)
  | timeout
  | notImplemented (message : String)
  | raises (failure : Failure)

def createOnboardingRun (tenantId : Nat) : OnboardingTx Unit := do
  let runId ← newId
  insertRow (.run runId) (.run runId { tenantId })
  let _ ← emit (.runCreated runId) { emittedBy := .oauthPoller, tenantId := some tenantId }
  return ()

def determineApplicableSources (active : List String) : List String :=
  active.dedup.filter fun source => decide (source ∈ validSources)

def insertSourceRow (key : SourceKey) (tenantId : Nat) : OnboardingTx Unit :=
  query (fun seen => if (seen.sources.get key).isSome then none else some (.source key))
    fun seen => .ok (if (seen.sources.get key).isSome then [] else [.source key { tenantId }], ())

def markRunRunning (run : Nat) : OnboardingTx Unit := do
  let _ ← updateRun run (fun row => decide (row.status = .pending)) fun row =>
    { row with status := .running }
  return ()

def markRunFailed (run : Nat) (errorSummary : String) : OnboardingTx Unit := do
  let _ ← updateRun run (fun row => row.status.isOpen) fun row =>
    { row with status := .failed, errorSummary := some errorSummary }
  return ()

def markRunComplete (run : Nat) : OnboardingTx Unit := do
  let _ ← updateRun run (fun row => row.status.isOpen) fun row =>
    { row with status := .complete }
  return ()

def requestSource (run tenantId : Nat) (source : String) : OnboardingTx Unit := do
  insertSourceRow ⟨run, source⟩ tenantId
  let _ ← emit (.sourceRequested ⟨run, source⟩)
    { emittedBy := .tenantOnboarding, tenantId := some tenantId }
  return ()

def handleRunCreated (run tenantId : Nat) (active : List String) : OnboardingTx Unit := do
  let found ← read fun seen => seen.runs.get run
  match found with
  | none => return ()
  | some row =>
    if row.status = .pending then
      match determineApplicableSources active with
      | [] => markRunFailed run "No active installs for tenant at orchestrator tick-time."
      | source :: rest =>
        forEach (source :: rest) (requestSource run tenantId)
        markRunRunning run
    else return ()

def countUnfinishedSources (seen : OnboardingDb) (run : Nat) : Nat :=
  (sourcesOf seen run).countP fun entry => entry.2.status.isOpen

def anySourceFailed (seen : OnboardingDb) (run : Nat) : Bool :=
  (sourcesOf seen run).any fun entry => decide (entry.2.status = .failed)

def completeRunIfDone (run : Nat) : OnboardingTx Unit := do
  let unfinished ← read fun seen => countUnfinishedSources seen run
  if 0 < unfinished then return ()
  else
    let anyFailed ← read fun seen => anySourceFailed seen run
    if anyFailed then return ()
    else
      markRunComplete run
      let found ← read fun seen => seen.runs.get run
      let _ ← emit (.tenantCompleted run)
        { emittedBy := .tenantOnboarding, tenantId := found.map OnboardingRun.tenantId }
      return ()

/-- `_handle_source_completed`. An empty failure reason is no failure. -/
def handleSourceCompleted (key : SourceKey) (failureReason : Option String) :
    OnboardingTx Unit := do
  let reason := failureReason.getD ""
  if reason.isEmpty then
    markSourceCompleted key
    query (fun _ => none) fun _ => .ok ([.counting key], ())
    completeRunIfDone key.onboardingRunId
  else
    markSourceFailed key reason
    markRunFailed key.onboardingRunId ("Source '" ++ key.source ++ "' failed: " ++ reason)

def emitSourceCompleted (service : Service) (key : SourceKey) (failureReason : Option String) :
    OnboardingTx Unit := do
  let _ ← emit (.sourceCompleted key) { emittedBy := service, failureReason }
  return ()

def emitShardsCompleted (key : SourceKey) (tenantId : Option Nat) (passCount : Nat) :
    OnboardingTx Unit := do
  let _ ← emit (.shardsCompleted key passCount) { emittedBy := .sourceOnboarding, tenantId }
  return ()

def failSource (key : SourceKey) (failureReason : String) : OnboardingTx Unit := do
  markSourceFailed key failureReason
  emitSourceCompleted .sourceOnboarding key (some failureReason)

def addShard (service : Service) (key : SourceKey) (tenantId : Nat) (shard : Shard)
    (parentShardId : Option Nat) : OnboardingTx Unit := do
  let shardId ← newId
  insertRow (.shard shardId) (.shard shardId { key, tenantId, shard, parentShardId })
  let _ ← emit (.shardRequested shardId) { emittedBy := service, tenantId := some tenantId }
  return ()

def Failure.reason (failure : Failure) : String :=
  failure.typeName ++ ": " ++ failure.message

def noInstallReason (tenantId : Nat) (source : String) : String :=
  "No active install for tenant " ++ toString tenantId ++ " source '" ++ source ++
    "' at source-onboarding tick-time. The install was likely disabled between trigger fire " ++
    "and source-onboarding pickup (A14 race)."

def markSourceRunInProgress (key : SourceKey) : OnboardingTx Unit := do
  let _ ← updateSource key (fun row => decide (row.status = .pending)) fun row =>
    { row with status := .inProgress }
  return ()

def planSource (key : SourceKey) (tenantId : Nat) : Planning → OnboardingTx Unit
  | .notImplemented message => failSource key message
  | .raises failure => failSource key failure.reason
  | .shards [] => do
    markSourceCompleted key
    emitShardsCompleted key (some tenantId) 0
  | .shards (shard :: rest) =>
    forEach (shard :: rest) fun shard => addShard .sourceOnboarding key tenantId shard none

/-- `_handle_source_requested`; no planning without an active install. -/
def handleSourceRequested (key : SourceKey) (tenantId : Nat) (install : Option Planning) :
    OnboardingTx Unit := do
  if key.source ∈ validSources then
    let found ← read fun seen => seen.sources.get key
    match found with
    | none => return ()
    | some row =>
      if row.status = .pending then
        match install with
        | none => failSource key (noInstallReason tenantId key.source)
        | some planning =>
          markSourceRunInProgress key
          planSource key tenantId planning
      else return ()
  else return ()

def lockSourceRunForRollup (key : SourceKey) : OnboardingTx Unit :=
  readLocking (fun seen => (seen.sources.get key).map fun _ => .source key) fun _ => ()

section

variable (seen : OnboardingDb) (key : SourceKey)

def countUnfinishedShards : Nat :=
  (shardsOf seen key).countP fun entry => entry.2.state.isOpen

def failedShards : List (Nat × OnboardingShard) :=
  (shardsOf seen key).filter fun entry => decide (entry.2.state = .failed)

/-- `_collect_shard_failure_summary`, ORDER BY completed_at. -/
def shardFailureSummary : String :=
  let failed := (failedShards seen key).insertionSort fun first second =>
    first.2.completedAt.getD 0 ≤ second.2.completedAt.getD 0
  let parts := failed.map fun entry =>
    let error := entry.2.lastError.getD ""
    "shard " ++ toString entry.1 ++ ": " ++ if error.isEmpty then "<no reason>" else error
  if parts.isEmpty then "<no failed shards found>" else "; ".intercalate parts

end

section

variable (key : SourceKey)

/-- `_handle_shard_completed` once every shard of the source is terminal. -/
def rollUpSource (tenantId : Nat) : OnboardingTx Unit := do
  let anyFailed ← read fun seen => !(failedShards seen key).isEmpty
  if anyFailed then
    let rollup ← read fun seen => shardFailureSummary seen key
    failSource key rollup
  else
    markSourceCompleted key
    let found ← read fun seen => seen.sources.get key
    emitShardsCompleted key (some tenantId) ((found.map SourceRun.reconciliationPassCount).getD 0)

def handleShardCompleted (shardId : Nat) (data : OnboardingData) (now : Nat) :
    OnboardingTx Unit := do
  let found ← read fun seen => seen.shards.get shardId
  match found with
  | none => return ()
  | some shard =>
    lockSourceRunForRollup shard.key
    let reason := data.failureReason.getD ""
    markShard shardId data.status (if reason.isEmpty then "<unspecified failure>" else reason) now
    let unfinished ← read fun seen => countUnfinishedShards seen shard.key
    if 0 < unfinished then return () else rollUpSource shard.key shard.tenantId

def stampReconciled (now : Nat) : OnboardingTx Unit := do
  let _ ← updateSource key (fun row => row.reconciledAt.isNone) fun row =>
    { row with reconciledAt := some now }
  return ()

/-- The `_mark_run_failed` of the reconciler, which also fails a completed row. -/
def markReconcileFailed (failureReason : String) : OnboardingTx Unit := do
  let _ ← updateSource key
    (fun row => row.reconciledAt.isNone && decide (row.status ≠ .failed)) fun row =>
      { row with status := .failed, failureReason := some failureReason }
  return ()

def startReshare : OnboardingTx Unit := do
  let _ ← updateSource key (fun _ => true) fun row =>
    { row with
      status := .inProgress
      reconciliationPassCount := row.reconciliationPassCount + 1 }
  return ()

def markOriginalResharded (shardId : Nat) : OnboardingTx Unit := do
  let _ ← updateShard shardId (fun row => decide (row.state = .done)) fun row =>
    { row with state := .reconciliationResharded }
  return ()

def applyReshare (tenantId : Nat) (newShards : List ResharedShard) : OnboardingTx Unit := do
  startReshare key
  forEach (newShards.map ResharedShard.parentShardId).dedup markOriginalResharded
  forEach newShards fun reshared =>
    addShard .reconciler key tenantId reshared.shard (some reshared.parentShardId)

def failReconciliation (failureReason : String) : OnboardingTx Unit := do
  markReconcileFailed key failureReason
  emitSourceCompleted .reconciler key (some failureReason)

def handleCleanPath (now : Nat) : OnboardingTx Unit := do
  stampReconciled key now
  emitSourceCompleted .reconciler key none

def handleSourceShardsCompleted (now : Nat) (check : GapCheck) : OnboardingTx Unit := do
  let found ← read fun seen => seen.sources.get key
  match found with
  | none => return ()
  | some row =>
    if row.reconciledAt.isSome then emitSourceCompleted .reconciler key none
    else
      match check with
      | .timeout => handleCleanPath key now
      | .notImplemented message => failReconciliation key message
      | .raises failure => failReconciliation key failure.reason
      | .decided decision =>
        if decision.hasGaps then applyReshare key row.tenantId decision.newShards
        else handleCleanPath key now

def isEligible (cutoff : Nat) (row : SourceRun) : Bool :=
  decide (row.status = .completed) && row.reconciledAt.isSome &&
    match row.lastReconcileCheckAt with
    | none => true
    | some checked => decide (checked < cutoff)

/-- `key` is the row that the scan comes to and SKIP LOCKED leaves to it. -/
def claimEligibleRun (cutoff : Nat) : OnboardingTx (Option SourceRun) :=
  let eligible := matching OnboardingDb.sources key (isEligible cutoff)
  readLocking (fun seen => (eligible seen).map fun _ => .source key) eligible

def stampCheck (now : Nat) : OnboardingTx Unit := do
  let _ ← updateSource key (fun _ => true) fun row => { row with lastReconcileCheckAt := some now }
  return ()

/-- `_check_one_run`: only a decision counts, a timeout or an error is swallowed. -/
def checkOneRun (cutoff now : Nat) (check : GapCheck) : OnboardingTx Unit := do
  let found ← claimEligibleRun key cutoff
  match found with
  | none => return ()
  | some row =>
    stampCheck key now
    match check with
    | .decided decision =>
      if decision.hasGaps then applyReshare key row.tenantId decision.newShards else return ()
    | _ => return ()

end

def emitShardCompleted (shardId : Nat) (shard : OnboardingShard) (status : ShardStatus)
    (failureReason : Option String) : OnboardingTx Unit := do
  let _ ← emit (.shardCompleted shardId)
    { emittedBy := .shardFetch, tenantId := some shard.tenantId, status, failureReason }
  return ()

/-- The claim transaction of `_process_one_signal`; the fetch loop runs outside. -/
def handleShardRequested (shardId : Nat) : OnboardingTx Unit := do
  let found ← read fun seen => seen.shards.get shardId
  match found with
  | none => return ()
  | some shard =>
    match shard.state with
    | .done => emitShardCompleted shardId shard .done none
    | .failed => emitShardCompleted shardId shard .failed none
    | .pending =>
      let _ ← updateShard shardId (fun row => decide (row.state = .pending)) fun row =>
        { row with state := .inProgress }
      return ()
    | .inProgress | .reconciliationResharded => return ()

def terminateShard (shardId : Nat) (ending : Ending) (now : Nat) : OnboardingTx Unit := do
  let data := ending.data
  let reason := data.failureReason.getD ""
  markShard shardId data.status (if reason.isEmpty then "<unknown>" else reason) now
  let found ← read fun seen => seen.shards.get shardId
  match found with
  | none => return ()
  | some shard => emitShardCompleted shardId shard data.status data.failureReason

inductive OnboardingCall where
  | oauthPoller (tenantId : Nat)
  | tenantOnboarding (consumedBy : String) (scan : List Nat) (active : List String)
  | sourceOnboarding (consumedBy : String) (scan : List Nat) (install : Option Planning) (now : Nat)
  | reconciler (consumedBy : String) (scan : List Nat) (check : GapCheck) (now : Nat)
  | periodicReconciler (key : SourceKey) (cutoff : Nat) (check : GapCheck) (now : Nat)
  | shardFetch (consumedBy : String) (scan : List Nat)
  | terminate (shardId : Nat) (ending : Ending) (now : Nat)
  | bridge (consumedBy : String) (scan : List Nat)

def dispatchTenantOnboarding (active : List String) :
    OnboardingSignal → OnboardingData → OnboardingTx Unit
  | .runCreated run, data => handleRunCreated run (data.tenantId.getD 0) active
  | .sourceCompleted key, data => handleSourceCompleted key data.failureReason
  | _, _ => return ()

def dispatchSourceOnboarding (install : Option Planning) (now : Nat) :
    OnboardingSignal → OnboardingData → OnboardingTx Unit
  | .sourceRequested key, data => handleSourceRequested key (data.tenantId.getD 0) install
  | .shardCompleted shardId, data => handleShardCompleted shardId data now
  | _, _ => return ()

def dispatchReconciler (check : GapCheck) (now : Nat) :
    OnboardingSignal → OnboardingData → OnboardingTx Unit
  | .shardsCompleted key _, _ => handleSourceShardsCompleted key now check
  | _, _ => return ()

def dispatchShardFetch : OnboardingSignal → OnboardingData → OnboardingTx Unit
  | .shardRequested shardId, _ => handleShardRequested shardId
  | _, _ => return ()

def OnboardingCall.program : OnboardingCall → OnboardingTx Unit
  | .oauthPoller tenantId => createOnboardingRun tenantId
  | .tenantOnboarding consumedBy scan active =>
    processOneSignal ⟨"tenant_onboarding", "tenant_onboarding"⟩ consumedBy scan
      (dispatchTenantOnboarding active)
  | .sourceOnboarding consumedBy scan install now =>
    processOneSignal ⟨"source_onboarding", "source_onboarding"⟩ consumedBy scan
      (dispatchSourceOnboarding install now)
  | .reconciler consumedBy scan check now =>
    processOneSignal ⟨"reconciler", "reconciler"⟩ consumedBy scan (dispatchReconciler check now)
  | .periodicReconciler key cutoff check now => checkOneRun key cutoff now check
  | .shardFetch consumedBy scan =>
    processOneSignal ⟨"shard_fetch", "shard_fetch"⟩ consumedBy scan dispatchShardFetch
  | .terminate shardId ending now => terminateShard shardId ending now
  | .bridge consumedBy scan =>
    processOneSignal ⟨"bridge", "bridge"⟩ consumedBy scan fun _ _ => return ()

def onboardingSchema : ReadCommitted.Schema OnboardingDb OnboardingWrite OnboardingLock SignalError
    OnboardingCall where
  apply := OnboardingDb.apply
  program := OnboardingCall.program

end FyralisCore.Onboarding
