import FyralisCore.Think.LifecycleOps

/-! The handling of an overdue prediction (`_handle_t2_prediction` of
`services/reasoning/think/deterministic.py`): whether the prediction held, and
the updates of the prediction and of the models that contributed to it. -/
namespace FyralisCore.Deadlines

open Relational Transaction Think.Applier
open Acts (Json)

/-- The falsifier of a model, as far as the handler tells its kinds apart. -/
inductive Falsifier where
  | commitmentOutcome (commitmentRef : Option Nat) (contradictingState : Json)
  | predictionDeadline
  | other

/-- The columns of `models` that the resolver and the handler read besides those
of the model store. -/
structure DueRow where
  evaluateAt : Option Nat
  falsifier : Falsifier

inductive ProvisionalOutcome where
  | confirmed
  | violated
  | inconclusive
  deriving DecidableEq, Repr

def ProvisionalOutcome.survived : ProvisionalOutcome → Option Bool
  | .confirmed => some true
  | .violated => some false
  | .inconclusive => none

def contradicts (contradicting : Json) (state : String) : Bool :=
  match contradicting with
  | .array items => items.any fun
    | .string text => text == state
    | _ => false
  | .string text => text == state
  | _ => false

def commitmentOutcome (db : DomainDb) (commitmentRef : Option Nat) (contradicting : Json) :
    Option Bool :=
  match commitmentRef, contradicting with
  | none, _ | _, .null => none
  | some ref, _ => (db.acts.commitments.get ref).map fun row => !contradicts contradicting row.state.text

/-- `_prediction_deadline_outcome`; `residual` says whether some observation of the
bundle is an error of an active internal prediction of the model. -/
def predictionDeadlineOutcome (residual : Bool) (provisional : ProvisionalOutcome) : Option Bool :=
  if residual then some false else provisional.survived

def outcomeOf (db : DomainDb) (falsifier : Falsifier) (residual : Bool)
    (provisional : ProvisionalOutcome) : Option Bool :=
  match falsifier with
  | .commitmentOutcome ref contradicting => commitmentOutcome db ref contradicting
  | .predictionDeadline => predictionDeadlineOutcome residual provisional
  | .other => none

def clip (value : Rat) : Rat :=
  if value < 1 / 20 then 1 / 20 else if 19 / 20 < value then 19 / 20 else value

def resolvedConfidence (confidence : Rat) (outcome : Bool) : Rat :=
  clip (confidence + if outcome then min (1 / 10) (19 / 20 - confidence) else -7 / 10 * confidence)

def resolutionChanges (belief : BeliefRow) (outcome : Bool) (now : Nat) : ModelChanges where
  confidence := some (resolvedConfidence belief.confidence outcome)
  resolvedAt := some now
  resolutionOutcome := some outcome
  lastConfirmedAt := if outcome then some now else none
  confirmedCount := if outcome then some (belief.confirmedCount + 1) else none
  contestedCount := if outcome then none else some (belief.contestedCount + 1)

def nudge (belief : BeliefRow) (outcome : Bool) : ModelChanges where
  confidence := some (clip (belief.confidence + if outcome then 3 / 100 else -5 / 100))

structure ClaimUpdate where
  modelId : Nat
  changes : ModelChanges

structure Resolution where
  outcome : Option Bool := none
  claimOps : List ClaimUpdate := []

def nudges (db : DomainDb) (contributors : List Nat) (outcome : Bool) : List ClaimUpdate :=
  contributors.filterMap fun contributor =>
    (db.model contributor).map fun found => ⟨contributor, nudge found.2 outcome⟩

/-- `_handle_t2_prediction` of a trigger on the model; `now` is the process clock. -/
def handleT2Prediction (db : DomainDb) (due : Table Nat DueRow) (modelId : Nat)
    (provisional : ProvisionalOutcome) (residual : Bool) (now : Nat) : Resolution :=
  match db.model modelId, due.get modelId with
  | some (row, belief), some columns =>
    match outcomeOf db columns.falsifier residual provisional with
    | some outcome =>
      { outcome := some outcome
        claimOps := ⟨modelId, resolutionChanges belief outcome now⟩ ::
          nudges db row.contributingModels outcome }
    | none => {}
  | _, _ => {}

def applyResolution (ctx : ApplyContext) (resolution : Resolution) : DomainTx Unit :=
  Tx.forEach resolution.claimOps fun op => applyClaimUpdate ctx op.modelId op.changes

/-! The deadline resolvers (`services/workers/deadline_resolver/worker.py`) and
the Think runs that handle what they enqueue. Each SELECT and each INSERT of a
resolver is a transaction of its own. A Think run reads, and applies and records
what it has decided in a later step, in one transaction. -/

/-- A T2 row of think_trigger_queue with subkind `prediction_overdue`. -/
structure OverdueRow where
  tenantId : Nat
  modelId : Nat
  provisionalOutcome : ProvisionalOutcome
  completedAt : Option Nat := none

structure AppliedRow where
  tenantId : Nat
  appliedAt : Nat

inductive Stage where
  | unchecked
  | notPending
  | clear
  deriving DecidableEq, Repr

/-- A resolver inside `run_once`: `now` of the cycle, the tenants still to scan and
the due predictions of the present one, with the tenant of each. -/
structure Cycle where
  now : Nat
  tenants : List Nat
  predictions : List (Nat × Nat) := []
  stage : Stage := .unchecked

/-- A Think run on a trigger that has decided on its diff; `ended` once it has
been applied or given up. -/
structure Run where
  triggerId : Nat
  modelId : Nat
  tenantId : Nat
  resolution : Resolution
  ended : Bool := false

structure Resolved where
  triggerId : Nat
  modelId : Nat
  outcome : Bool
  /-- The models it has nudged. An update sets a confidence that was computed
  beforehand, so one that comes twice in the diff is one nudge. -/
  nudged : List Nat

structure System where
  clock : Nat
  domain : DomainDb
  supply : Nat
  due : Table Nat DueRow
  queue : Table Nat OverdueRow := ∅
  nextTrigger : Nat
  applied : Table Nat AppliedRow := ∅
  resolvers : Table Nat Cycle := ∅
  runs : Table Nat Run := ∅
  /-- The resolutions committed so far. -/
  resolved : List Resolved := []

def System.isDue (system : System) (modelId : Nat) (row : Models.ModelRow) (beforeTs : Nat) : Bool :=
  row.status = .active &&
    ((system.due.get modelId).bind DueRow.evaluateAt).any fun evaluateAt => evaluateAt ≤ beforeTs

def System.listActivePredictionTenants (system : System) (now : Nat) : List Nat :=
  ((system.domain.models.models.rows.filter fun entry =>
    system.isDue entry.1 entry.2 now).map fun entry => entry.2.tenantId).dedup

def System.evaluateAt (system : System) (modelId : Nat) : Nat :=
  ((system.due.get modelId).bind DueRow.evaluateAt).getD 0

section

variable (system : System)

def System.getPredictionsDue (beforeTs tenantId limit : Nat) : List Nat :=
  let due := system.domain.models.models.rows.filter fun entry =>
    entry.2.tenantId = tenantId ∧ system.isDue entry.1 entry.2 beforeTs
  ((due.map Prod.fst).insertionSort fun first second =>
    system.evaluateAt first ≤ system.evaluateAt second).take limit

def System.triggerAlreadyPending (predictionId : Nat) : Bool :=
  system.queue.any fun _ row => row.modelId = predictionId && row.completedAt.isNone

def appliedLookback : Nat := 3600

def System.triggerRecentlyApplied (predictionId tenantId : Nat) : Bool :=
  system.applied.any fun triggerId row =>
    row.tenantId = tenantId && decide (system.clock ≤ row.appliedAt + appliedLookback) &&
      (system.queue.get triggerId).any fun trigger => trigger.modelId = predictionId

def System.enqueueT2 (predictionId tenantId : Nat) (provisionalOutcome : ProvisionalOutcome) :
    System :=
  { system with
    queue := system.queue.put system.nextTrigger
      { tenantId, modelId := predictionId, provisionalOutcome }
    nextTrigger := system.nextTrigger + 1 }

inductive Action where
  | tick (seconds : Nat)
  /-- A resolver begins `run_once`. -/
  | begin (resolver : Nat)
  /-- The next tenant of the cycle, or its end. -/
  | scan (resolver limit : Nat)
  | checkPending (resolver : Nat)
  | checkApplied (resolver : Nat)
  /-- `evaluate_falsifier` has answered; the row is inserted. -/
  | enqueue (resolver : Nat) (provisionalOutcome : ProvisionalOutcome)
  /-- An exception on the present prediction, which is skipped. -/
  | error (resolver : Nat)
  /-- The resolver dies, or its cycle fails. -/
  | crash (resolver : Nat)
  /-- A Think worker takes an open trigger and decides on its diff. -/
  | handle (worker triggerId : Nat) (residual : Bool)
  | apply (worker : Nat) (ctx : ApplyContext)
  /-- The run fails before its commit. -/
  | fail (worker : Nat)
  /-- The worker marks the trigger completed: after the run, or as a dead letter. -/
  | complete (worker : Nat)
  /-- The worker is gone, or leaves the trigger for a retry. -/
  | leave (worker : Nat)

def System.withCycle (resolver : Nat) (cycle : Cycle) : System :=
  { system with resolvers := system.resolvers.put resolver cycle }

def Cycle.skip (cycle : Cycle) : Cycle :=
  { cycle with predictions := cycle.predictions.tail, stage := .unchecked }

def System.handle (worker triggerId : Nat) (residual : Bool) : Option System := do
  let row ← system.queue.get triggerId
  if (system.runs.get worker).isSome || row.completedAt.isSome then none
  else some { system with
    runs := system.runs.put worker
      { triggerId
        modelId := row.modelId
        tenantId := row.tenantId
        resolution := handleT2Prediction system.domain system.due row.modelId
          row.provisionalOutcome residual system.clock } }

def Run.resolved (run : Run) : List Resolved :=
  run.resolution.outcome.toList.map fun outcome =>
    { triggerId := run.triggerId
      modelId := run.modelId
      outcome
      nudged := (run.resolution.claimOps.tail.map ClaimUpdate.modelId).dedup }

/-- The commit of a run: the operations of the diff, with the row of
applied_triggers, which is the trigger's only one. -/
def System.applyRun (worker : Nat) (run : Run) (ctx : ApplyContext) : System :=
  let ended := { system with runs := system.runs.put worker { run with ended := true } }
  if (system.applied.get run.triggerId).isSome then ended
  else
    match (applyResolution ctx run.resolution).exec change system.domain system.supply with
    | ⟨.ok _, domain, supply⟩ =>
      { ended with
        domain
        supply
        applied := system.applied.put run.triggerId
          { tenantId := run.tenantId, appliedAt := system.clock }
        resolved := system.resolved ++ run.resolved }
    | ⟨.error _, _, supply⟩ => { ended with supply }

def System.step : Action → Option System
  | .tick seconds => some { system with clock := system.clock + seconds }
  | .begin resolver =>
    if (system.resolvers.get resolver).isSome then none
    else some (system.withCycle resolver
      { now := system.clock, tenants := system.listActivePredictionTenants system.clock })
  | .scan resolver limit => do
    let cycle ← system.resolvers.get resolver
    match cycle.predictions, cycle.tenants with
    | [], tenantId :: rest =>
      some (system.withCycle resolver { cycle with
        tenants := rest
        predictions := (system.getPredictionsDue cycle.now tenantId limit).map (·, tenantId) })
    | [], [] => some { system with resolvers := system.resolvers.remove resolver }
    | _ :: _, _ => none
  | .checkPending resolver => do
    let cycle ← system.resolvers.get resolver
    match cycle.stage, cycle.predictions with
    | .unchecked, (predictionId, _) :: _ =>
      some (system.withCycle resolver (if system.triggerAlreadyPending predictionId then cycle.skip
        else { cycle with stage := .notPending }))
    | _, _ => none
  | .checkApplied resolver => do
    let cycle ← system.resolvers.get resolver
    match cycle.stage, cycle.predictions with
    | .notPending, (predictionId, tenantId) :: _ =>
      some (system.withCycle resolver
        (if system.triggerRecentlyApplied predictionId tenantId then cycle.skip
        else { cycle with stage := .clear }))
    | _, _ => none
  | .enqueue resolver provisionalOutcome => do
    let cycle ← system.resolvers.get resolver
    match cycle.stage, cycle.predictions with
    | .clear, (predictionId, tenantId) :: _ =>
      some ((system.enqueueT2 predictionId tenantId provisionalOutcome).withCycle resolver cycle.skip)
    | _, _ => none
  | .error resolver => do
    let cycle ← system.resolvers.get resolver
    match cycle.predictions with
    | _ :: _ => some (system.withCycle resolver cycle.skip)
    | [] => none
  | .crash resolver =>
    (system.resolvers.get resolver).map fun _ =>
      { system with resolvers := system.resolvers.remove resolver }
  | .handle worker triggerId residual => system.handle worker triggerId residual
  | .apply worker ctx => do
    let run ← system.runs.get worker
    if run.ended then none else some (system.applyRun worker run ctx)
  | .fail worker => do
    let run ← system.runs.get worker
    if run.ended then none
    else some { system with runs := system.runs.put worker { run with ended := true } }
  | .complete worker => do
    let run ← system.runs.get worker
    if run.ended then
      some { system with
        queue := system.queue.update run.triggerId fun row =>
          { row with completedAt := some system.clock }
        runs := system.runs.remove worker }
    else none
  | .leave worker =>
    (system.runs.get worker).map fun _ => { system with runs := system.runs.remove worker }

end

end FyralisCore.Deadlines
