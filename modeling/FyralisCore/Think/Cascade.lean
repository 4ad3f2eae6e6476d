import FyralisCore.Acts.Commitments
import FyralisCore.Observations.StateChange

/-! The cascade (`think/cascade.py`): breadth-first over what a state change
entails, inside the caller's transaction. A step that the act store rejects is
recorded and the search goes on. -/
namespace FyralisCore.Think

open Relational Transaction Acts Observations

inductive CascadeKind where
  | commitmentStateChange
  | decisionRevisited
  | resourceTerminal
  | goalHealthRecomputed
  | customerHealthRecomputed
  | commitmentFlaggedForReview
  | other (kind : String)
  deriving DecidableEq, Repr

structure CascadeEvent where
  id : Nat
  kind : CascadeKind
  entityKind : String
  entityId : Nat
  tenantId : Nat
  metadata : List (String × Scalar) := []
  observationId : Option Nat := none
  deriving DecidableEq, Repr

structure InvariantViolationEvent where
  branch : String
  entityKind : String
  entityId : Nat
  reason : String
  code : Option Invariant := none
  deriving DecidableEq, Repr

structure CascadeResult where
  eventsVisited : Nat
  depthReached : Nat
  boundViolated : Bool
  steps : List CascadeEvent
  invariantViolations : List InvariantViolationEvent
  deriving DecidableEq, Repr

/-- What a branch hands back: the events to follow, and the rejections that it
appended to the list of the run. -/
structure Downstream where
  events : List CascadeEvent := []
  violations : List InvariantViolationEvent := []

def Downstream.concat (parts : List Downstream) : Downstream where
  events := parts.flatMap Downstream.events
  violations := parts.flatMap Downstream.violations

/-! ### Branch A: a commitment has changed state -/

/-- The blocked commitments of the tenant that depend on a commitment. -/
def blockedDependents (commitmentId tenantId : Nat) (db : Db) : List Nat :=
  db.dependsOn.primaryKeys.filterMap fun (dependentId, dependencyId) =>
    match db.commitments.get dependentId with
    | some row =>
      if dependencyId = commitmentId ∧ row.state = .blocked ∧ row.tenantId = tenantId then
        some dependentId
      else none
    | none => none

def dependenciesOf (commitmentId : Nat) (db : Db) : List Nat :=
  db.dependsOn.primaryKeys.filterMap fun (dependentId, dependencyId) =>
    if dependentId = commitmentId then some dependencyId else none

section

variable (clock : Clock) (event : CascadeEvent)

def attemptUnblock (tenantId dependentId : Nat) : ActTx Downstream := do
  let _ ← transitionCommitment clock dependentId .active
    { causeEventId := event.observationId }
  let eventId ← Tx.newId
  let obsId ← emitStateChange clock
    { kind := "commitment_auto_unblocked"
      entityId := dependentId
      tenantId
      causeEventId := event.observationId
      entityKind := some "commitment"
      metadata := some [("unblocked_by", .text (toString event.entityId))] }
  return {
    events := [
      { id := eventId
        kind := .commitmentStateChange
        entityKind := "commitment"
        entityId := dependentId
        tenantId
        metadata := [("new_state", .text CommitmentState.active.text),
          ("from_cascade", .flag true)]
        observationId := some obsId }] }

/-- `except InvariantViolation`: no savepoint was taken, so what the transition
wrote before it raised stays. -/
def recordRejection (dependentId : Nat) : ActError → Option (ActTx Downstream)
  | .invariantViolation invariant message _ =>
    some (return {
      violations := [
        { branch := "commitment_unblock"
          entityKind := "commitment"
          entityId := dependentId
          reason := message
          code := some invariant }] })
  | _ => none

def unblockDependent (tenantId dependentId : Nat) : ActTx Downstream := do
  let remaining ← Tx.read (dependenciesOf dependentId)
  let unsatisfied ← anyUnsatisfied remaining
  if unsatisfied then return {}
  else
    (attemptUnblock clock event tenantId dependentId).rescue (recordRejection dependentId)

def unblockDependents (tenantId : Nat) : ActTx Downstream := do
  let dependents ← Tx.read (blockedDependents event.entityId tenantId)
  let parts ← Tx.mapEach dependents (unblockDependent clock event tenantId)
  return .concat parts

def criticalGoals (commitmentId tenantId : Nat) (db : Db) : List (Nat × GoalCachedHealth) :=
  db.contributesTo.rows.filterMap fun ((contributorId, goalId), isCriticalPath) =>
    match db.goals.get goalId with
    | some goal =>
      if contributorId = commitmentId ∧ isCriticalPath ∧ goal.tenantId = tenantId then
        some (goalId, goal.cachedHealth)
      else none
    | none => none

def recomputeGoal (tenantId : Nat) (goal : Nat × GoalCachedHealth) : ActTx Downstream := do
  let newHealth ← recomputeCachedHealth clock goal.1
  if newHealth = goal.2 then return {}
  else
    let metadata := [("prior", Scalar.text goal.2.text), ("new", .text newHealth.text)]
    let obsId ← emitStateChange clock
      { kind := "goal_health_recomputed"
        entityId := goal.1
        tenantId
        causeEventId := event.observationId
        entityKind := some "goal"
        metadata := some metadata }
    let eventId ← Tx.newId
    return {
      events := [
        { id := eventId
          kind := .goalHealthRecomputed
          entityKind := "goal"
          entityId := goal.1
          tenantId
          metadata
          observationId := some obsId }] }

def recomputeGoals (tenantId : Nat) : ActTx Downstream := do
  let goals ← Tx.read (criticalGoals event.entityId tenantId)
  let parts ← Tx.mapEach goals (recomputeGoal clock event tenantId)
  return .concat parts

end

structure Amount where
  text : String
  isZero : Bool
  deriving DecidableEq, Repr

def Amount.zero : Amount := ⟨"0", true⟩

def atRiskCommitmentStates : List CommitmentState := [.blocked, .paused, .doneunverified]

def servesAtRisk (customerId : Nat) (db : Db) : Bool :=
  db.customerCommitments.primaryKeys.any fun (resourceId, commitmentId) =>
    resourceId = customerId &&
      (db.commitments.get commitmentId).any fun row => row.state ∈ atRiskCommitmentStates

section Customers

/-! `arrUsd` is `arr_usd_from_current_value`: Decimal arithmetic on a JSON value,
none when it raises. -/

variable (arrUsd : Json → Option Amount)

/-- `revenue_at_risk_for_customer` in its savepoint; none when it raises. -/
def revenueAtRiskForCustomer (customerId : Nat) : ActTx (Option Amount) := do
  let found ← Tx.read fun db =>
    (db.resources.get customerId).filter fun row => row.archivedAt.isNone
  match found with
  | none => return some .zero
  | some resource =>
    if resource.kind ≠ .relational then return some .zero
    else
      match arrUsd resource.currentValue with
      | none => return none
      | some arr =>
        if arr.isZero then return some .zero
        else
          let atRisk ← Tx.read (servesAtRisk customerId)
          return some (if atRisk then arr else .zero)

def servedCustomers (commitmentId tenantId : Nat) (db : Db) : List Nat :=
  db.customerCommitments.primaryKeys.filterMap fun (resourceId, servedId) =>
    match db.resources.get resourceId with
    | some resource =>
      if servedId = commitmentId ∧ resource.tenantId = tenantId ∧ resource.archivedAt = none then
        some resourceId
      else none
    | none => none

section

variable (clock : Clock)

def recomputeCustomer (event : CascadeEvent) (tenantId : Nat) (newState : Scalar) (customerId : Nat)
    : ActTx Downstream := do
  let rar ← revenueAtRiskForCustomer arrUsd customerId
  let obsId ← emitStateChange clock
    { kind := "customer_health_recomputed"
      entityId := customerId
      tenantId
      causeEventId := event.observationId
      entityKind := some "customer_resource"
      metadata := some
        [("trigger_commitment_id", .text (toString event.entityId)),
          ("trigger_new_state", newState),
          ("revenue_at_risk", (rar.map fun amount => Scalar.text amount.text).getD .null)] }
  let eventId ← Tx.newId
  let truthy := rar.filter fun amount => !amount.isZero
  return {
    events := [
      { id := eventId
        kind := .customerHealthRecomputed
        entityKind := "customer_resource"
        entityId := customerId
        tenantId
        metadata :=
          [("revenue_at_risk", (truthy.map fun amount => Scalar.text amount.text).getD .null)]
        observationId := some obsId }] }

def recomputeCustomers (event : CascadeEvent) (tenantId : Nat) (newState : Scalar) : ActTx
    Downstream := do
  let customers ← Tx.read (servedCustomers event.entityId tenantId)
  let parts ← Tx.mapEach customers (recomputeCustomer arrUsd clock event tenantId newState)
  return .concat parts

def CascadeEvent.newState (event : CascadeEvent) : Scalar :=
  (event.metadata.lookup "new_state").getD .null

def downstreamWhen (condition : Bool) (branch : ActTx Downstream) : ActTx Downstream :=
  if condition then branch else return {}

def branchCommitmentState (event : CascadeEvent) (tenantId : Nat) : ActTx Downstream := do
  let unblocked ← downstreamWhen (event.newState = .text "doneverified")
    (unblockDependents clock event tenantId)
  let goals ← recomputeGoals clock event tenantId
  let customers ← downstreamWhen
    (event.newState = .text "doneverified" || event.newState = .text "closed")
    (recomputeCustomers arrUsd clock event tenantId event.newState)
  return .concat [unblocked, goals, customers]

def flagForReview (event : CascadeEvent) (tenantId : Nat) (metadata : List (String × Scalar))
    (commitmentId : Nat) : ActTx Downstream := do
  let obsId ← emitStateChange clock
    { kind := "commitment_flagged_for_review"
      entityId := commitmentId
      tenantId
      causeEventId := event.observationId
      entityKind := some "commitment"
      metadata := some metadata }
  let eventId ← Tx.newId
  return {
    events := [
      { id := eventId
        kind := .commitmentFlaggedForReview
        entityKind := "commitment"
        entityId := commitmentId
        tenantId
        metadata
        observationId := some obsId }] }

def constrainedCommitments (decisionId tenantId : Nat) (db : Db) : List Nat :=
  db.constrainedBy.primaryKeys.filterMap fun (commitmentId, constrainingId) =>
    match db.commitments.get commitmentId with
    | some row =>
      if constrainingId = decisionId ∧ row.tenantId = tenantId ∧
          row.state ∉ [CommitmentState.doneverified, .closed] then
        some commitmentId
      else none
    | none => none

def branchDecisionRevisited (event : CascadeEvent) (tenantId : Nat) : ActTx Downstream := do
  let commitments ← Tx.read (constrainedCommitments event.entityId tenantId)
  let parts ← Tx.mapEach commitments (flagForReview clock event tenantId
    [("reason", .text "decision_revisited"), ("decision_id", .text (toString event.entityId))])
  return .concat parts

def deployedCommitments (resourceId : Nat) (db : Db) : List Nat :=
  db.resourceDeployments.rows.filterMap fun ((deployedId, commitmentId), releasedAt) =>
    if deployedId = resourceId ∧ releasedAt = none then some commitmentId else none

def branchResourceTerminal (event : CascadeEvent) (tenantId : Nat) : ActTx Downstream := do
  let commitments ← Tx.read (deployedCommitments event.entityId)
  let parts ← Tx.mapEach commitments (flagForReview clock event tenantId
    [("reason", .text "resource_terminal"), ("resource_id", .text (toString event.entityId))])
  return .concat parts

def computeDownstream (event : CascadeEvent) (tenantId : Nat) : ActTx Downstream :=
  match event.kind with
  | .commitmentStateChange => branchCommitmentState arrUsd clock event tenantId
  | .decisionRevisited => branchDecisionRevisited clock event tenantId
  | .resourceTerminal => branchResourceTerminal clock event tenantId
  | _ => return {}

end

structure CascadeState where
  queue : List (CascadeEvent × Nat)
  visited : List Nat
  steps : List CascadeEvent
  depthReached : Nat := 0
  invariantViolations : List InvariantViolationEvent := []

/-- The inner loop: an event that was not visited is queued one level deeper. -/
def CascadeState.follow (state : CascadeState) (depth : Nat) (event : CascadeEvent) :
    CascadeState :=
  if event.id ∈ state.visited then state
  else
    { state with
      queue := state.queue ++ [(event, depth + 1)]
      visited := state.visited ++ [event.id]
      steps := state.steps ++ [event] }

def CascadeState.advance (state : CascadeState) (rest : List (CascadeEvent × Nat)) (depth : Nat)
    (downstream : Downstream) : CascadeState :=
  downstream.events.foldl (fun current event => current.follow depth event)
    { state with
      queue := rest
      depthReached := max state.depthReached depth
      invariantViolations := state.invariantViolations ++ downstream.violations }

def CascadeState.result (state : CascadeState) (boundViolated : Bool) : CascadeResult where
  eventsVisited := state.visited.length
  depthReached := state.depthReached
  boundViolated
  steps := state.steps
  invariantViolations := state.invariantViolations

/-- `while queue`; none when the fuel runs out. -/
def cascadeLoop (clock : Clock) (trigger : CascadeEvent) (maxDepth tenantId : Nat) :
    Nat → CascadeState → ActTx (Option CascadeResult)
  | 0, _ => return none
  | fuel + 1, state =>
    match state.queue with
    | [] => return some (state.result false)
    | (event, depth) :: rest =>
      if depth ≥ maxDepth then do
        let _ ← emitStateChange clock
          { kind := "cascade_bound_violation"
            entityId := event.entityId
            tenantId
            causeEventId := event.observationId
            entityKind := some event.entityKind
            metadata := some
              [("max_depth", .number maxDepth), ("depth_at_abort", .number depth),
                ("initial_event_id", .text (toString trigger.id))] }
        return some ({ state with queue := rest }.result true)
      else do
        let downstream ← computeDownstream arrUsd clock event tenantId
        cascadeLoop clock trigger maxDepth tenantId fuel (state.advance rest depth downstream)

def defaultMaxDepth : Nat := 50

def cascade (clock : Clock) (trigger : CascadeEvent) (maxDepth : Nat) (tenantId : Option Nat)
    (fuel : Nat) : ActTx (Option CascadeResult) :=
  cascadeLoop arrUsd clock trigger maxDepth (tenantId.getD trigger.tenantId) fuel
    { queue := [(trigger, 0)], visited := [trigger.id], steps := [trigger] }

end Customers

end FyralisCore.Think
