import FyralisCore.Acts.Goals

/-! Commitments (`commitments.py`): creation with its edges and contributors,
transitions, and the edges added afterwards. A statement that may find its row
already there (ON CONFLICT DO NOTHING) writes nothing then. -/
namespace FyralisCore.Acts

open Relational Transaction Tx

/-- An entry of `contributes_to_goal_ids`: a goal, or a goal with its flag. -/
inductive GoalItem where
  | goal (goalId : Nat)
  | flagged (goalId : Nat) (isCriticalPath : Bool)
  deriving DecidableEq, Repr

def GoalItem.edgeParts : GoalItem → Nat × Bool
  | .goal goalId => (goalId, false)
  | .flagged goalId isCriticalPath => (goalId, isCriticalPath)

structure CommitmentCreate where
  title : String
  description : Option String := none
  initialState : CommitmentState := .proposed
  ownerId : Option Nat := none
  dueDate : Option Nat := none
  ambitionLevel : AmbitionLevel := .base
  priority : Int := 5
  successCriteria : Option Json := none
  contributesToGoalIds : Option (List GoalItem) := none
  dependsOnCommitmentIds : Option (List Nat) := none
  constrainedByDecisionIds : Option (List Nat) := none
  contributors : Option (List (Nat × Option String)) := none
  externalCounterpartyRef : Option Json := none
  estimatedCapacity : Option Json := none
  isMaintenance : Option Bool := none
  createdByEventId : Nat
  lastConfidenceBasis : Option Nat := none
  tenantId : Nat

structure CommitmentCreateInput where
  title : String
  description : Option String
  initialState : CommitmentState
  ownerId : Option Nat
  dueDate : Option Nat
  ambitionLevel : AmbitionLevel
  priority : Int
  successCriteria : Option Json
  contributesToGoalIds : List GoalItem
  dependsOnCommitmentIds : List Nat
  constrainedByDecisionIds : List Nat
  contributors : List (Nat × Option String)
  externalCounterpartyRef : Option Json
  estimatedCapacity : Option Json
  isMaintenance : Bool
  createdByEventId : Nat
  lastConfidenceBasis : Option Nat
  tenantId : Nat

def refuseUnless (condition : Bool) (error : ActError) : Except ActError Unit :=
  if condition then .ok () else .error error

@[simp] theorem refuseUnless_eq_ok_iff (condition : Bool) (error : ActError) (v : Unit) :
    refuseUnless condition error = .ok v ↔ condition := by
  unfold refuseUnless
  split <;> simp_all

/-- The maintenance flag: the keyword, or the legacy key of
`estimated_capacity` when the keyword is absent. -/
def resolveMaintenance (isMaintenance : Option Bool) (estimatedCapacity : Option Json) :
    Except ActError Bool :=
  let legacyMaintenance := estimatedCapacity.any (Json.isTrueAt "maintenance")
  match isMaintenance with
  | none => .ok legacyMaintenance
  | some flag =>
    if legacyMaintenance ∧ ¬ flag then
      .error (.validationError
        "is_maintenance=False conflicts with estimated_capacity.maintenance=True" [])
    else .ok flag

/-- `_prepare_commitment_create_input`; `now` is the process clock. -/
def prepareCommitmentCreateInput (now : Nat) (args : CommitmentCreate) :
    Except ActError CommitmentCreateInput := do
  refuseUnless (!isBlank args.title)
    (.validationError "commitment title is required" [("field", "title")])
  let contributesToGoalIds := args.contributesToGoalIds.getD []
  let dependsOnCommitmentIds := args.dependsOnCommitmentIds.getD []
  let constrainedByDecisionIds := args.constrainedByDecisionIds.getD []
  let contributors := args.contributors.getD []
  refuseUnless (args.initialState = .proposed ∨ args.ownerId ≠ none) (.invariantViolation .c1
      ("initial_state " ++ quoted args.initialState.text ++ " requires owner_id")
      [("initial_state", args.initialState.text)])
  refuseUnless (args.dueDate.all (now < ·))
    (.invariantViolation .c9 "due_date at creation must be in the future"
      [("due_date", toString (args.dueDate.getD 0)), ("now", toString now)])
  let maintenance ← resolveMaintenance args.isMaintenance args.estimatedCapacity
  refuseUnless (!maintenance || contributesToGoalIds.isEmpty)
    (.invariantViolation .c10 "is_maintenance=True cannot have contributes_to edges"
      [("n_edges", toString contributesToGoalIds.length)])
  let nonTerminalNonProposed :=
    args.initialState ∉ [CommitmentState.proposed, .doneverified, .closed]
  refuseUnless (!nonTerminalNonProposed || maintenance || !contributesToGoalIds.isEmpty)
    (.invariantViolation .c10 "active commitment needs >=1 contributes_to or maintenance flag"
      [("initial_state", args.initialState.text)])
  return {
    title := args.title
    description := args.description
    initialState := args.initialState
    ownerId := args.ownerId
    dueDate := args.dueDate
    ambitionLevel := args.ambitionLevel
    priority := args.priority
    successCriteria := args.successCriteria
    contributesToGoalIds
    dependsOnCommitmentIds
    constrainedByDecisionIds
    contributors
    externalCounterpartyRef := args.externalCounterpartyRef
    estimatedCapacity := args.estimatedCapacity
    isMaintenance := maintenance
    createdByEventId := args.createdByEventId
    lastConfidenceBasis := args.lastConfidenceBasis
    tenantId := args.tenantId }

/-- `_require_active_actor` on the status it has read. -/
def actorError (role : String) (actorId : Nat) : Option ActorStatus → Option ActError
  | none =>
    some (.invariantViolation .c5 (role ++ " actor does not exist")
      [("actor_id", toString actorId)])
  | some .active => none
  | some status =>
    some (.invariantViolation .c5
      (role ++ " actor status is " ++ quoted status.text ++ ", must be 'active'")
      [("actor_id", toString actorId), ("actor_status", status.text)])

def requireActiveActor (role : String) (actorId : Nat) : ActTx Unit :=
  require fun db => actorError role actorId ((db.actors.get actorId).bind ActorRow.status)

/-- The tenant check of `_require_tenant_goal`, `_require_tenant_commitment` and
`_require_tenant_decision`, which differ in their table and texts. -/
def requireTenant (tenantOf : Db → Nat → Option Nat) (missing foreign field : String)
    (tenantId id : Nat) : ActTx Unit :=
  require fun db =>
    match tenantOf db id with
    | none => some (.validationError missing [(field, toString id)])
    | some found =>
      if found ≠ tenantId then some (.validationError foreign [(field, toString id)]) else none

def Db.goalTenant (db : Db) (goalId : Nat) : Option Nat :=
  (db.goals.get goalId).map GoalRow.tenantId

def Db.commitmentTenant (db : Db) (commitmentId : Nat) : Option Nat :=
  (db.commitments.get commitmentId).map CommitmentRow.tenantId

def Db.decisionTenant (db : Db) (decisionId : Nat) : Option Nat :=
  (db.decisions.get decisionId).map DecisionRow.tenantId

def requireTenantGoal (tenantId goalId : Nat) : ActTx Unit :=
  requireTenant Db.goalTenant "contributes_to goal_id does not exist"
    "contributes_to goal belongs to different tenant" "goal_id" tenantId goalId

def requireTenantCommitment (tenantId commitmentId : Nat) : ActTx Unit :=
  requireTenant Db.commitmentTenant "depends_on commitment does not exist"
    "depends_on commitment belongs to different tenant" "commitment_id" tenantId commitmentId

def requireTenantDecision (tenantId decisionId : Nat) : ActTx Unit :=
  requireTenant Db.decisionTenant "constrained_by decision does not exist"
    "constrained_by decision belongs to different tenant" "decision_id" tenantId decisionId

def validateCommitmentCreateReferences (input : CommitmentCreateInput) : ActTx Unit := do
  forEach input.ownerId.toList (requireActiveActor "owner")
  forEach input.contributors fun contributor =>
    requireActiveActor "contributor" contributor.1
  forEach input.contributesToGoalIds fun item =>
    requireTenantGoal input.tenantId item.edgeParts.1
  forEach input.dependsOnCommitmentIds (requireTenantCommitment input.tenantId)
  forEach input.constrainedByDecisionIds (requireTenantDecision input.tenantId)

/-- The loop of `_resolve_effective_initial_state`, which stops at the first
unsatisfied dependency. -/
def anyUnsatisfied : List Nat → ActTx Bool
  | [] => return false
  | dependencyId :: rest => do
    let unsatisfied ← isUnsatisfiedDependency dependencyId
    if unsatisfied then return true else anyUnsatisfied rest

def resolveEffectiveInitialState (input : CommitmentCreateInput) : ActTx CommitmentState :=
  if input.initialState ≠ .active ∨ input.dependsOnCommitmentIds = [] then
    return input.initialState
  else do
    let blocked ← anyUnsatisfied input.dependsOnCommitmentIds
    return if blocked then .blocked else input.initialState

/-- The row of `_insert_commitment`, with the defaults of the columns it leaves out. -/
def CommitmentCreateInput.row (input : CommitmentCreateInput) (clock : Clock)
    (effectiveInitial : CommitmentState) : CommitmentRow where
  tenantId := input.tenantId
  title := input.title
  description := input.description
  state := effectiveInitial
  ownerId := input.ownerId
  dueDate := input.dueDate
  ambitionLevel := input.ambitionLevel
  priority := input.priority
  successCriteria := input.successCriteria
  externalCounterpartyRef := input.externalCounterpartyRef
  estimatedCapacity := input.estimatedCapacity
  isMaintenance := input.isMaintenance
  createdAt := clock.transactionNow
  lastStateChangeAt := clock.transactionNow
  createdByEventId := input.createdByEventId
  lastConfidenceBasis := input.lastConfidenceBasis

def insertCommitment (commitmentId : Nat) (row : CommitmentRow) : ActTx Unit :=
  query (fun _ => none) fun db =>
    constrained [((db.commitments.get commitmentId).isNone, .unique "commitments"),
        (decide (row.tenantId ∈ db.tenants), .foreignKey "commitments" "tenant_id"),
        (referenceHolds (fun actor => (db.actors.get actor).isSome) row.ownerId,
          .foreignKey "commitments" "owner_id"),
        (referenceHolds (fun model => model ∈ db.models) row.lastConfidenceBasis,
          .foreignKey "commitments" "last_confidence_basis")]
      [.insertCommitment commitmentId row]

def insertContributor (commitmentId actorId : Nat) (role : Option String) : ActTx Unit :=
  query (fun _ => none) fun db =>
    if (db.commitmentContributors.get (commitmentId, actorId)).isSome then .ok ([], ())
    else constrained [((db.commitments.get commitmentId).isSome,
          .foreignKey "commitment_contributors" "commitment_id"),
        ((db.actors.get actorId).isSome, .foreignKey "commitment_contributors" "actor_id")]
      [.insertContributor commitmentId actorId role]

def insertContributesTo (commitmentId goalId : Nat) (isCriticalPath : Bool) : ActTx Unit :=
  query (fun _ => none) fun db =>
    if (db.contributesTo.get (commitmentId, goalId)).isSome then .ok ([], ())
    else constrained
      [((db.commitments.get commitmentId).isSome, .foreignKey "contributes_to" "commitment_id"),
        ((db.goals.get goalId).isSome, .foreignKey "contributes_to" "goal_id")]
      [.insertContributesTo commitmentId goalId isCriticalPath]

def insertDependsOn (dependentId dependencyId : Nat) : ActTx Unit :=
  query (fun _ => none) fun db =>
    if (db.dependsOn.get (dependentId, dependencyId)).isSome then .ok ([], ())
    else constrained [(decide (dependentId ≠ dependencyId), .check "depends_on"),
        ((db.commitments.get dependentId).isSome,
          .foreignKey "depends_on" "dependent_commitment_id"),
        ((db.commitments.get dependencyId).isSome,
          .foreignKey "depends_on" "dependency_commitment_id")]
      [.insertDependsOn dependentId dependencyId]

def insertConstrainedBy (commitmentId decisionId : Nat) : ActTx Unit :=
  query (fun _ => none) fun db =>
    if (db.constrainedBy.get (commitmentId, decisionId)).isSome then .ok ([], ())
    else constrained
      [((db.commitments.get commitmentId).isSome, .foreignKey "constrained_by" "commitment_id"),
        ((db.decisions.get decisionId).isSome, .foreignKey "constrained_by" "decision_id")]
      [.insertConstrainedBy commitmentId decisionId]

def criticalPathError (goalId : Nat) (commitmentState : CommitmentState) :
    Option GoalState → Option ActError
  | some .achieved =>
    if commitmentState ≠ .doneverified then
      some (.invariantViolation .g4
        "achieved goal cannot receive an unfinished critical-path commitment"
        [("goal_id", toString goalId), ("commitment_state", commitmentState.text)])
    else none
  | _ => none

def raiseIf : Option ActError → ActTx Unit
  | some error => .raise error
  | none => .done ()

/-- `_require_goal_can_accept_critical_path`: the goal stays locked. -/
def requireGoalCanAcceptCriticalPath (goalId : Nat) (commitmentState : CommitmentState)
    (isCriticalPath : Bool) : ActTx Unit :=
  when isCriticalPath do
    let goal ← fetchGoalForUpdate goalId
    raiseIf (criticalPathError goalId commitmentState (goal.map GoalRow.state))

def insertContributesToEdge (commitmentId : Nat) (effectiveInitial : CommitmentState)
    (item : GoalItem) : ActTx Unit := do
  requireGoalCanAcceptCriticalPath item.edgeParts.1 effectiveInitial item.edgeParts.2
  insertContributesTo commitmentId item.edgeParts.1 item.edgeParts.2

def raiseFirst (check : ActTx (List ActError)) : ActTx Unit := do
  let violations ← check
  match violations with
  | [] => return ()
  | violation :: _ => .raise violation

/-- The C6 guard and the row it guards, as `_insert_depends_on_edges` and
`add_edge` send them. -/
def insertDependsOnEdge (dependentId dependencyId : Nat) : ActTx Unit := do
  raiseFirst (checkC6DependsOnAcyclic dependentId dependencyId)
  insertDependsOn dependentId dependencyId

def createCommitmentInner (clock : Clock) (input : CommitmentCreateInput) :
    ActTx (Nat × CommitmentRow) := do
  validateCommitmentCreateReferences input
  let commitmentId ← newId
  let effectiveInitial ← resolveEffectiveInitialState input
  insertCommitment commitmentId (input.row clock effectiveInitial)
  forEach input.contributors fun contributor =>
    insertContributor commitmentId contributor.1 contributor.2
  forEach input.contributesToGoalIds (insertContributesToEdge commitmentId effectiveInitial)
  forEach input.dependsOnCommitmentIds (insertDependsOnEdge commitmentId)
  forEach input.constrainedByDecisionIds (insertConstrainedBy commitmentId)
  let _ ← emitStateChange clock input.tenantId .commitment commitmentId none
    effectiveInitial.text (some input.createdByEventId)
  let found ← read fun db => db.commitments.get commitmentId
  let row ← orRaise found (.typeError "'NoneType' object is not iterable")
  return (commitmentId, row)

def createCommitment (clock : Clock) (args : CommitmentCreate) : ActTx (Nat × CommitmentRow) := do
  let input ← ofExcept (prepareCommitmentCreateInput clock.processNow args)
  createCommitmentInner clock input

structure TransitionArgs where
  resolvedByEventIds : Option (List Nat) := none
  lastConfidenceBasis : Option Nat := none
  causeEventId : Option Nat := none

/-- `SELECT * FROM commitments WHERE id = $1 FOR UPDATE` -/
def fetchCommitmentForUpdate (commitmentId : Nat) : ActTx (Option CommitmentRow) :=
  readLocking (Db.lockCommitment commitmentId) fun db => db.commitments.get commitmentId

/-- The state machine's refusal of a commitment transition; an exit from a
terminal state is C8. -/
def commitmentMoveError (commitmentId : Nat) (currentState newState : CommitmentState) : ActError :=
  .invariantViolation (if commitmentMachine.isTerminal currentState then .c8 else .cState)
    (commitmentMachine.canTransition currentState newState).2
    [("commitment_id", toString commitmentId), ("from_state", currentState.text),
      ("to_state", newState.text)]

/-- The checks of a transition that read nothing but the row: the state
machine, C4 and C1. -/
def checkCommitmentMove (commitmentId : Nat) (row : CommitmentRow)
    (newState : CommitmentState) (causeEventId : Option Nat) : Except ActError Unit := do
  refuseUnless (commitmentMachine.canTransition row.state newState).1
    (commitmentMoveError commitmentId row.state newState)
  refuseUnless causeEventId.isSome
    (.invariantViolation .c4 "state transition requires cause_event_id"
      [("commitment_id", toString commitmentId), ("from_state", row.state.text),
        ("to_state", newState.text)])
  refuseUnless (!newState.isOpen || row.ownerId.isSome)
    (.invariantViolation .c1 ("transition to " ++ quoted newState.text ++ " requires owner_id")
      [("commitment_id", toString commitmentId), ("to_state", newState.text)])

def requireActiveOwner (row : CommitmentRow) (newState : CommitmentState) : ActTx Unit :=
  match row.ownerId with
  | none => return ()
  | some ownerId => when (newState ≠ .closed) (requireActiveActor "owner" ownerId)

def mergeResolved (existing : List Nat) (resolvedByEventIds : Option (List Nat)) : List Nat :=
  (resolvedByEventIds.getD []).foldl
    (fun merged eventId => if eventId ∈ merged then merged else merged ++ [eventId]) existing

def requireBlockedReason (commitmentId : Nat) : ActTx Unit := do
  let nDeps ← countUnsatisfiedDependencies commitmentId
  let nRev ← countRevisitedConstrainingDecisions commitmentId
  ensure (nDeps ≠ 0 ∨ nRev ≠ 0) (.invariantViolation .c2
      "blocked requires unsatisfied dependency OR revisited constraining decision"
      [("commitment_id", toString commitmentId)])

section

variable (clock : Clock) (commitmentId : Nat) (newState : CommitmentState)

def updateCommitmentState (mergedResolved : List Nat) (newBasis : Option Nat) : ActTx
    (Option CommitmentRow) :=
  query (Db.lockCommitment commitmentId) fun db =>
    let write := Write.setCommitmentState commitmentId newState clock.transactionNow
      mergedResolved newBasis (commitmentMachine.isTerminal newState)
    if referenceHolds (fun model => model ∈ db.models) newBasis then
      .ok ([write], (db.apply write).commitments.get commitmentId)
    else .error (.database (.foreignKey "commitments" "last_confidence_basis"))

def transitionCommitment (args : TransitionArgs) : ActTx CommitmentRow := do
  let found ← fetchCommitmentForUpdate commitmentId
  let row ← orRaise found
    (.validationError "commitment not found" [("commitment_id", toString commitmentId)])
  ofExcept (checkCommitmentMove commitmentId row newState args.causeEventId)
  requireActiveOwner row newState
  let mergedResolved := mergeResolved row.resolvedByEventIds args.resolvedByEventIds
  ensure (!(newState == .doneverified && mergedResolved.isEmpty))
    (.invariantViolation .c3 "doneverified requires >=1 resolved_by_event_id"
      [("commitment_id", toString commitmentId)])
  when (newState = .blocked) (requireBlockedReason commitmentId)
  let updated ← updateCommitmentState clock commitmentId newState mergedResolved
    (args.lastConfidenceBasis <|> row.lastConfidenceBasis)
  when newState.isOpen (raiseFirst (checkC10ContributesOrMaintenance commitmentId))
  let _ ← emitStateChange clock row.tenantId .commitment commitmentId (some row.state.text)
    newState.text args.causeEventId
  orRaise updated (.typeError "'NoneType' object is not iterable")

end

inductive EdgeKind where
  | contributesTo
  | dependsOn
  | constrainedBy
  deriving DecidableEq, Repr

structure EdgeArgs where
  kind : EdgeKind
  commitmentId : Option Nat := none
  goalId : Option Nat := none
  dependentCommitmentId : Option Nat := none
  dependencyCommitmentId : Option Nat := none
  decisionId : Option Nat := none
  isCriticalPath : Bool := false
  deriving DecidableEq, Repr

inductive ActEdge where
  | contributesTo (commitmentId goalId : Nat) (isCriticalPath : Bool)
  | dependsOn (dependentId dependencyId : Nat)
  | constrainedBy (commitmentId decisionId : Nat)
  deriving DecidableEq, Repr

section

variable (commitmentId goalId : Nat) (isCriticalPath : Bool)

def contributesToError (commitment : CommitmentRow) : Option GoalRow → Option ActError
  | none =>
    some (.validationError "contributes_to goal_id does not exist" [("goal_id", toString goalId)])
  | some goal =>
    if commitment.tenantId ≠ goal.tenantId then
      some (.validationError "contributes_to entities belong to different tenants"
        [("commitment_id", toString commitmentId), ("goal_id", toString goalId)])
    else if isCriticalPath ∧ goal.state = .achieved ∧ commitment.state ≠ .doneverified then
      some (.invariantViolation .g4
        "achieved goal cannot receive an unfinished critical-path commitment"
        [("goal_id", toString goalId), ("commitment_id", toString commitmentId),
          ("commitment_state", commitment.state.text)])
    else none

/-- `_require_contributes_to_allowed`: both rows stay locked. -/
def requireContributesToAllowed : ActTx Unit := do
  let found ← fetchCommitmentForUpdate commitmentId
  let commitment ← orRaise found (.validationError "contributes_to commitment_id does not exist"
      [("commitment_id", toString commitmentId)])
  let goal ← fetchGoalForUpdate goalId
  raiseIf (contributesToError commitmentId goalId isCriticalPath commitment goal)

def addContributesTo : ActTx ActEdge := do
  requireContributesToAllowed commitmentId goalId isCriticalPath
  insertContributesTo commitmentId goalId isCriticalPath
  let found ← read fun db => db.contributesTo.get (commitmentId, goalId)
  let critical ← orRaise found (.typeError "'NoneType' object is not iterable")
  return .contributesTo commitmentId goalId critical

end

def addDependsOn (dependentId dependencyId : Nat) : ActTx ActEdge := do
  insertDependsOnEdge dependentId dependencyId
  let found ← read fun db => db.dependsOn.get (dependentId, dependencyId)
  let _ ← orRaise found (.typeError "'NoneType' object is not iterable")
  return .dependsOn dependentId dependencyId

def addConstrainedBy (commitmentId decisionId : Nat) : ActTx ActEdge := do
  insertConstrainedBy commitmentId decisionId
  let found ← read fun db => db.constrainedBy.get (commitmentId, decisionId)
  let _ ← orRaise found (.typeError "'NoneType' object is not iterable")
  return .constrainedBy commitmentId decisionId

def addEdge (args : EdgeArgs) : ActTx ActEdge :=
  match args.kind with
  | .contributesTo =>
    match args.commitmentId, args.goalId with
    | some commitmentId, some goalId => addContributesTo commitmentId goalId args.isCriticalPath
    | _, _ =>
      .raise (.validationError "contributes_to requires commitment_id and goal_id" [])
  | .dependsOn =>
    match args.dependentCommitmentId, args.dependencyCommitmentId with
    | some dependentId, some dependencyId => addDependsOn dependentId dependencyId
    | _, _ =>
      .raise (.validationError
        "depends_on requires dependent_commitment_id and dependency_commitment_id" [])
  | .constrainedBy =>
    match args.commitmentId, args.decisionId with
    | some commitmentId, some decisionId => addConstrainedBy commitmentId decisionId
    | _, _ =>
      .raise (.validationError "constrained_by requires commitment_id and decision_id" [])

end FyralisCore.Acts
