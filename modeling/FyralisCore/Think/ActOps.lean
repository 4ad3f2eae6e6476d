import FyralisCore.Think.Domain

/-! The act and the resource operations of a diff: `_apply_act_op`,
`_apply_resource_op`, and the calls they make that are not in the models of the
stores (`decisions.py`, `resources/repo.py`). -/
namespace FyralisCore.Think.Applier

open Relational Transaction Tx
open Acts (Json Clock DecisionState)
open Resources (Dict)

structure ApplyContext where
  clock : Clock
  tenantId : Nat
  causeEventId : Option Nat := none
  thinkRunId : Option Nat := none
  /-- `trigger_evidence_ids` -/
  triggerEvidenceIds : List Nat := []
  /-- `supporting_event_ids_max` -/
  supportingEventIdsMax : Nat := 240
  /-- The text of a float. -/
  decimal : Rat → String
  /-- The sum of two floats, each given by the number that its text denotes. -/
  add : Rat → Rat → Rat := (· + ·)

/-- `emit_state_change` of the shared emitter. -/
def emitStateChange (ctx : ApplyContext) (args : Observations.StateChangeArgs) : DomainTx Unit :=
  onActs ((Observations.emitStateChange ctx.clock args).bind fun _ => .done ())

structure GoalUpdate where
  id : Option Nat
  cachedHealth : Option String := none
  /-- Set to NULL when the date does not parse. -/
  targetDate : Option (Option Nat) := none

def goalHealthOfText : String → Option Acts.GoalCachedHealth
  | "healthy" => some .healthy
  | "warning" => some .warning
  | "degraded" => some .degraded
  | "critical" => some .critical
  | _ => none

def GoalUpdate.metadata (update : GoalUpdate) : List (String × Acts.Scalar) :=
  (update.cachedHealth.map fun health => ("cached_health", Acts.Scalar.text health)).toList ++
    (update.targetDate.map fun date =>
      ("target_date", date.elim Acts.Scalar.null Acts.Scalar.number)).toList

def GoalUpdate.on (update : GoalUpdate) (now : Nat) (row : Acts.GoalRow) : Acts.GoalRow :=
  { row with
    cachedHealth := (update.cachedHealth.bind goalHealthOfText).getD row.cachedHealth
    cachedHealthComputedAt :=
      if update.cachedHealth.isSome then some now else row.cachedHealthComputedAt
    targetDate := update.targetDate.getD row.targetDate }

def GoalUpdate.otherHealths (update : GoalUpdate) (goalId : Nat) (db : DomainDb) :
    Table Nat String :=
  match update.cachedHealth with
  | none => db.otherHealths
  | some health =>
    if (goalHealthOfText health).isSome || (db.acts.goals.get goalId).isNone then
      db.otherHealths.remove goalId
    else db.otherHealths.put goalId health

section

variable (ctx : ApplyContext)

/-- `update_goal`, which no function of the act store makes. -/
def updateGoal (update : GoalUpdate) : DomainTx Unit := do
  let goalId ← orRaise update.id (.validationError "update_goal requires entity.id")
  ensure (update.cachedHealth.isSome || update.targetDate.isSome)
    (.validationError "update_goal: nothing to change")
  execute fun db =>
    { db with
      acts :=
        { db.acts with
          goals := db.acts.goals.update goalId (update.on ctx.clock.transactionNow) }
      otherHealths := update.otherHealths goalId db }
  emitStateChange ctx
    { kind := "goal_updated"
      entityId := goalId
      tenantId := ctx.tenantId
      causeEventId := ctx.causeEventId
      metadata := some update.metadata
      entityKind := some "goal" }

/-- The keyword arguments of `decisions.create`; the state keeps its default. -/
structure DecisionCreate where
  title : String
  decisionText : String
  rationale : Option String := none
  scope : Option Json := none
  revisitTriggers : Option Json := none
  createdByEventId : Nat

def emitDecisionChange (observation : DecisionObservation) : DomainTx Unit := do
  let obsId ← newId
  constrained (fun db => [tenantExists "observations" observation.tenantId db]) fun db =>
    { db with decisionObservations := db.decisionObservations.insertNew obsId observation }

def DecisionCreate.text (args : DecisionCreate) (now : Nat) : DecisionText where
  title := args.title
  decisionText := args.decisionText
  rationale := args.rationale
  scope := args.scope
  revisitTriggers := args.revisitTriggers
  lastStateChangeAt := now
  createdByEventId := args.createdByEventId

def createDecision (args : DecisionCreate) : DomainTx Unit := do
  ensure (!Acts.isBlank args.title) (.validationError "decision title is required")
  ensure (!Acts.isBlank args.decisionText) (.validationError "decision_text is required")
  let decisionId ← newId
  constrained (fun db => [
      ((db.acts.decisions.get decisionId).isNone, .unique "decisions"),
      tenantExists "decisions" ctx.tenantId db])
    fun db =>
      { db with
        acts :=
          { db.acts with
            decisions := db.acts.decisions.insertNew decisionId { tenantId := ctx.tenantId } }
        decisionTexts :=
          db.decisionTexts.insertNew decisionId (args.text ctx.clock.transactionNow) }
  emitDecisionChange
    { tenantId := ctx.tenantId
      occurredAt := ctx.clock.processNow
      decisionId
      fromState := none
      toState := .drafted
      causeId := some args.createdByEventId }

def DecisionText.moved (text : DecisionText) (newState : DecisionState) (now : Nat) :
    DecisionText :=
  { text with
    lastStateChangeAt := now
    archivedAt := if newState = .archived then some now else text.archivedAt }

def transitionDecision (decisionId : Nat) (newState : DecisionState) : DomainTx Unit := do
  let found ← read fun db => db.acts.decisions.get decisionId
  let row ← orRaise found (.validationError "decision not found")
  let (legal, reason) := Acts.decisionMachine.canTransition row.state newState
  ensure legal (.invariantViolation "D_STATE" reason)
  execute fun db =>
    { db with
      acts :=
        { db.acts with
          decisions := db.acts.decisions.update decisionId fun row => { row with state := newState } }
      decisionTexts :=
        db.decisionTexts.update decisionId (·.moved newState ctx.clock.transactionNow) }
  emitDecisionChange
    { tenantId := row.tenantId
      occurredAt := ctx.clock.processNow
      decisionId
      fromState := some row.state
      toState := newState
      causeId := ctx.causeEventId }

/-- What the decoding of an entity or of a payload raises: a missing key, an
identifier that is none, an operation that is unknown. -/
inductive DecodeError where
  | validationError (message : String)
  | python (message : String)

def DecodeError.raised : DecodeError → DomainError
  | .validationError message => .validationError message
  | .python message => .python message

/-- `op` with its decoded `entity`. The creator of a row is the entity's own event
or, without one, the cause of the trigger. -/
inductive ActEntity where
  | createGoal (args : Acts.GoalCreate)
  | updateGoal (update : GoalUpdate)
  | transitionGoal (goalId : Nat) (newState : Acts.GoalState)
  | createCommitment (args : Acts.CommitmentCreate)
  | transitionCommitment (commitmentId : Nat) (newState : Acts.CommitmentState)
    (resolvedByEventIds : List Nat) (causeEventId : Option Nat)
  | createDecision (args : DecisionCreate)
  | transitionDecision (decisionId : Nat) (newState : DecisionState)
  | addEdge (args : Acts.EdgeArgs)
  | malformed (op : String) (error : DecodeError)

structure ActOp where
  confidenceBasis : Option Nat := none
  entity : ActEntity

def ActEntity.op : ActEntity → String
  | .createGoal _ => "create_goal"
  | .updateGoal _ => "update_goal"
  | .transitionGoal _ _ => "transition_goal"
  | .createCommitment _ => "create_commitment"
  | .transitionCommitment _ _ _ _ => "transition_commitment"
  | .createDecision _ => "create_decision"
  | .transitionDecision _ _ => "transition_decision"
  | .addEdge args =>
    match args.kind with
    | .contributesTo => "add_edge_contributes_to"
    | .dependsOn => "add_edge_depends_on"
    | .constrainedBy => "add_edge_constrained_by"
  | .malformed op _ => op

def actCall {α : Type} (body : Acts.ActTx α) : DomainTx Unit :=
  onActs (body.bind fun _ => .done ())

def applyActOp (op : ActOp) : DomainTx Unit :=
  match op.entity with
  | .createGoal args => actCall (Acts.createGoal ctx.clock { args with tenantId := ctx.tenantId })
  | .updateGoal update => updateGoal ctx update
  | .transitionGoal goalId newState =>
    actCall (Acts.transitionGoal ctx.clock goalId newState ctx.causeEventId)
  | .createCommitment args =>
    actCall (Acts.createCommitment ctx.clock
      { args with tenantId := ctx.tenantId, lastConfidenceBasis := op.confidenceBasis })
  | .transitionCommitment commitmentId newState resolved causeEventId =>
    actCall (Acts.transitionCommitment ctx.clock commitmentId newState
      { resolvedByEventIds := if resolved.isEmpty then none else some resolved
        lastConfidenceBasis := op.confidenceBasis
        causeEventId := ctx.causeEventId.or causeEventId })
  | .createDecision args => createDecision ctx args
  | .transitionDecision decisionId newState => transitionDecision ctx decisionId newState
  | .addEdge args => actCall (Acts.addEdge args)
  | .malformed _ error => .raise error.raised

structure ResourceCreate where
  kind : String
  identity : String
  description : Option String := none
  currentValue : Resources.Value
  utilizationState : String := "available"
  controllability : String := "owned"
  temporalCharacter : String := "permanent"
  valuationConfidence : Rat := 1
  metadata : Option Dict := none
  createdByEventId : Nat

def resourceKindOfText (text : String) : Option Acts.ResourceKind :=
  [.financial, .ip, .relational, .capacity, .infrastructure, .regulatory].find? fun kind =>
    Resources.kindText kind == text

def utilizationOfText (text : String) : Option Resources.UtilizationState :=
  [.available, .deployed, .committed, .depleted, .expired].find? fun state => state.text == text

def validControllability : List String := ["owned", "joint", "borrowed", "leased", "limited"]

def validTemporal : List String := ["permanent", "time_limited", "renewable", "consumable"]

def quoted (text : String) : String := "'" ++ text ++ "'"

def ResourceCreate.row (args : ResourceCreate) (tenantId now : Nat) (kind : Acts.ResourceKind)
    (utilization : Resources.UtilizationState) (currentValue : Dict) : Resources.ResourceRow where
  tenantId := tenantId
  kind := kind
  currentValue := currentValue
  utilizationState := utilization
  lastUpdatedAt := now
  lastUpdatedByEventId := some args.createdByEventId

def ResourceCreate.text (args : ResourceCreate) : ResourceText where
  identity := args.identity
  description := args.description
  valuationConfidence := args.valuationConfidence
  controllability := args.controllability
  temporalCharacter := args.temporalCharacter
  metadata := args.metadata

def asDict : Resources.Value → Option Dict
  | .object fields => some fields
  | _ => none

def createResource (args : ResourceCreate) : DomainTx Unit := do
  let kind ← orRaise (resourceKindOfText args.kind)
    (.validationError ("invalid resource kind " ++ quoted args.kind))
  let utilization ← orRaise (utilizationOfText args.utilizationState)
    (.validationError ("invalid utilization_state " ++ quoted args.utilizationState))
  ensure (args.controllability ∈ validControllability)
    (.validationError ("invalid controllability " ++ quoted args.controllability))
  ensure (args.temporalCharacter ∈ validTemporal)
    (.validationError ("invalid temporal_character " ++ quoted args.temporalCharacter))
  ensure (!Acts.isBlank args.identity) (.validationError "identity is required")
  let currentValue ← orRaise (asDict args.currentValue)
    (.validationError "current_value must be a dict")
  let resourceId ← newId
  constrained (fun db => [
      ((db.resources.resources.get resourceId).isNone, .unique "resources"),
      tenantExists "resources" ctx.tenantId db])
    fun db =>
      { db with
        resources :=
          { db.resources with
            resources := db.resources.resources.insertNew resourceId
              (args.row ctx.tenantId ctx.clock.transactionNow kind utilization currentValue) }
        resourceTexts := db.resourceTexts.insertNew resourceId args.text }
  emitStateChange ctx
    { kind := "resource_created"
      entityId := resourceId
      tenantId := ctx.tenantId
      causeEventId := some args.createdByEventId
      metadata := some [("resource_kind", .text args.kind), ("identity", .text args.identity),
        ("utilization_state", .text args.utilizationState)]
      entityKind := some "resource" }

structure ResourceUpdate where
  resourceId : Nat
  patch : Option Dict := none
  metadataPatch : Option Dict := none
  description : Option String := none
  lastUpdatedByEventId : Nat

def ResourceUpdate.onRow (update : ResourceUpdate) (now : Nat) (row : Resources.ResourceRow) :
    Resources.ResourceRow :=
  { row with
    currentValue := row.currentValue.update (update.patch.getD [])
    lastUpdatedAt := now
    lastUpdatedByEventId := some update.lastUpdatedByEventId }

def ResourceUpdate.onText (update : ResourceUpdate) (text : ResourceText) : ResourceText :=
  let metadata := Resources.Dict.update (text.metadata.getD []) (update.metadataPatch.getD [])
  { text with
    metadata := if metadata.isEmpty then none else some metadata
    description := update.description.or text.description }

def ResourceUpdate.patchKeys (update : ResourceUpdate) : String :=
  Models.pyReprList (((update.patch.getD []).map Prod.fst).insertionSort (· ≤ ·))

def updateAttributes (update : ResourceUpdate) : DomainTx Unit := do
  ensure (update.patch.isSome || update.metadataPatch.isSome || update.description.isSome)
    (.validationError ("update_attributes requires at least one of patch, " ++
      "metadata_patch, or description"))
  let found ← read fun db => db.resources.resources.get update.resourceId
  let row ← orRaise found (.validationError "resource not found")
  ensure row.archivedAt.isNone (.invariantViolation "R4" "cannot update archived resource")
  execute fun db =>
    { db with
      resources :=
        { db.resources with
          resources := db.resources.resources.update update.resourceId
            (update.onRow ctx.clock.transactionNow) }
      resourceTexts := db.resourceTexts.update update.resourceId update.onText }
  emitStateChange ctx
    { kind := "resource_updated"
      entityId := update.resourceId
      tenantId := row.tenantId
      causeEventId := some update.lastUpdatedByEventId
      metadata := some [("resource_kind", .text (Resources.kindText row.kind)),
        ("patch_keys", .text update.patchKeys)]
      entityKind := some "resource" }

/-- `op` with its decoded payload; the source event is the payload's own or,
without one, the cause of the trigger. -/
inductive ResourceOp where
  | create (args : ResourceCreate)
  | update (update : ResourceUpdate)
  | transaction (args : Resources.RecordArgs)
  | deploy (args : Resources.DeployArgs)
  | release (args : Resources.ReleaseArgs)
  | malformed (op : String) (error : DecodeError)

def ResourceOp.op : ResourceOp → String
  | .create _ => "create"
  | .update _ => "update"
  | .transaction _ => "transaction"
  | .deploy _ => "deploy"
  | .release _ => "release"
  | .malformed op _ => op

def resourceCall {α : Type} (body : Resources.ResourceTx α) : DomainTx Unit :=
  onResources (body.bind fun _ => .done ())

def applyResourceOp : ResourceOp → DomainTx Unit
  | .create args => createResource ctx args
  | .update update => updateAttributes ctx update
  | .transaction args => resourceCall (Resources.recordTransaction ctx.clock args)
  | .deploy args => resourceCall (Resources.deploy ctx.clock args)
  | .release args => resourceCall (Resources.release ctx.clock args)
  | .malformed _ error => .raise error.raised

end

end FyralisCore.Think.Applier
