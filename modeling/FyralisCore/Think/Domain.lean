import FyralisCore.Acts.Commitments
import FyralisCore.Lib.Part
import FyralisCore.Models.Archive
import FyralisCore.Models.Relations
import FyralisCore.Resources.Deployments

/-! The tables that the operations of a diff write, over the stores of acts, models
and resources, and what the operations raise. -/
namespace FyralisCore.Think.Applier

open Relational Transaction
open Acts (Json Clock ConstraintViolation)

/-- The columns of `models` that lifecycle operations read and write besides those
of the model store. -/
structure BeliefRow where
  confidence : Rat
  confirmedCount : Nat := 0
  contestedCount : Nat := 0
  supportingEventIds : List Nat := []
  propositionKind : Option String := none
  claimRole : Option String := none
  lastConfirmedAt : Option Nat := none
  resolvedAt : Option Nat := none
  resolutionOutcome : Option Bool := none

inductive PredictionStatus where
  | active
  | confirmed
  | falsified
  | expired
  deriving DecidableEq, Repr

structure PredictionRow where
  tenantId : Nat
  modelId : Nat
  status : PredictionStatus := .active
  resolvedAt : Option Nat := none
  resolvedByObservationId : Option Nat := none
  updatedAt : Nat

inductive ColumnValue where
  | null
  | flag (value : Bool)
  | number (value : Rat)
  | time (value : Nat)
  | text (value : String)
  | ids (values : List Nat)
  deriving DecidableEq

inductive AuditCause where
  | archive
  | fieldUpdate
  | confidenceUpdate
  deriving DecidableEq, Repr

structure AuditEvent where
  modelId : Nat
  tenantId : Nat
  occurredAt : Nat
  causeType : AuditCause
  newState : List (String × ColumnValue)
  previousState : Option (List (String × ColumnValue)) := none
  causeId : Option Nat := none
  changedFields : List String := []
  reAssertsEventId : Option Nat := none

inductive RelationDirection where
  | sourceToTarget
  | targetToSource
  | symmetric
  | unknown
  deriving DecidableEq, Repr

inductive EndpointBindingStatus where
  | bound
  | partiallyBound
  | unbound
  | ambiguous
  deriving DecidableEq, Repr

inductive RelationWritePolicy where
  | acceptedEdge
  | candidate
  | needsReview
  | noEdge
  deriving DecidableEq, Repr

inductive RelationClaimStatus where
  | active
  | accepted
  | candidate
  | needsReview
  | rejected
  | retired
  deriving DecidableEq, Repr

def RelationClaimStatus.isDecided : RelationClaimStatus → Bool
  | .accepted | .rejected | .retired => true
  | _ => false

structure RelationClaimRow where
  tenantId : Nat
  sourceObservationId : Option Nat
  thinkRunId : Option Nat
  sourceModelId : Option Nat
  targetModelId : Option Nat
  subjectRef : List (String × Json)
  objectRef : List (String × Json)
  predicate : String
  edgeKind : String
  direction : RelationDirection
  endpointBindingStatus : EndpointBindingStatus
  writePolicy : RelationWritePolicy
  status : RelationClaimStatus
  confidence : Rat
  weight : Option Rat
  bindingConfidence : Rat
  evidenceEventIds : List Nat
  evidenceModelIds : List Nat
  evidenceText : Option String
  explanation : Option String
  acceptedEdgeIds : List Nat := []
  temporalBounds : List (String × Json)
  metadata : List (String × Json)
  createdAt : Nat
  updatedAt : Nat
  decidedAt : Option Nat := none

structure DecisionText where
  title : String
  decisionText : String
  rationale : Option String := none
  scope : Option Json := none
  revisitTriggers : Option Json := none
  lastStateChangeAt : Nat
  archivedAt : Option Nat := none
  createdByEventId : Nat

structure DecisionObservation where
  tenantId : Nat
  occurredAt : Nat
  decisionId : Nat
  fromState : Option Acts.DecisionState
  toState : Acts.DecisionState
  causeId : Option Nat

structure ResourceText where
  identity : String
  description : Option String := none
  valuationConfidence : Rat := 1
  controllability : String := "owned"
  temporalCharacter : String := "permanent"
  metadata : Option Resources.Dict := none

/-- The tables of the domain. Models, tenants, actors and observations are shared:
`acts` holds the last three, `models` the first. -/
structure DomainDb where
  acts : Acts.Db := {}
  models : Models.ModelDb := {}
  resources : Resources.ResourceDb := {}
  beliefs : Table Nat BeliefRow := ∅
  predictions : Table Nat PredictionRow := ∅
  auditEvents : Table Nat AuditEvent := ∅
  relationClaims : Table Nat RelationClaimRow := ∅
  decisionTexts : Table Nat DecisionText := ∅
  decisionObservations : Table Nat DecisionObservation := ∅
  resourceTexts : Table Nat ResourceText := ∅
  /-- `goals.cached_health` where it is none of the four texts of its type; the column
  itself takes any. -/
  otherHealths : Table Nat String := ∅

/-- What an operation raises: an error of one of the stores, or one of its own. -/
inductive DomainError where
  | act (error : Acts.ActError)
  | model (error : Models.ModelError)
  | resource (error : Resources.ResourceError)
  | validationError (message : String)
  | invariantViolation (invariant message : String)
  | python (message : String)
  | database (violation : ConstraintViolation)

/-- The classes of exceptions that the handlers tell apart. The first three have
no subclass relation among them. -/
inductive ErrorClass where
  | validationError
  | invariantViolation
  | edgeRegistryError
  | other
  deriving DecidableEq, Repr

def errorClassOfAct : Acts.ActError → ErrorClass
  | .invariantViolation _ _ _ => .invariantViolation
  | .validationError _ _ => .validationError
  | .database _ | .typeError _ => .other

def errorClassOfModel : Models.ModelError → ErrorClass
  | .unknownKind _ | .notEnabled _ | .weightRequired _ | .weightForbidden _ _
  | .weightOutOfRange _ _ | .mutuallyExclusive _ _ _ _ => .edgeRegistryError
  | .notIterable _ | .falsifierInadequate _ _ | .uniqueViolation _ | .foreignKeyViolation _ =>
    .other
  | _ => .validationError

def errorClassOfResource : Resources.ResourceError → ErrorClass
  | .validationError _ _ => .validationError
  | .invariantViolation _ _ _ => .invariantViolation
  | .python _ | .database _ => .other

def DomainError.errorClass : DomainError → ErrorClass
  | .act error => errorClassOfAct error
  | .model error => errorClassOfModel error
  | .resource error => errorClassOfResource error
  | .validationError _ => .validationError
  | .invariantViolation _ _ => .invariantViolation
  | .python _ | .database _ => .other

def DomainError.isRefusal (error : DomainError) : Bool :=
  error.errorClass != .other

/-- `exc.message`, with `decimal` the text of a number. The errors that no handler
catches need none. -/
def DomainError.message (decimal : Rat → String) : DomainError → String
  | .act (.invariantViolation _ message _) | .act (.validationError message _)
  | .act (.typeError message) => message
  | .model error => error.message decimal
  | .resource (.validationError message _) | .resource (.invariantViolation _ message _) =>
    message
  | .validationError message | .invariantViolation _ message | .python message => message
  | .act (.database _) | .resource (.database _) | .resource (.python _) | .database _ => ""

/-- A transaction over the tables of the domain; a write is the change it makes. -/
abbrev DomainTx (α : Type) : Type := Tx DomainDb (DomainDb → DomainDb) Empty DomainError α

def actsView (db : DomainDb) : Acts.Db :=
  { db.acts with models := db.models.models.primaryKeys }

def actsPart : Part DomainDb Acts.Db.apply where
  view := actsView
  put db acts := { db with acts := { acts with models := db.acts.models } }
  put_view _ := rfl
  put_put _ _ _ := rfl
  view_put db write := by cases write <;> rfl

def modelsView (db : DomainDb) : Models.ModelDb :=
  { db.models with actors := db.acts.actors }

def modelsPart : Part DomainDb Models.ModelDb.apply where
  view := modelsView
  put db models :=
    { db with
      acts := { db.acts with actors := models.actors }
      models := { models with actors := db.models.actors } }
  put_view _ := rfl
  put_put _ _ _ := rfl
  view_put _ _ := rfl

def resourcesView (db : DomainDb) : Resources.ResourceDb :=
  { db.resources with
    tenants := db.acts.tenants
    commitments := db.acts.commitments.primaryKeys
    observations := db.acts.observations }

/-- The resource store sees the tenants and the ids of the commitments, and adds
observations. -/
def resourcesPart : Part DomainDb Resources.ResourceDb.apply where
  view := resourcesView
  put db resources :=
    { db with
      acts := { db.acts with observations := resources.observations }
      resources :=
        { resources with
          tenants := db.resources.tenants
          commitments := db.resources.commitments
          observations := db.resources.observations } }
  put_view _ := rfl
  put_put _ _ _ := rfl
  view_put db write := by cases write <;> rfl

section

variable {α : Type}

def onActs (body : Acts.ActTx α) : DomainTx α := body.onPart actsPart .act

def onModels (body : Models.ModelTx α) : DomainTx α := body.onPart modelsPart .model

def onResources (body : Resources.ResourceTx α) : DomainTx α :=
  body.onPart resourcesPart .resource

end

def execute (write : DomainDb → DomainDb) : DomainTx Unit :=
  .query (fun _ => none) fun _ => .ok ([write], ())

def constrained (constraints : DomainDb → List (Bool × ConstraintViolation))
    (write : DomainDb → DomainDb) : DomainTx Unit :=
  .query (fun _ => none) fun db =>
    match (constraints db).find? fun constraint => !constraint.1 with
    | some constraint => .error (.database constraint.2)
    | none => .ok ([write], ())

def tenantExists (table : String) (tenantId : Nat) (db : DomainDb) : Bool × ConstraintViolation :=
  (decide (tenantId ∈ db.acts.tenants), .foreignKey table "tenant_id")

end FyralisCore.Think.Applier
