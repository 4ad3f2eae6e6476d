import FyralisCore.Lib.Table
import FyralisCore.Lib.Transaction

/-! The state machines of the act store (`state_machines.py`): goals,
commitments and decisions, their legal transitions, and the reason a refused
transition is refused with. -/
namespace FyralisCore.Acts

inductive GoalState where
  | active
  | paused
  | achieved
  | abandoned
  deriving DecidableEq, Repr

inductive CommitmentState where
  | proposed
  | active
  | blocked
  | paused
  | doneunverified
  | doneverified
  | closed
  deriving DecidableEq, Repr

inductive DecisionState where
  | drafted
  | active
  | revisited
  | archived
  deriving DecidableEq, Repr

def GoalState.text : GoalState → String
  | .active => "active"
  | .paused => "paused"
  | .achieved => "achieved"
  | .abandoned => "abandoned"

def CommitmentState.text : CommitmentState → String
  | .proposed => "proposed"
  | .active => "active"
  | .blocked => "blocked"
  | .paused => "paused"
  | .doneunverified => "doneunverified"
  | .doneverified => "doneverified"
  | .closed => "closed"

def DecisionState.text : DecisionState → String
  | .drafted => "drafted"
  | .active => "active"
  | .revisited => "revisited"
  | .archived => "archived"

def quoted (text : String) : String :=
  "'" ++ text ++ "'"

structure Machine (S : Type) where
  kind : String
  text : S → String
  transitions : S → List S
  terminal : List S

/-- `GOAL_TRANSITIONS`, `GOAL_TERMINAL`. -/
def goalMachine : Machine GoalState where
  kind := "goal"
  text := GoalState.text
  transitions
    | .active => [.paused, .achieved, .abandoned]
    | .paused => [.active, .achieved, .abandoned]
    | .achieved => []
    | .abandoned => []
  terminal := [.achieved, .abandoned]

/-- `COMMITMENT_TRANSITIONS`, `COMMITMENT_TERMINAL`. -/
def commitmentMachine : Machine CommitmentState where
  kind := "commitment"
  text := CommitmentState.text
  transitions
    | .proposed => [.active, .closed]
    | .active => [.blocked, .paused, .doneunverified, .closed]
    | .blocked => [.active, .paused, .closed]
    | .paused => [.active, .closed]
    | .doneunverified => [.doneverified, .active, .closed]
    | .doneverified => []
    | .closed => []
  terminal := [.doneverified, .closed]

/-- `DECISION_TRANSITIONS`, `DECISION_TERMINAL`. -/
def decisionMachine : Machine DecisionState where
  kind := "decision"
  text := DecisionState.text
  transitions
    | .drafted => [.active]
    | .active => [.revisited, .archived]
    | .revisited => [.active, .archived]
    | .archived => []
  terminal := [.archived]

namespace Machine

variable {S : Type} [DecidableEq S]

def isTerminal (machine : Machine S) (state : S) : Bool :=
  state ∈ machine.terminal

def allowedText (machine : Machine S) (allowed : List S) : String :=
  "[" ++ ", ".intercalate (((allowed.map machine.text).mergeSort (· ≤ ·)).map quoted) ++ "]"

/-- `can_transition`: whether the move is legal, and why not. A state outside
the table cannot be written down here. -/
def canTransition (machine : Machine S) (currentState newState : S) : Bool × String :=
  if machine.isTerminal currentState then
    (false, "cannot transition out of terminal " ++ machine.kind ++ " state " ++
      quoted (machine.text currentState))
  else if newState = currentState then
    (false, "no-op transition " ++ quoted (machine.text currentState) ++ "→" ++
      quoted (machine.text newState))
  else if newState ∈ machine.transitions currentState then (true, "")
  else
    (false, "illegal " ++ machine.kind ++ " transition: " ++
      quoted (machine.text currentState) ++ "→" ++ quoted (machine.text newState) ++
      " (allowed: " ++ machine.allowedText (machine.transitions currentState) ++ ")")

theorem canTransition_iff (machine : Machine S) (currentState newState : S) :
    (machine.canTransition currentState newState).1 ↔
      currentState ∉ machine.terminal ∧ newState ≠ currentState ∧
        newState ∈ machine.transitions currentState := by
  unfold canTransition isTerminal
  split
  · next ht => simpa using fun hn => absurd (by simpa using ht) hn
  · next ht =>
    split
    · next hs => simp [hs]
    · next hd =>
      split
      · next ha => simpa using ⟨by simpa using ht, hd, ha⟩
      · next ha => simp [ha]

end Machine

end FyralisCore.Acts

/-! The act tables (`0001_foundation.sql`, `0021_review1_remediation.sql`,
`0037_tenant_fks.sql`), the statements that write them and the errors of the
act store. Identifiers and timestamps are natural numbers. -/
namespace FyralisCore.Acts

open Relational Transaction

inductive Json where
  | null
  | bool (value : Bool)
  | number (literal : String)
  | string (value : String)
  | array (items : List Json)
  | object (fields : List (String × Json))

def Json.isTrueAt (key : String) : Json → Bool
  | .object fields =>
    match fields.lookup key with
    | some (.bool true) => true
    | _ => false
  | _ => false

inductive GoalAltitude where
  | strategic
  | operational
  | tactical
  deriving DecidableEq, Repr

inductive GoalCachedHealth where
  | healthy
  | warning
  | degraded
  | critical
  deriving DecidableEq, Repr

def GoalCachedHealth.text : GoalCachedHealth → String
  | .healthy => "healthy"
  | .warning => "warning"
  | .degraded => "degraded"
  | .critical => "critical"

inductive AmbitionLevel where
  | base
  | stretch
  | aspirational
  deriving DecidableEq, Repr

inductive ActorStatus where
  | active
  | inactive
  | departed
  deriving DecidableEq, Repr

def ActorStatus.text : ActorStatus → String
  | .active => "active"
  | .inactive => "inactive"
  | .departed => "departed"

/-- The columns of `actors` that the act store reads; `status` is nullable. -/
structure ActorRow where
  tenantId : Nat
  status : Option ActorStatus := some .active
  deriving DecidableEq

structure GoalRow where
  tenantId : Nat
  title : String
  description : Option String := none
  state : GoalState := .active
  targetDate : Option Nat := none
  parentGoalId : Option Nat := none
  altitude : GoalAltitude := .operational
  successCriteria : Option Json := none
  cachedHealth : GoalCachedHealth := .healthy
  cachedHealthComputedAt : Option Nat := none
  createdAt : Nat
  lastStateChangeAt : Nat
  createdByEventId : Nat
  archivedAt : Option Nat := none

structure CommitmentRow where
  tenantId : Nat
  title : String
  description : Option String := none
  state : CommitmentState := .proposed
  ownerId : Option Nat := none
  dueDate : Option Nat := none
  ambitionLevel : AmbitionLevel := .base
  priority : Int := 5
  successCriteria : Option Json := none
  resolvedByEventIds : List Nat := []
  externalCounterpartyRef : Option Json := none
  estimatedCapacity : Option Json := none
  isMaintenance : Bool := false
  createdAt : Nat
  lastStateChangeAt : Nat
  terminalAt : Option Nat := none
  createdByEventId : Nat
  lastConfidenceBasis : Option Nat := none

structure DecisionRow where
  tenantId : Nat
  state : DecisionState := .drafted
  deriving DecidableEq

inductive EntityKind where
  | goal
  | commitment
  deriving DecidableEq, Repr

def EntityKind.text : EntityKind → String
  | .goal => "goal"
  | .commitment => "commitment"

structure StateChangeContent where
  entityKind : EntityKind
  entityId : Nat
  fromState : Option String
  toState : String
  deriving DecidableEq

inductive Scalar where
  | null
  | flag (value : Bool)
  | number (value : Nat)
  | text (value : String)
  deriving DecidableEq, Repr

/-- `content` of an observation: of the act store's own emitter, or of the
shared one in `state_change.py`. -/
inductive ObservationContent where
  | stateChange (content : StateChangeContent)
  | lifecycle (entityId : Nat) (stateChangeKind : String) (entityKind : Option String)
    (metadata : Option (List (String × Scalar)))
  deriving DecidableEq

/-- A row of `observations` as the emitters insert it. -/
structure ObservationRow where
  tenantId : Nat
  occurredAt : Nat
  ingestedAt : Nat
  kind : String := "state_change"
  sourceChannel : String := "internal:state_change"
  content : ObservationContent
  contentText : String
  trustTier : String := "authoritative"
  causeId : Option Nat
  entitiesMentioned : List (EntityKind × Nat)
  deriving DecidableEq

inductive ResourceKind where
  | financial
  | ip
  | relational
  | capacity
  | infrastructure
  | regulatory
  deriving DecidableEq, Repr

structure ResourceRow where
  tenantId : Nat
  kind : ResourceKind
  currentValue : Json
  archivedAt : Option Nat := none

/-- The database, as far as the act store and the cascade read and write it. An
edge table is keyed by its two endpoints, in the order of its primary key. -/
structure Db where
  tenants : List Nat := []
  models : List Nat := []
  actors : Table Nat ActorRow := ∅
  goals : Table Nat GoalRow := ∅
  commitments : Table Nat CommitmentRow := ∅
  decisions : Table Nat DecisionRow := ∅
  commitmentContributors : Table (Nat × Nat) (Option String) := ∅
  /-- commitment, goal ↦ `is_critical_path` -/
  contributesTo : Table (Nat × Nat) Bool := ∅
  /-- dependent, dependency -/
  dependsOn : Table (Nat × Nat) Unit := ∅
  /-- commitment, decision -/
  constrainedBy : Table (Nat × Nat) Unit := ∅
  resources : Table Nat ResourceRow := ∅
  /-- customer resource, commitment -/
  customerCommitments : Table (Nat × Nat) Unit := ∅
  /-- resource, commitment ↦ `released_at` -/
  resourceDeployments : Table (Nat × Nat) (Option Nat) := ∅
  observations : Table Nat ObservationRow := ∅

inductive Invariant where
  | c1 | c2 | c3 | c4 | c5 | c6 | c7 | c8 | c9 | c10
  | g1 | g2 | g3 | g4
  | cState | gState
  deriving DecidableEq, Repr

inductive ConstraintViolation where
  | unique (table : String)
  | foreignKey (table column : String)
  | check (table : String)
  deriving DecidableEq, Repr

/-- What a call of the act store raises. The context keeps the keyword
arguments of the error, as text. -/
inductive ActError where
  | invariantViolation (invariant : Invariant) (message : String)
    (context : List (String × String))
  | validationError (message : String) (context : List (String × String))
  | database (violation : ConstraintViolation)
  | typeError (message : String)
  deriving DecidableEq, Repr

inductive RowRef where
  | goal (id : Nat)
  | commitment (id : Nat)
  deriving DecidableEq, Repr

inductive Write where
  | insertGoal (id : Nat) (row : GoalRow)
  | setGoalState (id : Nat) (state : GoalState) (now : Nat) (archive : Bool)
  | setGoalHealth (id : Nat) (health : GoalCachedHealth) (now : Nat)
  | insertCommitment (id : Nat) (row : CommitmentRow)
  | setCommitmentState (id : Nat) (state : CommitmentState) (now : Nat)
    (resolvedByEventIds : List Nat) (lastConfidenceBasis : Option Nat) (terminal : Bool)
  | insertContributor (commitmentId actorId : Nat) (role : Option String)
  | insertContributesTo (commitmentId goalId : Nat) (isCriticalPath : Bool)
  | insertDependsOn (dependentId dependencyId : Nat)
  | insertConstrainedBy (commitmentId decisionId : Nat)
  | insertObservation (id : Nat) (row : ObservationRow)

def GoalRow.withState (row : GoalRow) (state : GoalState) (now : Nat) (archive : Bool) : GoalRow :=
  { row with
    state
    lastStateChangeAt := now
    archivedAt := if archive then some now else row.archivedAt }

def GoalRow.withHealth (row : GoalRow) (health : GoalCachedHealth) (now : Nat) : GoalRow :=
  { row with cachedHealth := health, cachedHealthComputedAt := some now }

def CommitmentRow.withState (row : CommitmentRow) (state : CommitmentState) (now : Nat)
    (resolvedByEventIds : List Nat) (lastConfidenceBasis : Option Nat) (terminal : Bool) :
    CommitmentRow :=
  { row with
    state
    lastStateChangeAt := now
    resolvedByEventIds
    lastConfidenceBasis
    terminalAt := if terminal then some now else row.terminalAt }

/-- The effect of one row written. An insertion leaves a row that is already
there alone: the statements that must not meet one check for it. -/
def Db.apply (db : Db) : Write → Db
  | .insertGoal id row => { db with goals := db.goals.insertNew id row }
  | .setGoalState id state now archive =>
    { db with goals := db.goals.update id fun row => row.withState state now archive }
  | .setGoalHealth id health now =>
    { db with goals := db.goals.update id fun row => row.withHealth health now }
  | .insertCommitment id row => { db with commitments := db.commitments.insertNew id row }
  | .setCommitmentState id state now resolved basis terminal =>
    { db with
      commitments := db.commitments.update id fun row =>
        row.withState state now resolved basis terminal }
  | .insertContributor commitmentId actorId role =>
    { db with
      commitmentContributors :=
        db.commitmentContributors.insertNew (commitmentId, actorId) role }
  | .insertContributesTo commitmentId goalId critical =>
    { db with contributesTo := db.contributesTo.insertNew (commitmentId, goalId) critical }
  | .insertDependsOn dependentId dependencyId =>
    { db with dependsOn := db.dependsOn.insertNew (dependentId, dependencyId) () }
  | .insertConstrainedBy commitmentId decisionId =>
    { db with constrainedBy := db.constrainedBy.insertNew (commitmentId, decisionId) () }
  | .insertObservation id row => { db with observations := db.observations.insertNew id row }

abbrev ActTx (α : Type) : Type := Tx Db Write RowRef ActError α

def Db.lockGoal (goalId : Nat) (db : Db) : Option RowRef :=
  (db.goals.get goalId).map fun _ => .goal goalId

def Db.lockCommitment (commitmentId : Nat) (db : Db) : Option RowRef :=
  (db.commitments.get commitmentId).map fun _ => .commitment commitmentId

/-- The two clocks a call reads: `datetime.now` of the process and SQL `now()`,
the start of the database transaction. -/
structure Clock where
  processNow : Nat
  transactionNow : Nat

def constrained (constraints : List (Bool × ConstraintViolation)) (writes : List Write) :
    Except ActError (List Write × Unit) :=
  match constraints.find? fun constraint => !constraint.1 with
  | some constraint => .error (.database constraint.2)
  | none => .ok (writes, ())

theorem constrained_eq_ok_iff (constraints : List (Bool × ConstraintViolation))
    (ws : List Write) (r : List Write × Unit) :
    constrained constraints ws = .ok r ↔
      (∀ constraint ∈ constraints, constraint.1) ∧ r = (ws, ()) := by
  unfold constrained
  rw [← Tx.find?_fails_eq_none]
  cases constraints.find? fun constraint => !constraint.1 <;> simp [eq_comm]

def referenceHolds (present : Nat → Bool) (reference : Option Nat) : Bool :=
  reference.all present

end FyralisCore.Acts
