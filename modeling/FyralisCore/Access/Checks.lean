import Mathlib.Data.List.Dedup
import FyralisCore.Lib.PointerWalk
import FyralisCore.Models.Schema

/-! The reporting hierarchy (`hierarchy.py`): each actor's metadata names a
manager, and the chain of an actor is found by following that pointer. -/
namespace FyralisCore.Access

open Relational

/-- The columns of `actors` that visibility depends on; `managerId` is
`(metadata->>'manager_id')::UUID`. -/
structure ActorRow where
  tenantId : Nat
  status : Option Acts.ActorStatus := some .active
  managerId : Option Nat := none
  deriving DecidableEq

/-- `WHERE id = $1 AND tenant_id = $2`, and what the row names as the manager. -/
def managerOf (actors : Table Nat ActorRow) (tenantId actorId : Nat) : Option Nat :=
  ((actors.get actorId).filter fun row => row.tenantId = tenantId).bind ActorRow.managerId

def maxDepth : Nat := 32

def managerChainOf (actors : Table Nat ActorRow) (tenantId actorId : Nat) : List Nat :=
  walk (managerOf actors tenantId) maxDepth [actorId] actorId

def isInManagerChain (actors : Table Nat ActorRow) (tenantId actorId candidateManager : Nat) :
    Bool :=
  if actorId = candidateManager then false
  else candidateManager ∈ managerChainOf actors tenantId actorId

theorem isInManagerChain_iff (actors : Table Nat ActorRow) (tenantId actorId candidate : Nat) :
    isInManagerChain actors tenantId actorId candidate ↔
      candidate ≠ actorId ∧ ∃ steps, 0 < steps ∧ steps ≤ maxDepth ∧
        ascend (managerOf actors tenantId) steps actorId = some candidate := by
  unfold isInManagerChain managerChainOf
  by_cases hs : actorId = candidate
  · simp [hs]
  · rw [if_neg hs, decide_eq_true_eq, mem_walk_iff]

theorem managerOf_eq_some_iff : managerOf actors tenantId actorId = some managerId ↔
      ∃ row, actors.get actorId = some row ∧ row.tenantId = tenantId ∧
        row.managerId = some managerId := by
  simp [managerOf, Option.bind_eq_some_iff, Option.filter_eq_some_iff, and_assoc]

theorem tenant_of_isInManagerChain (hc : isInManagerChain actors tenantId actorId candidate) :
    ∃ row, actors.get actorId = some row ∧ row.tenantId = tenantId := by
  obtain ⟨-, steps, hp, -, ha⟩ := (isInManagerChain_iff _ _ _ _).mp hc
  obtain ⟨count, rfl⟩ : ∃ count, steps = count + 1 := ⟨steps - 1, by omega⟩
  obtain ⟨manager, hm, -⟩ := Option.bind_eq_some_iff.mp ha
  obtain ⟨row, hr, ht, -⟩ := managerOf_eq_some_iff.mp hm
  exact ⟨row, hr, ht⟩

end FyralisCore.Access

/-! The live visibility check (`checks.py`, `roles.py`) of commitments, goals
and models. -/
namespace FyralisCore.Access

open Relational

inductive EntityType where
  | goal
  | commitment
  | decision
  | resource
  | tenant
  deriving DecidableEq, Repr

inductive RoleName where
  | owner
  | contributor
  | viewer
  | admin
  | finance
  | legal
  | leadership
  deriving DecidableEq, Repr

structure RoleGrant where
  tenantId : Nat
  actorId : Nat
  entityType : EntityType
  entityId : Option Nat := none
  role : RoleName
  revokedAt : Option Nat := none
  deriving DecidableEq

structure CommitmentRow where
  tenantId : Nat
  ownerId : Option Nat := none
  deriving DecidableEq

structure GoalRow where
  tenantId : Nat
  deriving DecidableEq

/-- An entry of `scope_entities` that is an object; `id` is what `UUID` makes of
the `id` in it, none when that is absent or malformed. -/
structure ScopeEntity where
  type : Option String := none
  kind : Option String := none
  id : Option Nat := none
  deriving DecidableEq

/-- `ent.get("type") or ent.get("kind")` -/
def ScopeEntity.etype (entity : ScopeEntity) : Option String :=
  if entity.type.any (· ≠ "") then entity.type else entity.kind

structure ModelRow where
  tenantId : Nat
  visibleToSubjects : Option Bool := some true
  scopeActors : List Nat := []
  scopeEntities : List ScopeEntity := []
  status : Models.ModelStatus := .active
  deriving DecidableEq

/-- What visibility is decided from. An edge table is keyed by its two endpoints. -/
structure Db where
  actors : Table Nat ActorRow := ∅
  commitments : Table Nat CommitmentRow := ∅
  goals : Table Nat GoalRow := ∅
  models : Table Nat ModelRow := ∅
  /-- commitment, actor -/
  commitmentContributors : Table (Nat × Nat) Unit := ∅
  /-- commitment, goal -/
  contributesTo : Table (Nat × Nat) Unit := ∅
  actorRoles : List RoleGrant := []

structure VisibleRow where
  actorId : Nat
  entityId : Nat
  tenantId : Nat
  deriving DecidableEq

inductive EntityKind where
  | commitment
  | goal
  | model
  deriving DecidableEq, Repr

/-- The materialized views as the last refresh left them. -/
structure MaterializedViews where
  actorVisibleCommitments : List VisibleRow := []
  actorVisibleGoals : List VisibleRow := []
  actorVisibleModels : List VisibleRow := []

def MaterializedViews.rows (views : MaterializedViews) : EntityKind → List VisibleRow
  | .commitment => views.actorVisibleCommitments
  | .goal => views.actorVisibleGoals
  | .model => views.actorVisibleModels

def hasRole (db : Db) (tenantId actorId : Nat) (role : RoleName) : Bool :=
  db.actorRoles.any fun grant =>
    grant.tenantId = tenantId && grant.actorId = actorId && grant.entityType = .tenant &&
      grant.role = role && grant.revokedAt.isNone

def RoleName.isEntityRole (role : RoleName) : Bool :=
  role = .viewer || role = .contributor || role = .owner

def hasEntityRole (db : Db) (tenantId actorId : Nat) (entityType : EntityType) (entityId : Nat) :
    Bool :=
  db.actorRoles.any fun grant =>
    grant.tenantId = tenantId && grant.actorId = actorId && grant.entityType = entityType &&
      grant.entityId = some entityId && grant.role.isEntityRole && grant.revokedAt.isNone

inductive Reason where
  | entityNotFound
  | tenantMismatch
  | actorNotFound
  | actorTenantMismatch
  | adminOverride
  | leadershipOverride
  | commitmentOwner
  | commitmentContributor
  | commitmentManagerChain
  | commitmentSharedGoal
  | commitmentRoleGrant
  | commitmentOutOfScope
  | goalContributingCommitment
  | goalManagerChain
  | goalRoleGrant
  | goalOutOfScope
  | modelPublic
  | modelSelfScope
  | modelViaCommitmentScope
  | modelViaGoalScope
  | modelOutOfScope
  deriving DecidableEq, Repr

structure AccessDecision where
  allowed : Bool
  reason : Reason
  overrideApplied : Bool := false
  deriving DecidableEq

inductive Entity where
  | commitment (id : Nat) (row : CommitmentRow)
  | goal (id : Nat) (row : GoalRow)
  | model (id : Nat) (row : ModelRow)

def Entity.tenantId : Entity → Nat
  | .commitment _ row => row.tenantId
  | .goal _ row => row.tenantId
  | .model _ row => row.tenantId

section

variable (db : Db)

def isContributor (commitmentId actorId : Nat) : Bool :=
  (db.commitmentContributors.get (commitmentId, actorId)).isSome

def managesOwner (tenantId actorId : Nat) (ownerId : Option Nat) : Bool :=
  ownerId.any fun owner => isInManagerChain db.actors tenantId owner actorId

def sharesGoal (actorId commitmentId : Nat) : Bool :=
  db.contributesTo.any fun mine _ =>
    isContributor db mine.1 actorId && (db.contributesTo.get (commitmentId, mine.2)).isSome

def checkCommitment (tenantId actorId commitmentId : Nat) (row : CommitmentRow) : AccessDecision :=
  if row.ownerId = some actorId then ⟨true, .commitmentOwner, false⟩
  else if isContributor db commitmentId actorId then ⟨true, .commitmentContributor, false⟩
  else if managesOwner db tenantId actorId row.ownerId then
    ⟨true, .commitmentManagerChain, false⟩
  else if sharesGoal db actorId commitmentId then ⟨true, .commitmentSharedGoal, false⟩
  else if hasEntityRole db tenantId actorId .commitment commitmentId then
    ⟨true, .commitmentRoleGrant, false⟩
  else ⟨false, .commitmentOutOfScope, false⟩

def worksOnGoal (actorId goalId : Nat) : Bool :=
  db.contributesTo.any fun edge _ =>
    edge.2 = goalId && (db.commitments.get edge.1).any fun row =>
      row.ownerId = some actorId || isContributor db edge.1 actorId

def contribOwners (goalId : Nat) : List Nat :=
  (db.contributesTo.rows.filterMap fun edge =>
    if edge.1.2 = goalId then (db.commitments.get edge.1.1).bind CommitmentRow.ownerId
    else none).dedup

def checkGoal (tenantId actorId goalId : Nat) : AccessDecision :=
  if worksOnGoal db actorId goalId then ⟨true, .goalContributingCommitment, false⟩
  else if (contribOwners db goalId).any fun owner =>
      isInManagerChain db.actors tenantId owner actorId then
    ⟨true, .goalManagerChain, false⟩
  else if hasEntityRole db tenantId actorId .goal goalId then ⟨true, .goalRoleGrant, false⟩
  else ⟨false, .goalOutOfScope, false⟩

def viaScopeEntities (views : MaterializedViews) (tenantId actorId : Nat) :
    List ScopeEntity → Option Reason
  | [] => none
  | entity :: rest =>
    match entity.id, entity.etype with
    | some id, some "commitment" =>
      if ⟨actorId, id, tenantId⟩ ∈ views.actorVisibleCommitments then
        some .modelViaCommitmentScope
      else viaScopeEntities views tenantId actorId rest
    | some id, some "goal" =>
      if ⟨actorId, id, tenantId⟩ ∈ views.actorVisibleGoals then some .modelViaGoalScope
      else viaScopeEntities views tenantId actorId rest
    | _, _ => viaScopeEntities views tenantId actorId rest

section

variable (views : MaterializedViews) (tenantId actorId : Nat)

def checkModel (row : ModelRow) : AccessDecision :=
  if row.visibleToSubjects = some true then ⟨true, .modelPublic, false⟩
  else if actorId ∈ row.scopeActors then ⟨true, .modelSelfScope, false⟩
  else match viaScopeEntities views tenantId actorId row.scopeEntities with
    | some reason => ⟨true, reason, false⟩
    | none => ⟨false, .modelOutOfScope, false⟩

def dispatch : Entity → AccessDecision
  | .commitment id row => checkCommitment db tenantId actorId id row
  | .goal id _ => checkGoal db tenantId actorId id
  | .model _ row => checkModel views tenantId actorId row

def canRead (entity : Entity) : AccessDecision :=
  if entity.tenantId ≠ tenantId then ⟨false, .tenantMismatch, false⟩
  else match db.actors.get actorId with
    | none => ⟨false, .actorNotFound, false⟩
    | some actor =>
      if actor.tenantId ≠ tenantId then ⟨false, .actorTenantMismatch, false⟩
      else if hasRole db tenantId actorId .admin then ⟨true, .adminOverride, true⟩
      else if hasRole db tenantId actorId .leadership then ⟨true, .leadershipOverride, true⟩
      else dispatch db views tenantId actorId entity

end

def loadEntity (kind : EntityKind) (entityId tenantId : Nat) : Option Entity :=
  match kind with
  | .commitment =>
    ((db.commitments.get entityId).filter fun row => row.tenantId = tenantId).map
      (.commitment entityId)
  | .goal =>
    ((db.goals.get entityId).filter fun row => row.tenantId = tenantId).map (.goal entityId)
  | .model =>
    ((db.models.get entityId).filter fun row => row.tenantId = tenantId).map (.model entityId)

def canReadById (views : MaterializedViews) (actorId : Nat) (kind : EntityKind)
    (entityId tenantId : Nat) : AccessDecision :=
  match loadEntity db kind entityId tenantId with
  | none => ⟨false, .entityNotFound, false⟩
  | some entity => canRead db views tenantId actorId entity

end

end FyralisCore.Access
