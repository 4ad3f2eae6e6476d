import FyralisCore.Access.Checks

/-! The materialized views (`0014_access_control.sql`) and their refresh
(`materialized.py`). -/
namespace FyralisCore.Access

open Relational List

def ActorRow.isActive (row : ActorRow) : Bool :=
  row.status = some .active

/-! ### WITH RECURSIVE manager_chain -/

structure ChainRow where
  startActor : Nat
  tenantId : Nat
  currentActor : Nat
  nextManager : Option Nat
  depth : Nat
  deriving DecidableEq

def ActorRow.chainRow (start depth : Nat) (current : Nat) (row : ActorRow) : ChainRow :=
  { startActor := start
    tenantId := row.tenantId
    currentActor := current
    nextManager := row.managerId
    depth }

section

variable (actors : Table Nat ActorRow)

def chainBase : List ChainRow :=
  (actors.rows.filter fun a => a.2.isActive).map fun a => a.2.chainRow a.1 0 a.1

/-- `JOIN actors a ON a.id = mc.next_manager AND a.tenant_id = mc.tenant_id` -/
def ChainRow.climb (mc : ChainRow) : Option ChainRow :=
  mc.nextManager.bind fun manager =>
    ((actors.get manager).filter fun a => a.tenantId = mc.tenantId && mc.depth < 32).map
      (ActorRow.chainRow mc.startActor (mc.depth + 1) manager)

def chainStep (working : List ChainRow) : List ChainRow :=
  working.filterMap (ChainRow.climb actors)

def managerChain : List ChainRow :=
  recursiveUnionAll (chainStep actors) 33 (chainBase actors)

end

section

variable (db : Db)

def isPrivileged (tenantId actorId : Nat) : Bool :=
  db.actorRoles.any fun grant =>
    grant.tenantId = tenantId && grant.actorId = actorId && grant.entityType = .tenant &&
      (grant.role = .admin || grant.role = .leadership) && grant.revokedAt.isNone

def inOwnersChain (viewerId : Nat) (ownerId : Option Nat) : Bool :=
  (managerChain db.actors).any fun mc =>
    ownerId = some mc.startActor && mc.currentActor = viewerId && 0 < mc.depth

def visibleWhere {Row : Type} (table : Table Nat Row) (tenantOf : Row → Nat)
    (condition : Nat → ActorRow → Nat → Row → Bool) : List VisibleRow :=
  db.actors.rows.flatMap fun a =>
    (table.rows.filter fun e =>
      tenantOf e.2 = a.2.tenantId && a.2.isActive && condition a.1 a.2 e.1 e.2).map fun e =>
        ⟨a.1, e.1, tenantOf e.2⟩

def actorVisibleCommitments : List VisibleRow :=
  (visibleWhere db db.commitments CommitmentRow.tenantId fun actorId actor commitmentId row =>
    row.ownerId = some actorId || isContributor db commitmentId actorId ||
      inOwnersChain db actorId row.ownerId || isPrivileged db actor.tenantId actorId ||
      hasEntityRole db actor.tenantId actorId .commitment commitmentId).dedup

def goalsOfVisible (visibleCommitments : List VisibleRow) : List VisibleRow :=
  visibleCommitments.flatMap fun avc =>
    db.contributesTo.rows.filterMap fun edge =>
      if edge.1.1 = avc.entityId then
        ((db.goals.get edge.1.2).filter fun goal => goal.tenantId = avc.tenantId).map fun goal =>
          ⟨avc.actorId, edge.1.2, goal.tenantId⟩
      else none

/-- `FROM actor_roles ar JOIN goals g`: no row of `actors` is read here. -/
def goalsByGrant : List VisibleRow :=
  db.actorRoles.filterMap fun ar =>
    if ar.entityType = .goal && ar.role.isEntityRole && ar.revokedAt.isNone then
      ar.entityId.bind fun goalId =>
        ((db.goals.get goalId).filter fun goal => goal.tenantId = ar.tenantId).map fun goal =>
          ⟨ar.actorId, goalId, goal.tenantId⟩
    else none

def actorVisibleGoals (visibleCommitments : List VisibleRow) : List VisibleRow :=
  (goalsOfVisible db visibleCommitments ++
    visibleWhere db db.goals GoalRow.tenantId (fun actorId actor _ _ =>
      isPrivileged db actor.tenantId actorId) ++
    goalsByGrant db).dedup

def actorVisibleModels : List VisibleRow :=
  (visibleWhere db db.models ModelRow.tenantId (fun _ _ _ row =>
      row.visibleToSubjects = some true && row.status = .active) ++
    visibleWhere db db.models ModelRow.tenantId (fun actorId _ _ row =>
      row.status = .active && actorId ∈ row.scopeActors) ++
    visibleWhere db db.models ModelRow.tenantId (fun actorId actor _ row =>
      isPrivileged db actor.tenantId actorId && row.status = .active)).dedup

/-- `refresh_all` on one content: the goal view reads the commitment view that
has just been refreshed. -/
def refreshAll : MaterializedViews where
  actorVisibleCommitments := actorVisibleCommitments db
  actorVisibleGoals := actorVisibleGoals db (actorVisibleCommitments db)
  actorVisibleModels := actorVisibleModels db

end

section

variable {actors : Table Nat ActorRow}

theorem mem_chainBase_iff :
    row ∈ chainBase actors ↔ ∃ id actor, actors.get id = some actor ∧ actor.isActive ∧
      row = actor.chainRow id 0 id := by
  unfold chainBase
  simp only [mem_map, mem_filter, Prod.exists, Table.mem_rows_iff]
  constructor
  · rintro ⟨id, actor, ⟨hg, ha⟩, rfl⟩
    exact ⟨id, actor, hg, ha, rfl⟩
  · rintro ⟨id, actor, hg, ha, rfl⟩
    exact ⟨id, actor, ⟨hg, ha⟩, rfl⟩

theorem mem_chainRound_iff (round : Nat) (row : ChainRow) :
    row ∈ (chainStep actors)^[round] (chainBase actors) ↔
      round ≤ 32 ∧ ∃ start current, actors.get row.startActor = some start ∧
        start.isActive ∧ actors.get row.currentActor = some current ∧
        current.tenantId = start.tenantId ∧
        row = current.chainRow row.startActor round row.currentActor ∧
        ascend (managerOf actors start.tenantId) round row.startActor = some row.currentActor := by
  induction round generalizing row with
  | zero =>
    rw [Function.iterate_zero, id, mem_chainBase_iff]
    constructor
    · rintro ⟨id, actor, hg, hac, rfl⟩
      exact ⟨by omega, actor, actor, hg, hac, hg, rfl, rfl, rfl⟩
    · rintro ⟨-, start, current, hs0, hac, hcr, -, hr, hs⟩
      have hsf : row.startActor = row.currentActor := Option.some.inj hs
      rw [← hsf, hs0] at hcr
      cases hcr
      exact ⟨row.startActor, start, hs0, hac, by rw [← hsf] at hr; exact hr⟩
  | succ round ih =>
    rw [Function.iterate_succ_apply', chainStep, mem_filterMap]
    constructor
    · rintro ⟨mc, hmc, hc⟩
      obtain ⟨hrn, start, current, hs0, hac, hcr, ht, hr, ha⟩ := (ih mc).mp hmc
      simp only [ChainRow.climb, Option.bind_eq_some_iff, Option.map_eq_some_iff,
        Option.filter_eq_some_iff, Bool.and_eq_true, decide_eq_true_eq] at hc
      obtain ⟨manager, hm, actor, ⟨hg, hs, hd⟩, rfl⟩ := hc
      have hdp : mc.depth = round := by rw [hr]; rfl
      have hn : current.managerId = some manager := by rw [hr] at hm; exact hm
      have htn : mc.tenantId = start.tenantId := by rw [hr]; exact ht
      refine ⟨by omega, start, actor, hs0, hac, hg, hs.trans htn, ?_, ?_⟩
      · rw [hdp]
        rfl
      · rw [ascend_succ']
        exact Option.bind_eq_some_iff.mpr ⟨_, ha, managerOf_eq_some_iff.mpr ⟨current, hcr, ht, hn⟩⟩
    · rintro ⟨hrn, start, actor, hs0, hac, hg, ht, hr, ha⟩
      rw [ascend_succ'] at ha
      obtain ⟨m, hmd, hm⟩ := Option.bind_eq_some_iff.mp ha
      obtain ⟨current, hcr, hs, hn⟩ := managerOf_eq_some_iff.mp hm
      refine ⟨current.chainRow row.startActor round m, (ih _).mpr ?_, ?_⟩
      · exact ⟨by omega, start, current, hs0, hac, hcr, hs, rfl, hmd⟩
      · have hd : round < 32 := by omega
        rw [hr]
        simp [ChainRow.climb, ActorRow.chainRow, hn, hg, ht, hs, hd, Option.filter]

/-- The recursive query finds the ancestors of active actors, and only those
that are actors of the same tenant. -/
theorem inOwnersChain_iff : inOwnersChain db viewerId ownerId ↔
      ∃ owner start, ownerId = some owner ∧ db.actors.get owner = some start ∧ start.isActive ∧
        (∃ viewer, db.actors.get viewerId = some viewer ∧ viewer.tenantId = start.tenantId) ∧
        ∃ steps, 0 < steps ∧ steps ≤ maxDepth ∧
          ascend (managerOf db.actors start.tenantId) steps owner = some viewerId := by
  simp only [inOwnersChain, managerChain, any_eq_true, mem_recursiveUnionAll_iff,
    mem_chainRound_iff, Bool.and_eq_true, decide_eq_true_eq]
  constructor
  · rintro ⟨mc, ⟨round, hrn, -, start, current, hs0, hac, hc, ht, hr, ha⟩, ⟨ho, rfl⟩, hdp⟩
    have hd : mc.depth = round := by rw [hr]; rfl
    exact ⟨mc.startActor, start, ho, hs0, hac, ⟨current, hc, ht⟩, round,
      by omega, by unfold maxDepth; omega, ha⟩
  · rintro ⟨owner, start, rfl, hs0, hac, ⟨viewer, hv, ht⟩, steps, hp, hs, ha⟩
    unfold maxDepth at hs
    exact ⟨viewer.chainRow owner steps viewerId,
      ⟨steps, by omega, by omega, start, viewer, hs0, hac, hv, ht, rfl, ha⟩,
      ⟨rfl, rfl⟩, hp⟩

end

section

variable {db : Db}

theorem isPrivileged_iff : isPrivileged db tenantId actorId ↔
      hasRole db tenantId actorId .admin ∨ hasRole db tenantId actorId .leadership := by
  simp only [isPrivileged, hasRole, any_eq_true, Bool.and_eq_true, Bool.or_eq_true,
    decide_eq_true_eq]
  constructor
  · rintro ⟨grant, hm, ⟨hs, ha | hl⟩, hu⟩
    · exact .inl ⟨grant, hm, ⟨hs, ha⟩, hu⟩
    · exact .inr ⟨grant, hm, ⟨hs, hl⟩, hu⟩
  · rintro (⟨grant, hm, ⟨hs, hr⟩, hu⟩ | ⟨grant, hm, ⟨hs, hr⟩, hu⟩)
    · exact ⟨grant, hm, ⟨hs, .inl hr⟩, hu⟩
    · exact ⟨grant, hm, ⟨hs, .inr hr⟩, hu⟩

variable {seen : VisibleRow}

theorem mem_visibleWhere_iff : seen ∈ visibleWhere db table tenantOf condition ↔
      ∃ actor row, db.actors.get seen.actorId = some actor ∧ table.get seen.entityId = some row ∧
        actor.tenantId = seen.tenantId ∧ tenantOf row = seen.tenantId ∧
        actor.isActive ∧ condition seen.actorId actor seen.entityId row := by
  simp only [visibleWhere, mem_flatMap, mem_map, mem_filter, Prod.exists,
    Table.mem_rows_iff, Bool.and_eq_true, decide_eq_true_eq]
  constructor
  · rintro ⟨actorId, actor, ha, entityId, row, ⟨hr, ⟨ht, hact⟩, hc⟩, rfl⟩
    exact ⟨actor, row, ha, hr, ht.symm, rfl, hact, hc⟩
  · rintro ⟨actor, row, ha, hr, hac, hrw, hact, hc⟩
    refine ⟨_, actor, ha, _, row, ⟨hr, ⟨?_, hact⟩, hc⟩, ?_⟩
    · rw [hrw, hac]
    · rw [hrw]

theorem mem_goalsOfVisible_iff : seen ∈ goalsOfVisible db visible ↔
      (∃ goal, db.goals.get seen.entityId = some goal ∧ goal.tenantId = seen.tenantId) ∧
        ∃ commitmentId, ⟨seen.actorId, commitmentId, seen.tenantId⟩ ∈ visible ∧
          (db.contributesTo.get (commitmentId, seen.entityId)).isSome := by
  simp only [goalsOfVisible, mem_flatMap, mem_filterMap, Prod.exists,
    Table.mem_rows_iff, Option.ite_none_right_eq_some, Option.map_eq_some_iff,
    Option.filter_eq_some_iff, decide_eq_true_eq, Option.isSome_iff_exists]
  constructor
  · rintro ⟨avc, ha, commitmentId, goalId, edge, he, rfl, goal, ⟨hg, ht⟩, rfl⟩
    exact ⟨⟨goal, hg, rfl⟩, avc.entityId, by rw [ht]; exact ha, edge, he⟩
  · rintro ⟨⟨goal, hg, ht⟩, commitmentId, ha, edge, he⟩
    exact ⟨_, ha, commitmentId, seen.entityId, edge, he, rfl, goal, ⟨hg, ht⟩, by
      rw [ht]⟩

theorem mem_goalsByGrant_iff : seen ∈ goalsByGrant db ↔
      (∃ goal, db.goals.get seen.entityId = some goal ∧ goal.tenantId = seen.tenantId) ∧
        hasEntityRole db seen.tenantId seen.actorId .goal seen.entityId := by
  simp only [goalsByGrant, hasEntityRole, mem_filterMap, Option.ite_none_right_eq_some,
    Option.bind_eq_some_iff, Option.map_eq_some_iff, Option.filter_eq_some_iff, any_eq_true,
    Bool.and_eq_true, decide_eq_true_eq]
  constructor
  · rintro ⟨grant, hm, ⟨⟨hty, hr⟩, hu⟩, goalId, he, goal, ⟨hg, ht⟩, rfl⟩
    exact ⟨⟨goal, hg, rfl⟩, grant, hm, ⟨⟨⟨⟨ht.symm, rfl⟩, hty⟩, he⟩, hr⟩, hu⟩
  · rintro ⟨⟨goal, hg, ht⟩, grant, hm, ⟨⟨⟨⟨hs, ha⟩, hty⟩, he⟩, hr⟩, hu⟩
    refine ⟨grant, hm, ⟨⟨hty, hr⟩, hu⟩, _, he, goal, ⟨hg, ?_⟩, ?_⟩
    · rw [ht, hs]
    · rw [ha, ht]

end

end FyralisCore.Access
