import FyralisCore.Access.Views

/-! The policy is written twice, as rules of the live check and as SQL of the
materialized views. The views leave the rules of the check where a chain starts
at an inactive owner, where an edge or a grant crosses tenants, where a model is
not active, and where a grant on a commitment is passed on to its goals. -/
namespace FyralisCore.Access

open Relational

def Reason.isMaterialized : Reason → Bool
  | .adminOverride | .leadershipOverride => true
  | .commitmentOwner | .commitmentContributor | .commitmentManagerChain => true
  | .commitmentRoleGrant => true
  | .goalContributingCommitment | .goalManagerChain | .goalRoleGrant => true
  | _ => false

def AccessDecision.Grants (decision : AccessDecision) : Prop :=
  decision.allowed ∧ decision.reason.isMaterialized

instance (decision : AccessDecision) : Decidable decision.Grants :=
  inferInstanceAs (Decidable (_ ∧ _))

def IsActor (db : Db) (tenantId actorId : Nat) : Prop :=
  ∃ actor, db.actors.get actorId = some actor ∧ actor.tenantId = tenantId

def IsActive (db : Db) (tenantId actorId : Nat) : Prop :=
  ∃ actor, db.actors.get actorId = some actor ∧ actor.tenantId = tenantId ∧
    actor.isActive

theorem IsActive.isActor (ha : IsActive db tenantId actorId) : IsActor db tenantId actorId := by
  obtain ⟨actor, hg, ht, -⟩ := ha
  exact ⟨actor, hg, ht⟩

def OwnerActive (db : Db) (row : CommitmentRow) : Prop :=
  ∃ owner actor, row.ownerId = some owner ∧ db.actors.get owner = some actor ∧
    actor.isActive

def NoOverGrant (db : Db) : Prop :=
  ∀ kind, ∀ row ∈ (refreshAll db).rows kind,
    (canReadById db (refreshAll db) row.actorId kind row.entityId row.tenantId).allowed

/-- What the check allows an active actor through a materialized rule is a row. -/
def NoUnderGrant (db : Db) : Prop :=
  ∀ kind tenantId actorId entityId, IsActive db tenantId actorId →
    (canReadById db (refreshAll db) actorId kind entityId tenantId).Grants →
    ⟨actorId, entityId, tenantId⟩ ∈ (refreshAll db).rows kind

section

variable {db : Db} {views : MaterializedViews} {tenantId actorId entityId : Nat}

/-- What a property of decisions says of `canRead`, when denials fail it and the
overrides have it. -/
theorem canReadById_iff {P : AccessDecision → Prop}
    (hd : ∀ reason, ¬ P ⟨false, reason, false⟩) (ha : P ⟨true, .adminOverride, true⟩)
    (hl : P ⟨true, .leadershipOverride, true⟩) (kind : EntityKind) :
    P (canReadById db views actorId kind entityId tenantId) ↔
      ∃ entity, loadEntity db kind entityId tenantId = some entity ∧ IsActor db tenantId actorId ∧
        (isPrivileged db tenantId actorId ∨ P (dispatch db views tenantId actorId entity)) := by
  unfold canReadById
  cases hlo : loadEntity db kind entityId tenantId with
  | none => simp [hd]
  | some entity =>
    have ht : entity.tenantId = tenantId := by
      cases kind <;>
        simp only [loadEntity, Option.map_eq_some_iff, Option.filter_eq_some_iff,
          decide_eq_true_eq] at hlo <;>
        obtain ⟨row, ⟨-, ht⟩, rfl⟩ := hlo <;> exact ht
    simp only [Option.some.injEq, exists_eq_left', canRead, ht, ne_eq, not_true_eq_false,
      ↓reduceIte, IsActor, isPrivileged_iff]
    cases hac : db.actors.get actorId with
    | none => simp [hd]
    | some actor =>
      by_cases hs : actor.tenantId = tenantId
      · simp only [hs, not_true_eq_false, ↓reduceIte]
        split
        · next hr => simp [ha, hr, hs]
        · next hr =>
          split
          · next hld => simp [hl, hld, hs]
          · next hld => simp [hr, hld, hs]
      · simp [hs, hd]

theorem checkCommitment_allowed_iff : (checkCommitment db tenantId actorId entityId row).allowed ↔
      row.ownerId = some actorId ∨ isContributor db entityId actorId ∨
        managesOwner db tenantId actorId row.ownerId ∨
        sharesGoal db actorId entityId ∨
        hasEntityRole db tenantId actorId .commitment entityId := by
  unfold checkCommitment
  grind

theorem checkCommitment_grants_iff : (checkCommitment db tenantId actorId entityId row).Grants ↔
      row.ownerId = some actorId ∨ isContributor db entityId actorId ∨
        managesOwner db tenantId actorId row.ownerId ∨
        sharesGoal db actorId entityId = false ∧
          hasEntityRole db tenantId actorId .commitment entityId := by
  unfold checkCommitment AccessDecision.Grants
  grind [Reason.isMaterialized]

/-- The rules of a goal, apart from grants: the actor works on one of its
commitments or is above an owner of one. -/
def ReachesGoal (db : Db) (tenantId actorId goalId : Nat) : Prop :=
  worksOnGoal db actorId goalId ∨
    ∃ owner ∈ contribOwners db goalId, isInManagerChain db.actors tenantId owner actorId

theorem checkGoal_allowed_iff : (checkGoal db tenantId actorId entityId).allowed ↔
      ReachesGoal db tenantId actorId entityId ∨
        hasEntityRole db tenantId actorId .goal entityId := by
  unfold checkGoal ReachesGoal
  grind

theorem checkGoal_grants_iff : (checkGoal db tenantId actorId entityId).Grants ↔
      (checkGoal db tenantId actorId entityId).allowed := by
  unfold checkGoal AccessDecision.Grants
  grind [Reason.isMaterialized]

theorem viaScopeEntities_cases
    (hv : viaScopeEntities views tenantId actorId entities = some reason) :
    reason = .modelViaCommitmentScope ∨ reason = .modelViaGoalScope := by
  induction entities with
  | nil => simp [viaScopeEntities] at hv
  | cons entity rest ih =>
    rw [viaScopeEntities] at hv
    split at hv <;> first | exact ih hv | (split at hv <;> grind)

theorem checkModel_allowed_of (hr : row.visibleToSubjects = some true ∨ actorId ∈ row.scopeActors) :
    (checkModel views tenantId actorId row).allowed := by
  unfold checkModel
  grind

theorem not_checkModel_grants : ¬ (checkModel views tenantId actorId row).Grants := by
  unfold checkModel AccessDecision.Grants
  split
  · simp [Reason.isMaterialized]
  · split
    · simp [Reason.isMaterialized]
    · split
      · next reason hv =>
        rcases viaScopeEntities_cases hv with rfl | rfl <;> simp [Reason.isMaterialized]
      · simp

end

section

variable {db : Db} {tenantId actorId entityId : Nat}

theorem managesOwner_of_inOwnersChain (hac : IsActor db tenantId actorId)
    (hc : inOwnersChain db actorId ownerId) :
    ownerId = some actorId ∨ managesOwner db tenantId actorId ownerId := by
  obtain ⟨owner, start, rfl, -, -, ⟨viewer, hv, hs⟩, steps, hp, hst, ha⟩ :=
    inOwnersChain_iff.mp hc
  obtain ⟨actor, hg, ht⟩ := hac
  rw [hg] at hv
  cases hv
  by_cases hsf : actorId = owner
  · exact .inl (by rw [hsf])
  · right
    rw [← hs, ht] at ha
    exact (isInManagerChain_iff _ _ _ _).mpr ⟨hsf, steps, hp, hst, ha⟩

theorem inOwnersChain_of_managesOwner (ha : IsActor db tenantId actorId)
    (hm : managesOwner db tenantId actorId row.ownerId)
    (how : OwnerActive db row) : inOwnersChain db actorId row.ownerId := by
  obtain ⟨owner, start, hi, hs0, hac⟩ := how
  rw [hi] at hm ⊢
  obtain ⟨origin, ho, ht⟩ := tenant_of_isInManagerChain hm
  rw [hs0] at ho
  cases ho
  obtain ⟨-, steps, hp, hst, hasc⟩ := (isInManagerChain_iff _ _ _ _).mp hm
  obtain ⟨actor, hg, hs⟩ := ha
  exact inOwnersChain_iff.mpr ⟨owner, start, rfl, hs0, hac,
    ⟨actor, hg, hs.trans ht.symm⟩, steps, hp, hst, ht ▸ hasc⟩

def SeesCommitment (db : Db) (tenantId actorId commitmentId : Nat) (row : CommitmentRow) : Prop :=
  row.ownerId = some actorId ∨ isContributor db commitmentId actorId ∨
    inOwnersChain db actorId row.ownerId ∨ isPrivileged db tenantId actorId ∨
    hasEntityRole db tenantId actorId .commitment commitmentId

theorem mem_actorVisibleCommitments_iff :
    ⟨actorId, entityId, tenantId⟩ ∈ actorVisibleCommitments db ↔
      IsActive db tenantId actorId ∧ ∃ row, db.commitments.get entityId = some row ∧
        row.tenantId = tenantId ∧ SeesCommitment db tenantId actorId entityId row := by
  rw [actorVisibleCommitments, List.mem_dedup, mem_visibleWhere_iff]
  simp only [SeesCommitment, IsActive, Bool.or_eq_true, decide_eq_true_eq, or_assoc]
  constructor
  · rintro ⟨actor, row, ha, hr, hs, ht, hac, hrl⟩
    exact ⟨⟨actor, ha, hs, hac⟩, row, hr, ht, by rw [hs] at hrl; exact hrl⟩
  · rintro ⟨⟨actor, ha, hs, hac⟩, row, hr, ht, hrl⟩
    exact ⟨actor, row, ha, hr, hs, ht, hac, by rw [hs]; exact hrl⟩

def SeesCommitmentOf (db : Db) (tenantId actorId goalId : Nat) : Prop :=
  ∃ commitmentId row, (db.contributesTo.get (commitmentId, goalId)).isSome ∧
    db.commitments.get commitmentId = some row ∧ row.tenantId = tenantId ∧
    SeesCommitment db tenantId actorId commitmentId row

theorem mem_actorVisibleGoals_iff :
    ⟨actorId, entityId, tenantId⟩ ∈ actorVisibleGoals db (actorVisibleCommitments db) ↔
      (∃ goal, db.goals.get entityId = some goal ∧ goal.tenantId = tenantId) ∧
        (IsActive db tenantId actorId ∧ (SeesCommitmentOf db tenantId actorId entityId ∨
              isPrivileged db tenantId actorId) ∨
          hasEntityRole db tenantId actorId .goal entityId) := by
  simp only [actorVisibleGoals, List.mem_dedup, List.mem_append, mem_visibleWhere_iff,
    mem_goalsOfVisible_iff, mem_goalsByGrant_iff, mem_actorVisibleCommitments_iff]
  constructor
  · rintro ((⟨hgl, commitmentId, ⟨hac, row, hr, ht, hse⟩, he⟩ |
      ⟨actor, goal, ha, hgl, hs, ht, hac, hp⟩) | ⟨hgl, hro⟩)
    · exact ⟨hgl, .inl ⟨hac, .inl ⟨commitmentId, row, he, hr, ht, hse⟩⟩⟩
    · rw [hs] at hp
      exact ⟨⟨goal, hgl, ht⟩, .inl ⟨⟨actor, ha, hs, hac⟩, .inr hp⟩⟩
    · exact ⟨hgl, .inr hro⟩
  · rintro ⟨hgl, ⟨hac, ⟨commitmentId, row, he, hr, ht, hse⟩ | hp⟩ | hro⟩
    · exact .inl (.inl ⟨hgl, commitmentId, ⟨hac, row, hr, ht, hse⟩, he⟩)
    · obtain ⟨goal, hg, ht⟩ := hgl
      obtain ⟨actor, ha, hs, hac⟩ := hac
      exact .inl (.inr ⟨actor, goal, ha, hg, hs, ht, hac, by rw [hs]; exact hp⟩)
    · exact .inr ⟨hgl, hro⟩

theorem mem_actorVisibleModels_iff : ⟨actorId, entityId, tenantId⟩ ∈ actorVisibleModels db ↔
      IsActive db tenantId actorId ∧ ∃ row, db.models.get entityId = some row ∧
        row.tenantId = tenantId ∧ row.status = .active ∧
        (row.visibleToSubjects = some true ∨ actorId ∈ row.scopeActors ∨
          isPrivileged db tenantId actorId) := by
  simp only [actorVisibleModels, List.mem_dedup, List.mem_append, mem_visibleWhere_iff, IsActive,
    Bool.and_eq_true, decide_eq_true_eq]
  constructor
  · rintro ((⟨actor, row, ha, hr, hs, ht, hac, hpb, hst⟩ |
      ⟨actor, row, ha, hr, hs, ht, hac, hst, hsc⟩) |
      ⟨actor, row, ha, hr, hs, ht, hac, hp, hst⟩)
    · exact ⟨⟨actor, ha, hs, hac⟩, row, hr, ht, hst, .inl hpb⟩
    · exact ⟨⟨actor, ha, hs, hac⟩, row, hr, ht, hst, .inr (.inl hsc)⟩
    · rw [hs] at hp
      exact ⟨⟨actor, ha, hs, hac⟩, row, hr, ht, hst, .inr (.inr hp)⟩
  · rintro ⟨⟨actor, ha, hs, hac⟩, row, hr, ht, hst, hpb | hsc | hp⟩
    · exact .inl (.inl ⟨actor, row, ha, hr, hs, ht, hac, hpb, hst⟩)
    · exact .inl (.inr ⟨actor, row, ha, hr, hs, ht, hac, hst, hsc⟩)
    · rw [← hs] at hp
      exact .inr ⟨actor, row, ha, hr, hs, ht, hac, hp, hst⟩

end

/-- What a content must not have, or must make up for otherwise, for views and
check to agree. -/
structure Aligned (db : Db) : Prop where
  /-- An active actor above an inactive owner is given the commitment otherwise. -/
  ownerChains : ∀ tenantId actorId commitmentId row, IsActive db tenantId actorId →
    db.commitments.get commitmentId = some row → row.tenantId = tenantId →
    managesOwner db tenantId actorId row.ownerId →
    OwnerActive db row ∨ isContributor db commitmentId actorId ∨ isPrivileged db tenantId actorId ∨
      hasEntityRole db tenantId actorId .commitment commitmentId
  /-- Who is granted a commitment may read the goals it contributes to. -/
  commitmentGrants : ∀ tenantId actorId commitmentId row goalId goal,
    IsActive db tenantId actorId →
    db.commitments.get commitmentId = some row → row.tenantId = tenantId →
    db.goals.get goalId = some goal → goal.tenantId = tenantId →
    (db.contributesTo.get (commitmentId, goalId)).isSome →
    hasEntityRole db tenantId actorId .commitment commitmentId →
    ReachesGoal db tenantId actorId goalId ∨ isPrivileged db tenantId actorId ∨
      hasEntityRole db tenantId actorId .goal goalId
  /-- Goals are granted to actors of their tenant. -/
  goalGrantees : ∀ tenantId actorId goalId goal, db.goals.get goalId = some goal →
    goal.tenantId = tenantId → hasEntityRole db tenantId actorId .goal goalId →
    IsActor db tenantId actorId
  /-- Who reaches a goal does so through a commitment of its tenant that the
  commitment view shows, or is given the goal otherwise. -/
  goalReach : ∀ tenantId actorId goalId goal, IsActive db tenantId actorId →
    db.goals.get goalId = some goal → goal.tenantId = tenantId →
    ReachesGoal db tenantId actorId goalId →
    SeesCommitmentOf db tenantId actorId goalId ∨ isPrivileged db tenantId actorId ∨
      hasEntityRole db tenantId actorId .goal goalId
  /-- Where somebody active is an admin or in the leadership, all models are active. -/
  modelStatus : ∀ tenantId actorId modelId row, IsActive db tenantId actorId →
    isPrivileged db tenantId actorId → db.models.get modelId = some row →
    row.tenantId = tenantId → row.status = .active

section Agreement

variable {db : Db} {views : MaterializedViews} {tenantId actorId entityId : Nat}

private theorem allowed_iff (kind : EntityKind) :
    (canReadById db views actorId kind entityId tenantId).allowed ↔
      ∃ entity, loadEntity db kind entityId tenantId = some entity ∧
        IsActor db tenantId actorId ∧ (isPrivileged db tenantId actorId ∨
          (dispatch db views tenantId actorId entity).allowed) :=
  canReadById_iff (P := fun decision => decision.allowed) (by simp) rfl rfl kind

variable (views) in
private theorem grants_iff (kind : EntityKind) :
    (canReadById db views actorId kind entityId tenantId).Grants ↔
      ∃ entity, loadEntity db kind entityId tenantId = some entity ∧
        IsActor db tenantId actorId ∧ (isPrivileged db tenantId actorId ∨
          (dispatch db views tenantId actorId entity).Grants) :=
  canReadById_iff (P := AccessDecision.Grants) (by simp [AccessDecision.Grants])
    ⟨rfl, rfl⟩ ⟨rfl, rfl⟩ kind

variable {row : CommitmentRow} {entity : Entity}

section

variable {α : Type} {entityOf : α → Entity} {tenantOf : α → Nat} {found : Option α}

private theorem load (hf : found = some loaded) (ht : tenantOf loaded = tenantId) :
    (found.filter fun row => tenantOf row = tenantId).map entityOf = some (entityOf loaded) := by
  simp [hf, ht, Option.filter]

private theorem of_load
    (hl : (found.filter fun row => tenantOf row = tenantId).map entityOf = some entity) :
    ∃ row, found = some row ∧ tenantOf row = tenantId ∧ entity = entityOf row := by
  obtain ⟨row, hf, rfl⟩ := Option.map_eq_some_iff.mp hl
  obtain ⟨hr, ht⟩ := Option.filter_eq_some_iff.mp hf
  exact ⟨row, hr, of_decide_eq_true ht, rfl⟩

end

theorem commitment_rows_allowed {row : VisibleRow} (hr : row ∈ actorVisibleCommitments db) :
    (canReadById db views row.actorId .commitment row.entityId row.tenantId).allowed := by
  obtain ⟨ha, commitment, hg, ht, hs⟩ := mem_actorVisibleCommitments_iff.mp hr
  refine (allowed_iff .commitment).mpr ⟨_, load hg ht, ha.isActor, ?_⟩
  simp only [dispatch, checkCommitment_allowed_iff]
  rcases hs with ho | hcb | hc | hp | hro
  · exact .inr (.inl ho)
  · exact .inr (.inr (.inl hcb))
  · rcases managesOwner_of_inOwnersChain ha.isActor hc with ho | hm
    · exact .inr (.inl ho)
    · exact .inr (.inr (.inr (.inl hm)))
  · exact .inl hp
  · exact .inr (.inr (.inr (.inr (.inr hro))))

theorem model_rows_allowed {row : VisibleRow} (hr : row ∈ actorVisibleModels db) :
    (canReadById db views row.actorId .model row.entityId row.tenantId).allowed := by
  obtain ⟨ha, model, hg, ht, -, hse⟩ := mem_actorVisibleModels_iff.mp hr
  refine (allowed_iff .model).mpr ⟨_, load hg ht, ha.isActor, ?_⟩
  rcases hse with hp | hs | hpr
  · exact .inr (checkModel_allowed_of (.inl hp))
  · exact .inr (checkModel_allowed_of (.inr hs))
  · exact .inl hpr

/-- A commitment of the goal that is visible without a grant on it makes the
goal readable. -/
theorem reachesGoal_of_seesCommitment (ha : IsActor db tenantId actorId)
    (he : (db.contributesTo.get (commitmentId, goalId)).isSome)
    (hg : db.commitments.get commitmentId = some row)
    (hse : SeesCommitment db tenantId actorId commitmentId row) :
    ReachesGoal db tenantId actorId goalId ∨ isPrivileged db tenantId actorId ∨
      hasEntityRole db tenantId actorId .commitment commitmentId := by
  have hw : row.ownerId = some actorId ∨ isContributor db commitmentId actorId →
      worksOnGoal db actorId goalId := by
    intro hr
    obtain ⟨edge, hs⟩ := Option.isSome_iff_exists.mp he
    exact (Table.any_iff _ _).mpr ⟨_, edge, hs, by simpa [hg] using hr⟩
  rcases hse with ho | hcb | hc | hp | hro
  · exact .inl (.inl (hw (.inl ho)))
  · exact .inl (.inl (hw (.inr hcb)))
  · rcases managesOwner_of_inOwnersChain ha hc with ho | hm
    · exact .inl (.inl (hw (.inl ho)))
    · obtain ⟨owner, ho, hmn⟩ := (Option.any_eq_true _ _).mp hm
      refine .inl (.inr ⟨owner, ?_, hmn⟩)
      obtain ⟨edge, hs⟩ := Option.isSome_iff_exists.mp he
      rw [contribOwners, List.mem_dedup, List.mem_filterMap]
      exact ⟨((commitmentId, goalId), edge), (Table.mem_rows_iff _ _ _).mpr hs, by
        simp [hg, ho]⟩
  · exact .inr (.inl hp)
  · exact .inr (.inr hro)

theorem noOverGrant_of_aligned (hal : Aligned db) : NoOverGrant db := by
  intro kind row hm
  cases kind with
  | commitment => exact commitment_rows_allowed hm
  | model => exact model_rows_allowed hm
  | goal =>
    obtain ⟨⟨goal, hg, ht⟩, hrl⟩ := mem_actorVisibleGoals_iff.mp hm
    have ha : IsActor db row.tenantId row.actorId := by
      rcases hrl with ⟨hac, -⟩ | hro
      · exact hac.isActor
      · exact hal.goalGrantees _ _ _ _ hg ht hro
    refine (allowed_iff .goal).mpr ⟨_, load hg ht, ha, ?_⟩
    simp only [dispatch, checkGoal_allowed_iff]
    rcases hrl with ⟨hac, ⟨commitmentId, commitment, he, hc, hs, hse⟩ | hp⟩ | hro
    · rcases reachesGoal_of_seesCommitment ha he hc hse with
        hrc | hp | hgr
      · exact .inr (.inl hrc)
      · exact .inl hp
      · rcases hal.commitmentGrants _ _ _ _ _ _ hac hc hs hg ht he hgr with
          hrc | hp | hro
        · exact .inr (.inl hrc)
        · exact .inl hp
        · exact .inr (.inr hro)
    · exact .inl hp
    · exact .inr (.inr hro)

theorem ownerActive_of_inOwnersChain
    (hc : inOwnersChain db actorId row.ownerId) : OwnerActive db row := by
  obtain ⟨owner, start, hi, hs, ha, -⟩ := inOwnersChain_iff.mp hc
  exact ⟨owner, start, hi, hs, ha⟩

theorem ne_owner_of_managesOwner
    (hm : managesOwner db tenantId actorId ownerId) : ownerId ≠ some actorId := by
  rintro rfl
  exact ((isInManagerChain_iff _ _ _ _).mp hm).1 rfl

theorem noUnderGrant_of_aligned (hal : Aligned db) : NoUnderGrant db := by
  intro kind tenantId actorId entityId hac hgr
  obtain ⟨entity, hl, ha, hr⟩ := (grants_iff _ kind).mp hgr
  cases kind with
  | commitment =>
    obtain ⟨row, hg, ht, rfl⟩ := of_load hl
    refine mem_actorVisibleCommitments_iff.mpr ⟨hac, row, hg, ht, ?_⟩
    simp only [dispatch, checkCommitment_grants_iff] at hr
    rcases hr with hp | ho | hcb | hm | ⟨-, hro⟩
    · exact .inr (.inr (.inr (.inl hp)))
    · exact .inl ho
    · exact .inr (.inl hcb)
    · rcases hal.ownerChains _ _ _ _ hac hg ht hm with
        ho | hcb | hp | hro
      · exact .inr (.inr (.inl (inOwnersChain_of_managesOwner ha hm ho)))
      · exact .inr (.inl hcb)
      · exact .inr (.inr (.inr (.inl hp)))
      · exact .inr (.inr (.inr (.inr hro)))
    · exact .inr (.inr (.inr (.inr hro)))
  | goal =>
    obtain ⟨goal, hg, ht, rfl⟩ := of_load hl
    refine mem_actorVisibleGoals_iff.mpr ⟨⟨goal, hg, ht⟩, ?_⟩
    simp only [dispatch, checkGoal_grants_iff, checkGoal_allowed_iff] at hr
    rcases hr with hp | hrch | hro
    · exact .inl ⟨hac, .inr hp⟩
    · rcases hal.goalReach _ _ _ _ hac hg ht hrch with hse | hp | hro
      · exact .inl ⟨hac, .inl hse⟩
      · exact .inl ⟨hac, .inr hp⟩
      · exact .inr hro
    · exact .inr hro
  | model =>
    obtain ⟨row, hg, ht, rfl⟩ := of_load hl
    have hp : isPrivileged db tenantId actorId :=
      hr.resolve_right not_checkModel_grants
    exact mem_actorVisibleModels_iff.mpr ⟨hac, row, hg, ht,
      hal.modelStatus _ _ _ _ hac hp hg ht, .inr (.inr hp)⟩

theorem goal_rows_reached (hn : NoOverGrant db)
    (hm : ⟨actorId, goalId, tenantId⟩ ∈ (refreshAll db).rows .goal) :
    IsActor db tenantId actorId ∧ (isPrivileged db tenantId actorId ∨
      ReachesGoal db tenantId actorId goalId ∨
      hasEntityRole db tenantId actorId .goal goalId) := by
  obtain ⟨entity, hl, ha, hrl⟩ := (allowed_iff .goal).mp (hn .goal _ hm)
  obtain ⟨row, -, -, rfl⟩ := of_load hl
  simp only [dispatch, checkGoal_allowed_iff] at hrl
  exact ⟨ha, hrl⟩

theorem aligned_of_agree (hn : NoOverGrant db) (hu : NoUnderGrant db) : Aligned db where
  ownerChains := by
    intro tenantId actorId commitmentId row hac hg ht hm
    have hgr := (grants_iff (refreshAll db) .commitment).mpr ⟨_, load hg ht, hac.isActor,
        .inr (checkCommitment_grants_iff.mpr (.inr (.inr (.inl hm))))⟩
    obtain ⟨-, row', hg', -, hse⟩ :=
      mem_actorVisibleCommitments_iff.mp (hu .commitment _ _ _ hac hgr)
    rw [hg] at hg'
    cases hg'
    rcases hse with ho | hcb | hch | hp | hro
    · exact absurd ho (ne_owner_of_managesOwner hm)
    · exact .inr (.inl hcb)
    · exact .inl (ownerActive_of_inOwnersChain hch)
    · exact .inr (.inr (.inl hp))
    · exact .inr (.inr (.inr hro))
  commitmentGrants := by
    intro tenantId actorId commitmentId row goalId goal hac hr hrw hgl htenant he hro
    have hm := mem_actorVisibleGoals_iff.mpr ⟨⟨goal, hgl, htenant⟩, .inl ⟨hac,
      .inl ⟨commitmentId, row, he, hr, hrw, .inr (.inr (.inr (.inr hro)))⟩⟩⟩
    rcases (goal_rows_reached hn hm).2 with hp | hrc | hgr
    · exact .inr (.inl hp)
    · exact .inl hrc
    · exact .inr (.inr hgr)
  goalGrantees := by
    intro tenantId actorId goalId goal hgl htenant hro
    have hm := mem_actorVisibleGoals_iff.mpr ⟨⟨goal, hgl, htenant⟩, .inr hro⟩
    exact (goal_rows_reached hn hm).1
  goalReach := by
    intro tenantId actorId goalId goal hac hg ht hrch
    have hgr := (grants_iff (refreshAll db) .goal).mpr ⟨_, load hg ht, hac.isActor,
      .inr (checkGoal_grants_iff.mpr (checkGoal_allowed_iff.mpr (.inl hrch)))⟩
    obtain ⟨-, hr⟩ := mem_actorVisibleGoals_iff.mp (hu .goal _ _ _ hac hgr)
    rcases hr with ⟨-, hse | hp⟩ | hro
    · exact .inl hse
    · exact .inr (.inl hp)
    · exact .inr (.inr hro)
  modelStatus := by
    intro tenantId actorId modelId row hac hp hg ht
    have hgr := (grants_iff (refreshAll db) .model).mpr ⟨_, load hg ht, hac.isActor, .inl hp⟩
    obtain ⟨-, row', hg', -, hst, -⟩ := mem_actorVisibleModels_iff.mp (hu .model _ _ _ hac hgr)
    rw [hg] at hg'
    cases hg'
    exact hst

/-- Views and live check agree on exactly the aligned contents. -/
theorem views_agree_iff_aligned (db : Db) : (NoOverGrant db ∧ NoUnderGrant db) ↔ Aligned db := by
  constructor
  · rintro ⟨hover, hunder⟩
    exact aligned_of_agree hover hunder
  · intro haligned
    exact ⟨noOverGrant_of_aligned haligned, noUnderGrant_of_aligned haligned⟩

end Agreement

private def viewerOfOneCommitment : Db where
  actors := Table.put (Table.put ∅ 1 ⟨0, some .active, none⟩) 2 ⟨0, some .active, none⟩
  commitments := Table.put ∅ 10 ⟨0, some 1⟩
  goals := Table.put ∅ 20 ⟨0⟩
  contributesTo := Table.put ∅ (10, 20) ()
  actorRoles := [⟨0, 2, .commitment, some 10, .viewer, none⟩]

/-- The view shows the goal to the viewer of the commitment; the check does not. -/
theorem goal_leaks_to_commitment_viewer : ¬ ∀ db, NoOverGrant db ∧ NoUnderGrant db := by
  intro hagree
  have hallowed := (hagree viewerOfOneCommitment).1 .goal ⟨2, 20, 0⟩ (by decide +kernel)
  cases hallowed

end FyralisCore.Access
