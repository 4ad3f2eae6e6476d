import FyralisCore.Acts.Commitments

/-! What a call that returns has done: for each function its effect on the
tables, and what the state it ran on must have satisfied. -/
namespace FyralisCore.Acts

open Relational Relation Transaction Table Tx Db

variable {db after : Db} {supply left : Nat}

variable {result : Unit} {commitmentId goalId dependentId dependencyId : Nat} {critical : Bool}
  {clock : Clock} {causeEventId : Option Nat} {input : CommitmentCreateInput}

theorem returns_constrained {constraints : Db → List (Bool × ConstraintViolation)} :
    Tx.Returns apply (Tx.query lock fun db => constrained (constraints db) [w])
        db supply result after left ↔
      (∀ constraint ∈ constraints db, constraint.1) ∧ after = db.apply w ∧ supply = left := by
  rw [returns_query]
  constructor
  · rintro ⟨ws, ha, rfl, rfl⟩
    obtain ⟨hal, hp⟩ := (constrained_eq_ok_iff _ _ _).mp ha
    cases hp
    exact ⟨hal, rfl, rfl⟩
  · rintro ⟨hal, rfl, rfl⟩
    exact ⟨[w], (constrained_eq_ok_iff _ _ _).mpr ⟨hal, rfl⟩, rfl, rfl⟩

theorem returns_insertIgnore {lock : Db → Option RowRef} {present : Db → Bool}
    {constraints : Db → List (Bool × ConstraintViolation)} {w : Write}
    (hp : present db → db.apply w = db) : Tx.Returns apply (Tx.query lock fun db =>
        if present db then .ok ([], ()) else constrained (constraints db) [w])
        db supply result after left ↔
      after = db.apply w ∧ supply = left ∧
        (present db ∨ ∀ constraint ∈ constraints db, constraint.1) := by
  rw [returns_query]
  constructor
  · rintro ⟨ws, ha, rfl, rfl⟩
    split at ha
    · next ht =>
      cases ha
      exact ⟨(hp ht).symm, rfl, .inl ht⟩
    · obtain ⟨hal, hpr⟩ := (constrained_eq_ok_iff _ _ _).mp ha
      cases hpr
      exact ⟨rfl, rfl, .inr hal⟩
  · rintro ⟨rfl, rfl, hc⟩
    by_cases ht : present db
    · exact ⟨[], by rw [if_pos ht], hp ht, rfl⟩
    · refine ⟨[w], ?_, rfl, rfl⟩
      rw [if_neg ht]
      exact (constrained_eq_ok_iff _ _ _).mpr ⟨hc.resolve_left ht, rfl⟩

theorem insertContributor_effect {actorId : Nat} {role : Option String}
    (hr : Tx.Returns apply (insertContributor commitmentId actorId role) db supply () after left) :
    after = db.apply (.insertContributor commitmentId actorId role) ∧ supply = left := by
  obtain ⟨ha, hl, _⟩ := (returns_insertIgnore fun ht => by
    simp [apply, insertNew_of_isSome _ _ ht]).mp hr
  exact ⟨ha, hl⟩

theorem insertContributesTo_effect
    (hr : Tx.Returns apply (insertContributesTo commitmentId goalId critical)
      db supply () after left) :
    after = db.apply (.insertContributesTo commitmentId goalId critical) ∧ supply = left := by
  obtain ⟨ha, hl, _⟩ := (returns_insertIgnore fun ht => by
    simp [apply, insertNew_of_isSome _ _ ht]).mp hr
  exact ⟨ha, hl⟩

theorem returns_insertDependsOn :
    Tx.Returns apply (insertDependsOn dependentId dependencyId) db supply result after left ↔
      after = db.apply (.insertDependsOn dependentId dependencyId) ∧ supply = left ∧
        (db.DependsOn dependentId dependencyId ∨
          (dependentId ≠ dependencyId ∧ (db.commitments.get dependentId).isSome ∧
            (db.commitments.get dependencyId).isSome)) := by
  refine (returns_insertIgnore fun ht => by
    simp [apply, insertNew_of_isSome _ _ ht]).trans ?_
  simp [Option.isSome_iff_exists, Unique.exists_iff, Db.DependsOn]

theorem returns_insertConstrainedBy {decisionId : Nat} :
    Tx.Returns apply (insertConstrainedBy commitmentId decisionId) db supply result after left ↔
      after = db.apply (.insertConstrainedBy commitmentId decisionId) ∧ supply = left ∧
        (db.constrainedBy.get (commitmentId, decisionId) = some () ∨
          ((db.commitments.get commitmentId).isSome ∧ (db.decisions.get decisionId).isSome)) := by
  refine (returns_insertIgnore fun ht => by
    simp [apply, insertNew_of_isSome _ _ ht]).trans ?_
  simp [Option.isSome_iff_exists, Unique.exists_iff]

theorem emitStateChange_effect {tenantId result : Nat}
    {fromState : Option String} {toState : String} (hr : Tx.Returns apply
      (emitStateChange clock tenantId entityKind entityId fromState toState causeEventId)
      db supply result after left) :
    ∃ row, after = db.apply (.insertObservation supply row) ∧ left = supply + 1 := by
  simp only [emitStateChange, bind_eq_bind, returns_bind, returns_newId,
    insertObservation, returns_constrained] at hr
  obtain ⟨_, _, _, ⟨rfl, rfl, rfl⟩, _, _, _, ⟨-, rfl, rfl⟩, hd⟩ := hr
  obtain ⟨-, ha, hl⟩ := hd.ended
  exact ⟨_, ha.symm, hl.symm⟩

theorem returns_raiseIf : Tx.Returns apply (raiseIf error) db supply result after left ↔
      error = none ∧ db = after ∧ supply = left := by
  cases error <;> simp [raiseIf]

theorem returns_requireActiveActor :
    Tx.Returns apply (requireActiveActor role actorId) db supply result after left ↔
      (db.actors.get actorId).bind ActorRow.status = some .active ∧ db = after ∧ supply = left := by
  rw [requireActiveActor, returns_require]
  cases (db.actors.get actorId).bind ActorRow.status with
  | none => simp [actorError]
  | some status => cases status <;> simp [actorError]

theorem returns_requireTenant {missing : String} {id : Nat} :
    Tx.Returns apply (requireTenant tenantOf missing foreign field tenantId id)
        db supply result after left ↔
      tenantOf db id = some tenantId ∧ db = after ∧ supply = left := by
  rw [requireTenant, returns_require]
  cases tenantOf db id with
  | none => simp
  | some found => simp

structure ReferencesHold (db : Db) (input : CommitmentCreateInput) : Prop where
  owner : ∀ actorId, input.ownerId = some actorId →
    (db.actors.get actorId).bind ActorRow.status = some .active
  contributors : ∀ contributor ∈ input.contributors,
    (db.actors.get contributor.1).bind ActorRow.status = some .active
  goals : ∀ item ∈ input.contributesToGoalIds,
    db.goalTenant item.edgeParts.1 = some input.tenantId
  dependencies : ∀ dependencyId ∈ input.dependsOnCommitmentIds,
    db.commitmentTenant dependencyId = some input.tenantId
  decisions : ∀ decisionId ∈ input.constrainedByDecisionIds,
    db.decisionTenant decisionId = some input.tenantId

theorem returns_validateReferences
    (hrt : Tx.Returns apply (validateCommitmentCreateReferences input)
      db supply result after left) : ReferencesHold db input ∧ db = after ∧ supply = left := by
  simp only [validateCommitmentCreateReferences, bind_eq_bind, returns_bind] at hrt
  obtain ⟨_, s₁, n₁, ha, _, s₂, n₂, hr, _, s₃, n₃, hg, _, s₄, n₄, hd, hdc⟩ := hrt
  obtain ⟨ho, rfl, rfl⟩ := (returns_forEach_guard fun _ _ _ => returns_requireActiveActor).mp ha
  obtain ⟨hc, rfl, rfl⟩ :=
    (returns_forEach_guard fun _ _ _ => returns_requireActiveActor).mp hr
  obtain ⟨hgs, rfl, rfl⟩ :=
    (returns_forEach_guard fun _ _ _ => returns_requireTenant).mp hg
  obtain ⟨hdp, rfl, rfl⟩ :=
    (returns_forEach_guard fun _ _ _ => returns_requireTenant).mp hd
  obtain ⟨hde, rfl, rfl⟩ :=
    (returns_forEach_guard fun _ _ _ => returns_requireTenant).mp hdc
  exact ⟨⟨fun actorId hac => ho actorId (by simp [hac]), hc, hgs, hdp, hde⟩, rfl, rfl⟩

theorem returns_raiseFirst : Tx.Returns apply (raiseFirst check) db supply result after left ↔
      Tx.Returns apply check db supply [] after left := by
  simp only [raiseFirst, bind_eq_bind, returns_bind]
  constructor
  · rintro ⟨violations, _, _, hc, ht⟩
    cases violations with
    | nil =>
      obtain ⟨-, rfl, rfl⟩ := ht.ended
      exact hc
    | cons violation rest => exact absurd ht returns_raise
  · intro hc
    exact ⟨[], after, left, hc, returns_done.mpr ⟨rfl, rfl, rfl⟩⟩

theorem returns_dependencyGuard :
    Tx.Returns apply (raiseFirst (checkC6DependsOnAcyclic dependentId dependencyId))
        db supply result after left ↔
      db.acceptsDependency dependentId dependencyId ∧ db = after ∧ supply = left := by
  rw [returns_raiseFirst, checkC6DependsOnAcyclic, acceptsDependency,
    reflTransGen_iff_eq_or_transGen, not_or]
  split
  · next hs => simp [hs]
  · next hd =>
    simp only [bind_eq_bind, returns_bind, returns_read, pure_eq_done,
      returns_done, ← mem_dependencyClosure_iff]
    by_cases hc : dependentId ∈ db.dependencyClosure dependencyId
    · simp [hc]
    · simp [hc, hd]

theorem returns_insertDependsOnEdge :
    Tx.Returns apply (insertDependsOnEdge dependentId dependencyId) db supply result after left ↔
      db.acceptsDependency dependentId dependencyId ∧
        after = db.apply (.insertDependsOn dependentId dependencyId) ∧ supply = left ∧
        (db.DependsOn dependentId dependencyId ∨
          (dependentId ≠ dependencyId ∧ (db.commitments.get dependentId).isSome ∧
            (db.commitments.get dependencyId).isSome)) := by
  rw [insertDependsOnEdge, bind_eq_bind, returns_bind]
  constructor
  · rintro ⟨_, _, _, hg, hi⟩
    obtain ⟨ha, rfl, rfl⟩ := returns_dependencyGuard.mp hg
    exact ⟨ha, returns_insertDependsOn.mp hi⟩
  · rintro ⟨ha, hi⟩
    exact ⟨(), db, supply, returns_dependencyGuard.mpr ⟨ha, rfl, rfl⟩,
      returns_insertDependsOn.mpr hi⟩

theorem requireGoalCanAcceptCriticalPath_effect
    (hrt : Tx.Returns apply (requireGoalCanAcceptCriticalPath goalId s critical)
      db supply result after left) : db = after ∧ supply = left := by
  refine (hrt.of_when (P := True) fun hb => ?_).2
  obtain ⟨_, _, _, hrd, hr⟩ := hb.parts
  obtain ⟨-, rfl, rfl⟩ := returns_readLocking.mp hrd
  exact ⟨trivial, (returns_raiseIf.mp hr).2⟩

theorem insertContributesToEdge_effect
    (hr : Tx.Returns apply (insertContributesToEdge commitmentId s item)
      db supply () after left) : after = db.apply
      (.insertContributesTo commitmentId item.edgeParts.1 item.edgeParts.2) ∧ supply = left := by
  obtain ⟨_, _, _, hg, hi⟩ := hr.parts
  obtain ⟨rfl, rfl⟩ := requireGoalCanAcceptCriticalPath_effect hg
  exact insertContributesTo_effect hi

theorem validateParentGoal_effect
    (hr : Tx.Returns apply (validateParentGoal a) db supply result after left) :
    db = after ∧ supply = left := by
  unfold validateParentGoal at hr
  split at hr
  · exact hr.ended.2
  · exact (returns_require.mp hr).2

theorem createGoal_effect {a : GoalCreate} {result : Nat}
    (hr : Tx.Returns apply (createGoal clock a) db supply result after left) :
    result = supply ∧ db.goals.get supply = none ∧ ∃ observation,
      after = (db.apply (.insertGoal supply (a.row clock))).apply
        (.insertObservation (supply + 1) observation) := by
  simp only [createGoal, bind_eq_bind, returns_bind, returns_ensure, returns_newId,
    pure_eq_done, returns_done] at hr
  obtain ⟨_, _, _, ⟨-, rfl, rfl⟩, _, _, _, hp, _, _, _, ⟨rfl, rfl, rfl⟩, _, _, _, hi,
    _, _, _, he, rfl, rfl, rfl⟩ := hr
  obtain ⟨rfl, rfl⟩ := validateParentGoal_effect hp
  obtain ⟨hc, rfl, rfl⟩ := returns_constrained.mp hi
  obtain ⟨observation, rfl, rfl⟩ := emitStateChange_effect he
  exact ⟨rfl, by simpa using hc _ (.head _), observation, rfl⟩

theorem transitionGoal_effect {newState : GoalState} {result : GoalRow}
    (hr : Tx.Returns apply (transitionGoal clock goalId newState causeEventId)
      db supply result after left) : ∃ row, db.goals.get goalId = some row ∧
      (goalMachine.canTransition row.state newState).1 ∧
      (newState = .achieved → db.incompleteCriticalPath goalId = 0) ∧
      ∃ observation, after = (db.apply (.setGoalState goalId newState clock.transactionNow
        (newState ∈ [GoalState.achieved, .abandoned]))).apply
        (.insertObservation supply observation) := by
  simp only [transitionGoal, fetchGoalForUpdate, bind_eq_bind, returns_readLocking_bind] at hr
  simp only [returns_bind, returns_orRaise, returns_ensure] at hr
  obtain ⟨row, _, _, ⟨hf, rfl, rfl⟩, _, _, _, ⟨hl, rfl, rfl⟩, _, s₁, n₁, hac,
    updated, s₂, n₂, hu, _, s₃, n₃, he, _, rfl, rfl⟩ := hr
  have hd : (newState = .achieved → db.incompleteCriticalPath goalId = 0) ∧ db = s₁ ∧
      supply = n₁ := by
    simpa using hac.of_when fun hb => by
      obtain ⟨hn, hs⟩ := returns_require.mp hb
      refine ⟨?_, hs⟩
      by_contra hz
      rw [if_pos (Nat.pos_of_ne_zero hz)] at hn
      cases hn
  obtain ⟨hd, rfl, rfl⟩ := hd
  obtain ⟨ws, ha, rfl, rfl⟩ := returns_query.mp hu
  cases ha
  obtain ⟨observation, rfl, rfl⟩ := emitStateChange_effect he
  exact ⟨row, hf, hl, hd, observation, rfl⟩

def CommitmentCreateInput.effectiveInitial (input : CommitmentCreateInput) (db : Db) :
    CommitmentState :=
  if input.initialState = .active ∧ ∃ dependencyId ∈ input.dependsOnCommitmentIds,
      db.isUnsatisfied dependencyId
  then .blocked
  else input.initialState

theorem returns_anyUnsatisfied {dependencies : List Nat} {result : Bool} :
    Tx.Returns apply (anyUnsatisfied dependencies) db supply result after left ↔
      dependencies.any db.isUnsatisfied = result ∧ db = after ∧ supply = left := by
  induction dependencies with
  | nil => simp [anyUnsatisfied]
  | cons dependencyId rest ih =>
    simp only [anyUnsatisfied, isUnsatisfiedDependency, bind_eq_bind, returns_bind, returns_read]
    cases h1 : db.isUnsatisfied dependencyId with
    | true => simp [h1]
    | false => simp [h1, ih]

theorem returns_resolveEffectiveInitialState {result : CommitmentState} :
    Tx.Returns apply (resolveEffectiveInitialState input) db supply result after left ↔
      input.effectiveInitial db = result ∧ db = after ∧ supply = left := by
  unfold resolveEffectiveInitialState CommitmentCreateInput.effectiveInitial
  split
  · next hs =>
    rw [if_neg]
    · simp
    · rintro ⟨ha, dependencyId, hm, _⟩
      rcases hs with hst | he
      · exact hst ha
      · rw [he] at hm
        cases hm
  · next hl =>
    obtain ⟨ha, _⟩ := not_or.mp hl
    simp only [bind_eq_bind, returns_bind, returns_anyUnsatisfied, pure_eq_done,
      returns_done, not_not.mp ha, true_and]
    simp [List.any_eq_true]

def Db.withCommitment (db : Db) (commitmentId : Nat) (input : CommitmentCreateInput)
    (row : CommitmentRow) : Db :=
  { db with
    commitments := db.commitments.insertNew commitmentId row
    commitmentContributors := db.commitmentContributors.insertAll
      (input.contributors.map fun contributor => ((commitmentId, contributor.1), contributor.2))
    contributesTo := db.contributesTo.insertAll
      (input.contributesToGoalIds.map fun item =>
        ((commitmentId, item.edgeParts.1), item.edgeParts.2))
    dependsOn := db.dependsOn.insertAll
      (input.dependsOnCommitmentIds.map fun dependencyId => ((commitmentId, dependencyId), ()))
    constrainedBy := db.constrainedBy.insertAll
      (input.constrainedByDecisionIds.map fun decisionId => ((commitmentId, decisionId), ())) }

section

variable (db) (commitmentId)

private theorem foldl_contributors (items : List (Nat × Option String)) :
    items.foldl (fun db item => db.apply (.insertContributor commitmentId item.1 item.2)) db =
      { db with
        commitmentContributors := db.commitmentContributors.insertAll
          (items.map fun item => ((commitmentId, item.1), item.2)) } := by
  induction items generalizing db with
  | nil => rfl
  | cons item rest ih =>
    rw [List.foldl_cons, ih]
    rfl

private theorem foldl_contributesTo (items : List GoalItem) : items.foldl (fun db item =>
        db.apply (.insertContributesTo commitmentId item.edgeParts.1 item.edgeParts.2)) db =
      { db with
        contributesTo := db.contributesTo.insertAll
          (items.map fun item => ((commitmentId, item.edgeParts.1), item.edgeParts.2)) } := by
  induction items generalizing db with
  | nil => rfl
  | cons item rest ih =>
    rw [List.foldl_cons, ih]
    rfl

private theorem foldl_dependsOn (items : List Nat) :
    items.foldl (fun db item => db.apply (.insertDependsOn commitmentId item)) db = { db with
        dependsOn := db.dependsOn.insertAll
          (items.map fun item => ((commitmentId, item), ())) } := by
  induction items generalizing db with
  | nil => rfl
  | cons item rest ih =>
    rw [List.foldl_cons, ih]
    rfl

private theorem foldl_constrainedBy (items : List Nat) :
    items.foldl (fun db item => db.apply (.insertConstrainedBy commitmentId item)) db = { db with
        constrainedBy := db.constrainedBy.insertAll
          (items.map fun item => ((commitmentId, item), ())) } := by
  induction items generalizing db with
  | nil => rfl
  | cons item rest ih =>
    rw [List.foldl_cons, ih]
    rfl

end

structure CommitmentCreated (db : Db) (clock : Clock) (input : CommitmentCreateInput)
    (supply : Nat) (result : Nat × CommitmentRow) (after : Db) : Prop where
  references : ReferencesHold db input
  fresh : db.commitments.get supply = none
  result_eq : result = (supply, input.row clock (input.effectiveInitial db))
  after_eq : ∃ observation, after =
    (db.withCommitment supply input (input.row clock (input.effectiveInitial db))).apply
      (.insertObservation (supply + 1) observation)

section

variable {clock : Clock} {input : CommitmentCreateInput} {result : Nat × CommitmentRow}

theorem CommitmentCreated.get_after
    (hc : CommitmentCreated db clock input supply result after) (other : Nat) :
    after.commitments.get other =
      if other = supply then some result.2 else db.commitments.get other := by
  obtain ⟨observation, rfl⟩ := hc.after_eq
  simp [apply, withCommitment, get_insertNew, hc.fresh, hc.result_eq]

theorem get_insertAll_pairs_iff {table : Table (Nat × Nat) Unit} {items : List Nat} :
    (table.insertAll (items.map fun item => ((a, item), ()))).get (b, c) = some () ↔
      table.get (b, c) = some () ∨ (b = a ∧ c ∈ items) := by
  simp only [get_insertAll_keys_iff, Prod.mk.injEq]
  constructor
  · rintro (ho | ⟨item, hm, rfl, rfl⟩)
    · exact .inl ho
    · exact .inr ⟨rfl, hm⟩
  · rintro (ho | ⟨rfl, hm⟩)
    · exact .inl ho
    · exact .inr ⟨c, hm, rfl, rfl⟩

section

variable (hc : CommitmentCreated db clock input supply result after)

include hc

theorem CommitmentCreated.dependsOn_after_iff (a b : Nat) : after.DependsOn a b ↔ db.DependsOn a b ∨
    (a = supply ∧ b ∈ input.dependsOnCommitmentIds) := by
  obtain ⟨observation, rfl⟩ := hc.after_eq
  exact get_insertAll_pairs_iff

theorem CommitmentCreated.constrainedBy_after_iff (a b : Nat) : after.constrainedBy.get (a, b) =
    some () ↔ db.constrainedBy.get (a, b) = some () ∨ (a = supply ∧
    b ∈ input.constrainedByDecisionIds) := by
  obtain ⟨observation, rfl⟩ := hc.after_eq
  exact get_insertAll_pairs_iff

end

end

theorem createCommitmentInner_effect {result : Nat × CommitmentRow}
    (hrt : Tx.Returns apply (createCommitmentInner clock input) db supply result after left) :
    CommitmentCreated db clock input supply result after ∧ left = supply + 2 := by
  simp only [createCommitmentInner, bind_eq_bind, returns_bind, returns_newId,
    returns_resolveEffectiveInitialState, returns_read, returns_orRaise, pure_eq_done,
    returns_done] at hrt
  obtain ⟨_, _, _, hv, _, _, _, ⟨rfl, rfl, rfl⟩, _, _, _, ⟨rfl, rfl, rfl⟩, _, s₁, n₁,
    hi, _, s₂, n₂, hc, _, s₃, n₃, hg, _, s₄, n₄, hdp, _, s₅, n₅,
    hd, _, s₆, n₆, he, _, _, _, ⟨rfl, rfl, rfl⟩, row, _, _, ⟨hr, rfl, rfl⟩,
    rfl, rfl, rfl⟩ := hrt
  obtain ⟨hrf, rfl, rfl⟩ := returns_validateReferences hv
  obtain ⟨hcs, rfl, rfl⟩ := returns_constrained.mp hi
  obtain ⟨rfl, rfl⟩ := returns_forEach_foldl (fun _ _ _ _ _ => insertContributor_effect) hc
  obtain ⟨rfl, rfl⟩ := returns_forEach_foldl (fun _ _ _ _ _ => insertContributesToEdge_effect) hg
  obtain ⟨rfl, rfl⟩ := returns_forEach_foldl
    (fun _ _ _ _ _ hb => (returns_insertDependsOnEdge.mp hb).2.imp_right And.left) hdp
  obtain ⟨rfl, rfl⟩ := returns_forEach_foldl
    (fun _ _ _ _ _ hb => (returns_insertConstrainedBy.mp hb).imp_right And.left) hd
  obtain ⟨observation, rfl, rfl⟩ := emitStateChange_effect he
  simp only [foldl_contributors, foldl_contributesTo, foldl_dependsOn, foldl_constrainedBy] at hr ⊢
  have hf : db.commitments.get supply = none := by
    simpa using hcs _ (.head _)
  have hs : (input.row clock (input.effectiveInitial db)) = row := by
    simpa [apply, get_insertNew, hf] using hr
  exact ⟨⟨hrf, hf, by rw [hs], observation, by
    simp only [withCommitment, hs]; rfl⟩, trivial⟩

theorem createCommitment_effect {a : CommitmentCreate} {result : Nat × CommitmentRow}
    (hr : Tx.Returns apply (createCommitment clock a) db supply result after left) :
    ∃ input, prepareCommitmentCreateInput clock.processNow a = .ok input ∧
      CommitmentCreated db clock input supply result after ∧ left = supply + 2 := by
  obtain ⟨input, _, _, hp, hi⟩ := hr.parts
  obtain ⟨hin, rfl, rfl⟩ := returns_ofExcept.mp hp
  exact ⟨input, hin, createCommitmentInner_effect hi⟩

structure InputPrepared (args : CommitmentCreate) (input : CommitmentCreateInput) : Prop where
  state_eq : input.initialState = args.initialState
  dependencies_eq : input.dependsOnCommitmentIds = args.dependsOnCommitmentIds.getD []
  decisions_eq : input.constrainedByDecisionIds = args.constrainedByDecisionIds.getD []
  tenant_eq : input.tenantId = args.tenantId
  owned : input.initialState = .proposed ∨ input.ownerId ≠ none
  working : input.initialState ∈ [CommitmentState.proposed, .doneverified, .closed] ∨
    input.isMaintenance ∨ input.contributesToGoalIds ≠ []

theorem prepareCommitmentCreateInput_spec
    (hp : prepareCommitmentCreateInput now a = .ok input) : InputPrepared a input := by
  simp only [prepareCommitmentCreateInput, bind_eq_ok_iff, refuseUnless_eq_ok_iff] at hp
  obtain ⟨_, _, _, ho, _, _, maintenance, _, _, _, _, hw, hi⟩ := hp
  cases hi
  refine ⟨rfl, rfl, rfl, rfl, by simpa using ho, ?_⟩
  simpa [or_assoc] using hw

theorem isOpen_iff (s : CommitmentState) :
    s.isOpen ↔ s ∉ [CommitmentState.proposed, .doneverified, .closed] := by
  cases s <;> decide

section

variable (db : Db) (commitmentId : Nat)

def Db.SatisfiesC1 : Prop :=
  ∀ row, db.commitments.get commitmentId = some row → row.state.isOpen → row.ownerId ≠ none

def Db.SatisfiesC2 : Prop :=
  ∀ row, db.commitments.get commitmentId = some row → row.state = .blocked →
    db.unsatisfiedDependencies commitmentId ≠ 0 ∨ db.revisitedConstrainingDecisions commitmentId ≠ 0

def Db.SatisfiesC3 : Prop :=
  ∀ row, db.commitments.get commitmentId = some row → row.state = .doneverified →
    row.resolvedByEventIds ≠ []

def Db.SatisfiesC10 : Prop :=
  ∀ row, db.commitments.get commitmentId = some row → row.state.isOpen →
    row.countsAsMaintenance ∨ db.contributions commitmentId ≠ 0

end

theorem returns_checkC1 :
    Tx.Returns apply (checkC1OwnerRequired commitmentId) db supply [] after left ↔
      db.SatisfiesC1 commitmentId ∧ db = after ∧ supply = left := by
  unfold checkC1OwnerRequired Db.SatisfiesC1
  rw [returns_read]
  cases db.commitments.get commitmentId with
  | none => simp
  | some row => simp

theorem returns_checkC2 :
    Tx.Returns apply (checkC2BlockedReason commitmentId) db supply [] after left ↔
      db.SatisfiesC2 commitmentId ∧ db = after ∧ supply = left := by
  simp only [checkC2BlockedReason, countUnsatisfiedDependencies,
    countRevisitedConstrainingDecisions, bind_eq_bind, returns_read_bind, Db.SatisfiesC2]
  cases hr : db.commitments.get commitmentId with
  | none => simp
  | some row =>
    by_cases hs : row.state = .blocked
    · simp only [hs, Option.map_some, ne_eq, not_true_eq_false, if_false,
        returns_read_bind, pure_eq_done, returns_done, Option.some.injEq, forall_eq',
        forall_const]
      split
      · next hz => simp [hz]
      · next hrs => simp [not_and_or.mp hrs]
    · simp [hs]

theorem returns_checkC3 :
    Tx.Returns apply (checkC3DoneverifiedResolved commitmentId) db supply [] after left ↔
      db.SatisfiesC3 commitmentId ∧ db = after ∧ supply = left := by
  unfold checkC3DoneverifiedResolved Db.SatisfiesC3
  rw [returns_read]
  cases db.commitments.get commitmentId with
  | none => simp
  | some row => simp

theorem returns_checkC10 :
    Tx.Returns apply (checkC10ContributesOrMaintenance commitmentId) db supply [] after left ↔
      db.SatisfiesC10 commitmentId ∧ db = after ∧ supply = left := by
  simp only [checkC10ContributesOrMaintenance, bind_eq_bind, returns_read_bind,
    Db.SatisfiesC10, isOpen_iff]
  cases hr : db.commitments.get commitmentId with
  | none => simp
  | some row =>
    simp only [Option.some.injEq, forall_eq']
    split
    · next hc => simp [hc]
    · next ho =>
      split
      · next hm => simp [hm]
      · next hm =>
        by_cases hz : db.contributions commitmentId = 0
        · simp [hz, ho, hm]
        · simp [hz]

structure CommitmentMoved (db : Db) (clock : Clock) (commitmentId : Nat)
    (newState : CommitmentState) (args : TransitionArgs) (supply : Nat)
    (row result : CommitmentRow) (after : Db) : Prop where
  found : db.commitments.get commitmentId = some row
  legal : (commitmentMachine.canTransition row.state newState).1
  caused : args.causeEventId.isSome
  owned : newState.isOpen → row.ownerId ≠ none
  resolved : newState = .doneverified →
    mergeResolved row.resolvedByEventIds args.resolvedByEventIds ≠ []
  reason : newState = .blocked → db.unsatisfiedDependencies commitmentId ≠ 0 ∨
    db.revisitedConstrainingDecisions commitmentId ≠ 0
  working : newState.isOpen →
    row.countsAsMaintenance ∨ db.contributions commitmentId ≠ 0
  result_eq : result = row.withState newState clock.transactionNow
    (mergeResolved row.resolvedByEventIds args.resolvedByEventIds)
    (args.lastConfidenceBasis <|> row.lastConfidenceBasis)
    (commitmentMachine.isTerminal newState)
  after_eq : ∃ observation, after = (db.apply (.setCommitmentState commitmentId newState
    clock.transactionNow (mergeResolved row.resolvedByEventIds args.resolvedByEventIds)
    (args.lastConfidenceBasis <|> row.lastConfidenceBasis)
    (commitmentMachine.isTerminal newState))).apply (.insertObservation supply observation)

variable {newState : CommitmentState} {row : CommitmentRow}

theorem CommitmentMoved.get_after {a : TransitionArgs} {result : CommitmentRow}
    (hm : CommitmentMoved db clock commitmentId newState a supply row result after)
    (other : Nat) : after.commitments.get other =
      if other = commitmentId then some result else db.commitments.get other := by
  obtain ⟨observation, rfl⟩ := hm.after_eq
  simp only [apply, get_update]
  split
  · next he =>
    rw [he, hm.found, hm.result_eq]
    rfl
  · rfl

theorem checkCommitmentMove_spec :
    checkCommitmentMove commitmentId row newState causeEventId = .ok () ↔
      (commitmentMachine.canTransition row.state newState).1 ∧
        causeEventId.isSome ∧ (newState.isOpen → row.ownerId ≠ none) := by
  simp only [checkCommitmentMove, bind_eq_ok_iff, refuseUnless_eq_ok_iff]
  cases ho : newState.isOpen with
  | false => simp
  | true => simp [Option.isSome_iff_ne_none]

theorem requireActiveOwner_effect (hr : Tx.Returns apply (requireActiveOwner row newState)
      db supply result after left) : db = after ∧ supply = left := by
  unfold requireActiveOwner at hr
  split at hr
  · exact hr.ended.2
  · exact (hr.of_when returns_requireActiveActor.mp).2

theorem returns_requireBlockedReason :
    Tx.Returns apply (requireBlockedReason commitmentId) db supply result after left ↔
      (db.unsatisfiedDependencies commitmentId ≠ 0 ∨
        db.revisitedConstrainingDecisions commitmentId ≠ 0) ∧ db = after ∧ supply = left := by
  simp [requireBlockedReason, countUnsatisfiedDependencies, countRevisitedConstrainingDecisions,
    bind_eq_bind, returns_read_bind, returns_ensure]

theorem updateCommitmentState_effect {result : Option CommitmentRow} (hr : Tx.Returns apply
      (updateCommitmentState clock commitmentId newState mergedResolved newBasis)
      db supply result after left) :
    after = db.apply (.setCommitmentState commitmentId newState clock.transactionNow
        mergedResolved newBasis (commitmentMachine.isTerminal newState)) ∧
      result = after.commitments.get commitmentId ∧ supply = left := by
  obtain ⟨ws, ha, rfl, rfl⟩ := returns_query.mp hr
  split at ha
  · cases ha
    exact ⟨rfl, rfl, rfl⟩
  · cases ha

theorem transitionCommitment_effect {a : TransitionArgs} {result : CommitmentRow}
    (hrt : Tx.Returns apply (transitionCommitment clock commitmentId newState a)
      db supply result after left) :
    ∃ row, CommitmentMoved db clock commitmentId newState a supply row result after ∧
      left = supply + 1 := by
  simp only [transitionCommitment, fetchCommitmentForUpdate, bind_eq_bind,
    returns_readLocking_bind] at hrt
  simp only [returns_bind, returns_orRaise, returns_ofExcept, returns_ensure] at hrt
  obtain ⟨row, _, _, ⟨hf, rfl, rfl⟩, _, _, _, ⟨hm, rfl, rfl⟩, _, _, _, hown, _, _, _,
    ⟨hre, rfl, rfl⟩, _, s₁, n₁, hbl, updated, s₂, n₂, hu, _, s₃, n₃, ho,
    _, s₄, n₄, hem, hr, rfl, rfl⟩ := hrt
  obtain ⟨rfl, rfl⟩ := requireActiveOwner_effect hown
  obtain ⟨hl, hc, how⟩ := checkCommitmentMove_spec.mp hm
  have hrs : (newState = .blocked → db.unsatisfiedDependencies commitmentId ≠ 0 ∨
      db.revisitedConstrainingDecisions commitmentId ≠ 0) ∧ db = s₁ ∧ supply = n₁ := by
    simpa using hbl.of_when returns_requireBlockedReason.mp
  obtain ⟨hrs, rfl, rfl⟩ := hrs
  obtain ⟨ha, rfl, rfl⟩ := updateCommitmentState_effect hu
  have hw : (newState.isOpen → row.countsAsMaintenance ∨
      db.contributions commitmentId ≠ 0) ∧ s₂ = s₃ ∧ supply = n₃ := by
    obtain ⟨hsa, rfl, rfl⟩ := ho.of_when fun hb => returns_checkC10.mp (returns_raiseFirst.mp hb)
    refine ⟨fun hst => ?_, rfl, rfl⟩
    have hwr := hsa hst result hr
    rw [ha] at hr hwr
    simp only [apply, get_update, hf, if_true, Option.map_some, Option.some.injEq] at hr
    subst hr
    exact hwr hst
  obtain ⟨hw, rfl, rfl⟩ := hw
  obtain ⟨observation, rfl, rfl⟩ := emitStateChange_effect hem
  rw [ha] at hr
  simp only [apply, get_update, hf, if_true, Option.map_some, Option.some.injEq] at hr
  refine ⟨row, ⟨hf, hl, hc, how, fun hst he => ?_, hrs, hw, hr.symm, observation, by rw [ha]⟩, rfl⟩
  simp [hst, he] at hre

theorem contributesToError_eq_none
    (hn : contributesToError commitmentId goalId critical commitment goal = none) :
    ∃ row, goal = some row ∧ commitment.tenantId = row.tenantId ∧
      ¬ (critical ∧ row.state = .achieved ∧ commitment.state ≠ .doneverified) := by
  cases goal with
  | none => cases hn
  | some row =>
    simp only [contributesToError] at hn
    split at hn
    · cases hn
    · next ht =>
      split at hn
      · cases hn
      · next ho => exact ⟨row, rfl, not_not.mp ht, ho⟩

theorem addContributesTo_effect {result : ActEdge}
    (hr : Tx.Returns apply (addContributesTo commitmentId goalId critical)
      db supply result after left) :
    after = db.apply (.insertContributesTo commitmentId goalId critical) ∧ supply = left ∧
      ∃ tenantId, db.commitmentTenant commitmentId = some tenantId ∧
        db.goalTenant goalId = some tenantId := by
  simp only [addContributesTo, requireContributesToAllowed, fetchCommitmentForUpdate,
    fetchGoalForUpdate, bind_eq_bind, returns_bind, returns_readLocking,
    returns_read, returns_orRaise, returns_raiseIf, pure_eq_done, returns_done]
    at hr
  obtain ⟨_, _, _, ⟨_, _, _, ⟨rfl, rfl, rfl⟩, commitment, _, _, ⟨hc, rfl, rfl⟩, _, _, _,
    ⟨rfl, rfl, rfl⟩, hal, rfl, rfl⟩, _, _, _, hi, _, _, _, ⟨rfl, rfl, rfl⟩, _, _, _,
    ⟨_, rfl, rfl⟩, _, rfl, rfl⟩ := hr
  obtain ⟨ha, rfl⟩ := insertContributesTo_effect hi
  obtain ⟨goal, hg, ht, -⟩ := contributesToError_eq_none hal
  exact ⟨ha, rfl, commitment.tenantId, by rw [commitmentTenant, hc]; rfl,
    by rw [goalTenant, hg, ht]; rfl⟩

theorem returns_readBack {result edge : ActEdge} {get : Db → Option Unit} {body : ActTx Unit}
    (hg : Tx.Returns apply body db supply () after left → get after = some ()) :
    Tx.Returns apply (do
        body
        let found ← Tx.read get
        let _ ← Tx.orRaise found error
        return edge) db supply result after left ↔
      result = edge ∧ Tx.Returns apply body db supply () after left := by
  simp only [bind_eq_bind, returns_bind, returns_read, returns_orRaise, pure_eq_done, returns_done]
  constructor
  · rintro ⟨_, _, _, hb, _, _, _, ⟨rfl, rfl, rfl⟩, _, _, _, ⟨_, rfl, rfl⟩, rfl, rfl, rfl⟩
    exact ⟨rfl, hb⟩
  · rintro ⟨rfl, hb⟩
    exact ⟨_, _, _, hb, _, _, _, ⟨rfl, rfl, rfl⟩, _, _, _, ⟨hg hb, rfl, rfl⟩, rfl, rfl, rfl⟩

theorem returns_addDependsOn {result : ActEdge} :
    Tx.Returns apply (addDependsOn dependentId dependencyId) db supply result after left ↔
      result = .dependsOn dependentId dependencyId ∧
        Tx.Returns apply (insertDependsOnEdge dependentId dependencyId) db supply () after left :=
  returns_readBack fun hi => by
    obtain ⟨-, rfl, -, -⟩ := returns_insertDependsOnEdge.mp hi
    simp [apply, get_insertNew, Option.eq_none_iff_forall_ne_some, Unique.forall_iff]

theorem returns_addConstrainedBy {decisionId : Nat} {result : ActEdge} :
    Tx.Returns apply (addConstrainedBy commitmentId decisionId) db supply result after left ↔
      result = .constrainedBy commitmentId decisionId ∧
        Tx.Returns apply (insertConstrainedBy commitmentId decisionId) db supply () after left :=
  returns_readBack fun hi => by
    obtain ⟨rfl, -, -⟩ := returns_insertConstrainedBy.mp hi
    simp [apply, get_insertNew, Option.eq_none_iff_forall_ne_some, Unique.forall_iff]

end FyralisCore.Acts
