import FyralisCore.Acts.Effects
import FyralisCore.Lib.Raises

/-! Which calls of the act store refuse after they have written. Every call checks
before its first write, and two go on checking after it: the creation of a commitment
(G4 and C6 on its edges) and its transition (C10). -/
namespace FyralisCore.Acts

open Relational Relation Transaction Tx Db

def ActError.isRefusal : ActError → Bool
  | .invariantViolation _ _ _ | .validationError _ _ => true
  | .database _ | .typeError _ => false

abbrev RefusesFirst {α : Type} (body : ActTx α) : Prop :=
  Tx.FailsFirst apply (fun error => error.isRefusal) body

abbrev RefusesFirstAt {α : Type} (body : ActTx α) (db : Db) (supply : Nat) : Prop :=
  Tx.FailsFirstAt apply (fun error => error.isRefusal) body db supply

abbrev NeverRefuses {α : Type} (body : ActTx α) : Prop :=
  Tx.EachError apply (fun error => ¬ error.isRefusal) body

variable {db after : Db} {supply left : Nat}

variable {error : ActError} {clock : Clock} {commitmentId goalId dependentId dependencyId : Nat}
  {input : CommitmentCreateInput} {newState s : CommitmentState} {middle : Db}

theorem constrained_error (he : constrained constraints ws = .error error) : ¬ error.isRefusal := by
  unfold constrained at he
  split at he <;> cases he
  exact Bool.false_ne_true

theorem never_insertObservation {id : Nat} : NeverRefuses (insertObservation id row) :=
  .query fun _ _ he => constrained_error he

theorem never_emitStateChange :
    NeverRefuses (emitStateChange clock tenantId entityKind entityId fromState toState cause) :=
  .bind .newId fun _ => .bind never_insertObservation fun _ => .done

theorem never_insertIgnore {present : Db → Bool}
    {constraints : Db → List (Bool × ConstraintViolation)} {ws : Db → List Write} :
    NeverRefuses (.query (fun _ => none) fun db =>
      if present db then .ok ([], ()) else constrained (constraints db) (ws db)) := by
  refine .query fun db error he => ?_
  split at he
  · cases he
  · exact constrained_error he

theorem never_insertContributor : NeverRefuses (insertContributor commitmentId actorId role) :=
  never_insertIgnore

theorem never_insertContributesTo :
    NeverRefuses (insertContributesTo commitmentId goalId critical) :=
  never_insertIgnore

theorem never_insertDependsOn : NeverRefuses (insertDependsOn dependentId dependencyId) :=
  never_insertIgnore

theorem never_insertConstrainedBy : NeverRefuses (insertConstrainedBy commitmentId decisionId) :=
  never_insertIgnore

theorem never_orRaiseType : NeverRefuses (Tx.orRaise found (.typeError message)) :=
  .orRaise Bool.false_ne_true

theorem reads_raiseIf {error : Option ActError} : Tx.Reads apply (raiseIf error) := by
  cases error with
  | none => exact .done
  | some error => exact .raise

theorem reads_raiseFirst (hc : Tx.Reads apply check) : Tx.Reads apply (raiseFirst check) := by
  refine .bind hc fun violations => ?_
  cases violations with
  | nil => exact .done
  | cons violation rest => exact .raise

theorem reads_checkC6 : Tx.Reads apply (checkC6DependsOnAcyclic dependentId dependencyId) := by
  unfold checkC6DependsOnAcyclic
  split
  · exact .done
  · exact .bind .read fun _ => .done

theorem reads_validateReferences : Tx.Reads apply (validateCommitmentCreateReferences input) :=
  .bind (.forEach fun _ => .require) fun _ => .bind (.forEach fun _ => .require) fun _ =>
    .bind (.forEach fun _ => .require) fun _ => .bind (.forEach fun _ => .require) fun _ =>
      .forEach fun _ => .require

theorem reads_anyUnsatisfied : Tx.Reads apply (anyUnsatisfied dependencies) := by
  induction dependencies with
  | nil => exact .done
  | cons dependencyId rest ih =>
    refine .bind .read fun unsatisfied => ?_
    cases unsatisfied with
    | true => exact .done
    | false => exact ih

theorem reads_resolveEffectiveInitialState :
    Tx.Reads apply (resolveEffectiveInitialState input) := by
  unfold resolveEffectiveInitialState
  split
  · exact .done
  · exact .bind reads_anyUnsatisfied fun _ => .done

theorem reads_requireActiveOwner : Tx.Reads apply (requireActiveOwner row newState) := by
  unfold requireActiveOwner
  split
  · exact .done
  · exact .when .require

theorem reads_requireBlockedReason : Tx.Reads apply (requireBlockedReason commitmentId) :=
  .bind .read fun _ => .bind .read fun _ => .ensure

theorem createGoal_refusesFirst : RefusesFirst (createGoal clock a) := by
  have hp : Tx.Reads apply (validateParentGoal a) := by
    unfold validateParentGoal
    split
    · exact .done
    · exact .require
  exact Tx.Reads.ensure.bind_failsFirst fun _ => hp.bind_failsFirst fun _ =>
    Tx.Reads.newId.bind_failsFirst fun _ => Tx.FailsFirst.query.bind_never fun _ =>
      .bind never_emitStateChange fun _ => .done

theorem transitionGoal_refusesFirst {newState : GoalState}
    {cause : Option Nat} : RefusesFirst (transitionGoal clock goalId newState cause) :=
  Tx.Reads.readLocking.bind_failsFirst fun _ => Tx.Reads.orRaise.bind_failsFirst fun _ =>
    Tx.Reads.ensure.bind_failsFirst fun _ =>
      (Tx.Reads.when .require).bind_failsFirst fun _ => Tx.FailsFirst.query.bind_never fun _ =>
        .bind never_emitStateChange fun _ => never_orRaiseType

theorem insertDependsOnEdge_refusesFirst :
    RefusesFirst (insertDependsOnEdge dependentId dependencyId) :=
  (reads_raiseFirst reads_checkC6).bind_failsFirst fun _ => Tx.FailsFirst.query

theorem addEdge_refusesFirst {a : EdgeArgs} : RefusesFirst (addEdge a) := by
  unfold addEdge
  cases a.kind with
  | contributesTo =>
    cases a.commitmentId with
    | none => exact Tx.Reads.raise.failsFirst
    | some commitmentId =>
      cases a.goalId with
      | none => exact Tx.Reads.raise.failsFirst
      | some goalId =>
        have ha : Tx.Reads apply
            (requireContributesToAllowed commitmentId goalId a.isCriticalPath) :=
          .bind .readLocking fun _ => .bind .orRaise fun _ => .bind .readLocking fun _ =>
            reads_raiseIf
        exact ha.bind_failsFirst fun _ => Tx.FailsFirst.query.bind_never fun _ =>
          .bind .read fun _ => .bind never_orRaiseType fun _ => .done
  | dependsOn =>
    cases a.dependentCommitmentId with
    | none => exact Tx.Reads.raise.failsFirst
    | some dependentId =>
      cases a.dependencyCommitmentId with
      | none => exact Tx.Reads.raise.failsFirst
      | some dependencyId =>
        exact insertDependsOnEdge_refusesFirst.bind_never fun _ =>
          .bind .read fun _ => .bind never_orRaiseType fun _ => .done
  | constrainedBy =>
    cases a.commitmentId with
    | none => exact Tx.Reads.raise.failsFirst
    | some commitmentId =>
      cases a.decisionId with
      | none => exact Tx.Reads.raise.failsFirst
      | some decisionId =>
        exact Tx.FailsFirst.query.bind_never fun _ =>
          .bind .read fun _ => .bind never_orRaiseType fun _ => .done

def Insertable (db : Db) (commitmentId : Nat) (row : CommitmentRow) : Prop :=
  db.commitments.get commitmentId = none ∧ row.tenantId ∈ db.tenants ∧
    referenceHolds (fun actor => (db.actors.get actor).isSome) row.ownerId ∧
    referenceHolds (fun model => model ∈ db.models) row.lastConfidenceBasis

structure CreateInserts (clock : Clock) (args : CommitmentCreate) (db : Db) (commitmentId : Nat)
    (input : CommitmentCreateInput) : Prop where
  prepared : prepareCommitmentCreateInput clock.processNow args = .ok input
  references : ReferencesHold db input
  insertable : Insertable db commitmentId (input.row clock (input.effectiveInitial db))

/-- A creation that refuses when the row is already there: G4 on the critical path of an
achieved goal, or C6 on a dependency that reaches the new id. -/
inductive LateCreate (clock : Clock) (args : CommitmentCreate) (db : Db)
    (commitmentId : Nat) : Prop where
  | criticalPath (input : CommitmentCreateInput) (item : GoalItem)
      (hinserts : CreateInserts clock args db commitmentId input)
      (hitem : item ∈ input.contributesToGoalIds) (hcritical : item.edgeParts.2)
      (hachieved : (db.goals.get item.edgeParts.1).map GoalRow.state = some .achieved)
      (hopen : input.effectiveInitial db ≠ .doneverified)
  | cycle (input : CommitmentCreateInput) (dependencyId : Nat)
      (hinserts : CreateInserts clock args db commitmentId input)
      (hdependency : dependencyId ∈ input.dependsOnCommitmentIds)
      (hcycle : ¬ db.acceptsDependency commitmentId dependencyId)

theorem criticalPathError_ne_none (he : criticalPathError goalId s goal = some error) :
    goal = some .achieved ∧ s ≠ .doneverified := by
  unfold criticalPathError at he
  split at he
  · split at he
    · next hs => exact ⟨rfl, hs⟩
    · cases he
  · cases he

theorem raises_insertContributesToEdge
    (hrs : Tx.Raises apply (insertContributesToEdge commitmentId s item) db supply error)
    (hr : error.isRefusal) : item.edgeParts.2 ∧
      (db.goals.get item.edgeParts.1).map GoalRow.state = some .achieved ∧ s ≠ .doneverified := by
  rcases raises_bind.mp hrs with hg | ⟨_, _, _, -, hi⟩
  · obtain ⟨hc, hg⟩ := raises_when.mp hg
    unfold fetchGoalForUpdate at hg
    simp only [bind_eq_bind] at hg
    rw [raises_readLocking_bind] at hg
    cases hf : criticalPathError item.edgeParts.1 s
        ((db.goals.get item.edgeParts.1).map GoalRow.state) with
    | none =>
      rw [hf] at hg
      exact absurd hg raises_done
    | some found => exact ⟨hc, criticalPathError_ne_none hf⟩
  · exact absurd hr (never_insertContributesTo _ _ error hi)

theorem raises_insertDependsOnEdge
    (hrs : Tx.Raises apply (insertDependsOnEdge dependentId dependencyId) db supply error)
    (hr : error.isRefusal) : ¬ db.acceptsDependency dependentId dependencyId := by
  intro ha
  rcases raises_bind.mp hrs with hg | ⟨_, _, _, -, hi⟩
  · have hp : Tx.Returns apply
        (raiseFirst (checkC6DependsOnAcyclic dependentId dependencyId)) db supply () db supply :=
      returns_dependencyGuard.mpr ⟨ha, rfl, rfl⟩
    exact hg.not_returns hp
  · exact absurd hr (never_insertDependsOn _ _ error hi)

theorem reflTransGen_of_added
    (had : ∀ a b, second a b → first a b ∨ a = node) (hp : ReflTransGen second start node) :
    ReflTransGen first start node := by
  induction hp using ReflTransGen.head_induction_on with
  | refl => exact .refl
  | head hs _ ih =>
    rcases had _ _ hs with ho | rfl
    · exact ih.head ho
    · exact .refl

structure CreateKeeps (db : Db) (commitmentId : Nat) (middle : Db) : Prop where
  goals : middle.goals = db.goals
  dependsOn : ∀ a b, middle.DependsOn a b → db.DependsOn a b ∨ a = commitmentId

theorem CreateKeeps.insertContributor (hk : CreateKeeps db commitmentId middle)
    (hr : Tx.Returns apply (insertContributor commitmentId actorId role) middle supply ()
      after left) : CreateKeeps db commitmentId after := by
  obtain ⟨rfl, -⟩ := insertContributor_effect hr
  exact ⟨hk.goals, hk.dependsOn⟩

theorem CreateKeeps.insertContributesToEdge (hk : CreateKeeps db commitmentId middle)
    (hr : Tx.Returns apply (insertContributesToEdge commitmentId s item) middle supply
      () after left) : CreateKeeps db commitmentId after := by
  obtain ⟨rfl, -⟩ := insertContributesToEdge_effect hr
  exact ⟨hk.goals, hk.dependsOn⟩

theorem CreateKeeps.insertDependsOnEdge (hk : CreateKeeps db commitmentId middle)
    (hr : Tx.Returns apply (insertDependsOnEdge commitmentId dependencyId) middle supply
      () after left) : CreateKeeps db commitmentId after := by
  obtain ⟨-, rfl, -, -⟩ := returns_insertDependsOnEdge.mp hr
  refine ⟨hk.goals, fun a b he => ?_⟩
  by_cases hn : a = commitmentId
  · exact .inr hn
  · refine hk.dependsOn a b ?_
    simpa [Db.DependsOn, apply, Table.get_insertNew, hn] using he

theorem lateCreate_of_raises (hin : CreateInserts clock a db commitmentId input)
    (hkp : CreateKeeps db commitmentId inserted) (hr : error.isRefusal) (hn : NeverRefuses rest)
    (hrs : Tx.Raises apply ((Tx.forEach input.contributors fun contributor =>
        insertContributor commitmentId contributor.1 contributor.2).bind fun _ =>
      (Tx.forEach input.contributesToGoalIds
        (insertContributesToEdge commitmentId (input.effectiveInitial db))).bind fun _ =>
      (Tx.forEach input.dependsOnCommitmentIds (insertDependsOnEdge commitmentId)).bind fun _ =>
        rest) inserted supply error) :
    LateCreate clock a db commitmentId := by
  rcases raises_bind.mp hrs with hc | ⟨_, _, _, hc, hrs⟩
  · refine absurd hr ((?_ : NeverRefuses _) _ _ error hc)
    exact .forEach fun _ => never_insertContributor
  have hkp := forEach_invariant (fun _ _ _ _ _ hk => hk.insertContributor) hkp hc
  rcases raises_bind.mp hrs with hg | ⟨_, _, _, hg, hrs⟩
  · obtain ⟨item, hi, middle, k, hm, hb⟩ :=
      raises_forEach (fun _ _ _ _ _ hk => hk.insertContributesToEdge) hkp hg
    obtain ⟨hcr, hac, ho⟩ := raises_insertContributesToEdge hb hr
    rw [hm.goals] at hac
    exact .criticalPath input item hin hi hcr hac ho
  have hkp := forEach_invariant (fun _ _ _ _ _ hk => hk.insertContributesToEdge) hkp hg
  rcases raises_bind.mp hrs with hd | ⟨_, _, _, -, hrs⟩
  · obtain ⟨dependencyId, hdp, middle, k, hm, hb⟩ :=
      raises_forEach (fun _ _ _ _ _ hk => hk.insertDependsOnEdge) hkp hd
    refine .cycle input dependencyId hin hdp fun ha => ?_
    exact raises_insertDependsOnEdge hb hr fun hp =>
      ha (reflTransGen_of_added hm.dependsOn hp)
  exact absurd hr (hn _ _ error hrs)

theorem createCommitment_refusesFirst (hl : ¬ LateCreate clock a db supply) :
    RefusesFirstAt (createCommitment clock a) db supply := by
  refine Tx.Reads.ofExcept.bind_at fun input _ hp => ?_
  obtain ⟨hpr, -, rfl⟩ := returns_ofExcept.mp hp
  refine reads_validateReferences.bind_at fun _ _ hv => ?_
  obtain ⟨hr, -, rfl⟩ := returns_validateReferences hv
  refine Tx.Reads.newId.bind_at fun commitmentId _ hid => ?_
  obtain ⟨rfl, -, rfl⟩ := returns_newId.mp hid
  refine reads_resolveEffectiveInitialState.bind_at fun effective _ hre => ?_
  obtain ⟨rfl, -, rfl⟩ := returns_resolveEffectiveInitialState.mp hre
  refine Tx.FailsFirst.query.bind_at fun _ inserted _ error hi hrs hrf => hl ?_
  obtain ⟨hc, rfl, rfl⟩ := returns_constrained.mp hi
  have hin : CreateInserts clock a db supply input := by
    refine ⟨hpr, hr, ?_⟩
    simpa [Insertable] using hc
  have hk : CreateKeeps db supply
      (db.apply (.insertCommitment supply (input.row clock (input.effectiveInitial db)))) :=
    ⟨rfl, fun _ _ => Or.inl⟩
  refine lateCreate_of_raises hin hk hrf ?_ hrs
  exact .bind (.forEach fun _ => never_insertConstrainedBy) fun _ => .bind never_emitStateChange
    fun _ => .bind .read fun _ => .bind never_orRaiseType fun _ => .done

/-- A transition that refuses when the state is already set: every check before the
UPDATE passes, and C10 fails on what it leaves. -/
structure LateTransition (commitmentId : Nat) (newState : CommitmentState) (args : TransitionArgs)
    (db : Db) (row : CommitmentRow) : Prop where
  found : db.commitments.get commitmentId = some row
  opens : newState.isOpen
  moves : checkCommitmentMove commitmentId row newState args.causeEventId = .ok ()
  owner : ∀ ownerId, row.ownerId = some ownerId →
    (db.actors.get ownerId).bind ActorRow.status = some .active
  reason : newState = .blocked → db.unsatisfiedDependencies commitmentId ≠ 0 ∨
    db.revisitedConstrainingDecisions commitmentId ≠ 0
  basis : referenceHolds (fun model => model ∈ db.models)
    (args.lastConfidenceBasis <|> row.lastConfidenceBasis)
  idle : row.countsAsMaintenance = false ∧ db.contributions commitmentId = 0

theorem returns_requireActiveOwner (ho : newState ≠ .closed)
    (hr : Tx.Returns apply (requireActiveOwner row newState) db supply r after left) :
    ∀ ownerId, row.ownerId = some ownerId →
      (db.actors.get ownerId).bind ActorRow.status = some .active := by
  intro ownerId how
  simp only [requireActiveOwner, how, returns_when, returns_requireActiveActor] at hr
  rcases hr with ⟨-, ha, -⟩ | ⟨hc, -⟩
  · exact ha
  · exact absurd (of_decide_eq_false hc) (not_not.mpr ho)

theorem raises_checkC10
    (hrs : Tx.Raises apply (raiseFirst (checkC10ContributesOrMaintenance commitmentId)) db
      supply error) :
    ∃ row, db.commitments.get commitmentId = some row ∧ row.countsAsMaintenance = false ∧
      db.contributions commitmentId = 0 := by
  by_contra hn
  have hs : db.SatisfiesC10 commitmentId := by
    intro row hr _
    by_contra hi
    obtain ⟨hm, hc⟩ := not_or.mp hi
    exact hn ⟨row, hr, by simpa using hm, not_not.mp hc⟩
  have hp : Tx.Returns apply (raiseFirst (checkC10ContributesOrMaintenance commitmentId)) db
      supply () db supply := returns_raiseFirst.mpr (returns_checkC10.mpr ⟨hs, rfl, rfl⟩)
  exact hrs.not_returns hp

theorem transitionCommitment_refusesFirst
    (hl : ∀ row, ¬ LateTransition commitmentId newState a db row) :
    RefusesFirstAt (transitionCommitment clock commitmentId newState a) db supply := by
  refine Tx.Reads.readLocking.bind_at fun found _ hft => ?_
  obtain ⟨rfl, -, rfl⟩ := returns_readLocking.mp hft
  refine Tx.Reads.orRaise.bind_at fun row _ hr => ?_
  obtain ⟨hf, -, rfl⟩ := returns_orRaise.mp hr
  refine Tx.Reads.ofExcept.bind_at fun _ _ hch => ?_
  obtain ⟨hm, -, rfl⟩ := returns_ofExcept.mp hch
  refine reads_requireActiveOwner.bind_at fun _ _ how => ?_
  refine Tx.Reads.ensure.bind_at fun _ _ hres => ?_
  refine (Tx.Reads.when reads_requireBlockedReason).bind_at fun _ _ hbl => ?_
  refine Tx.FailsFirst.query.bind_at fun updated moved _ error hu hrs hrf => ?_
  have hre : newState = .blocked → db.unsatisfiedDependencies commitmentId ≠ 0 ∨
      db.revisitedConstrainingDecisions commitmentId ≠ 0 := by
    intro hst
    exact (hbl.of_when returns_requireBlockedReason.mp).1 (decide_eq_true hst)
  obtain ⟨ws, ha, rfl, -⟩ := returns_query.mp hu
  split at ha
  case isFalse => cases ha
  case isTrue hbs =>
    cases ha
    rcases raises_bind.mp hrs with hch | ⟨_, _, _, -, hrs⟩
    · obtain ⟨ho, hch⟩ := raises_when.mp hch
      obtain ⟨stored, hsto, hmn, hc⟩ := raises_checkC10 hch
      have hcl : newState ≠ .closed := by
        rintro rfl
        cases ho
      simp only [List.foldl_cons, List.foldl_nil, apply, Table.get_update, if_true, hf,
        Option.map_some, Option.some.injEq] at hsto
      subst hsto
      exact hl row ⟨hf, ho, hm, returns_requireActiveOwner hcl how, hre, hbs, hmn, hc⟩
    · rcases raises_bind.mp hrs with he | ⟨_, _, _, -, hrs⟩
      · exact never_emitStateChange _ _ error he hrf
      · exact never_orRaiseType _ _ error hrs hrf

end FyralisCore.Acts
