import FyralisCore.Acts.Calls

/-! What the statements of each function lock and write, for any property `ok`
of a statement. A section names the statements that the property must allow. -/
namespace FyralisCore.Acts

open Relational Transaction

variable {ok : Db → Option RowRef → List Write → Prop}

structure AllowsReads (ok : Db → Option RowRef → List Write → Prop) : Prop where
  plain : ∀ db, ok db none []
  lockGoal : ∀ db goalId, ok db (Db.lockGoal goalId db) []
  lockCommitment : ∀ db commitmentId, ok db (Db.lockCommitment commitmentId db) []

theorem constrained_eachStatement {constraints : Db → List (Bool × ConstraintViolation)}
    {w : Write} (hreads : AllowsReads ok) (hw : ∀ db, ok db none [w]) :
    (Tx.query (fun _ => none) fun db =>
      constrained (constraints db) [w] : ActTx Unit).EachStatement ok := by
  refine .query (fun db ws v ha => ?_) fun db _ _ => hreads.plain db
  obtain ⟨-, hp⟩ := (constrained_eq_ok_iff _ _ _).mp ha
  cases hp
  exact hw db

theorem insertIgnore_eachStatement {present : Db → Bool}
    {constraints : Db → List (Bool × ConstraintViolation)} {w : Write}
    (hreads : AllowsReads ok) (hw : ∀ db, ok db none [w]) : (Tx.query (fun _ => none) fun db =>
      if present db then .ok ([], ())
      else constrained (constraints db) [w] : ActTx Unit).EachStatement ok := by
  refine .query (fun db ws v ha => ?_) fun db _ _ => hreads.plain db
  split at ha
  · cases ha
    exact hreads.plain db
  · obtain ⟨-, hp⟩ := (constrained_eq_ok_iff _ _ _).mp ha
    cases hp
    exact hw db

theorem raiseIf_eachStatement (error : Option ActError) : (raiseIf error).EachStatement ok := by
  cases error <;> trivial

theorem raiseFirst_eachStatement
    (hc : check.EachStatement ok) : (raiseFirst check).EachStatement ok :=
  hc.bind fun violations => by cases violations <;> trivial

section Reads

variable (hreads : AllowsReads ok)
include hreads

theorem requireActiveActor_eachStatement (role : String) (actorId : Nat) :
    (requireActiveActor role actorId).EachStatement ok :=
  .require hreads.plain

theorem requireTenant_eachStatement (tenantOf : Db → Nat → Option Nat)
    (missing foreign field : String) (tenantId id : Nat) :
    (requireTenant tenantOf missing foreign field tenantId id).EachStatement ok :=
  .require hreads.plain

theorem validateReferences_eachStatement (input : CommitmentCreateInput) :
    (validateCommitmentCreateReferences input).EachStatement ok :=
  .bind (.forEach (requireActiveActor_eachStatement hreads _)) fun _ =>
    .bind (.forEach fun _ => requireActiveActor_eachStatement hreads _ _) fun _ =>
      .bind (.forEach fun _ => requireTenant_eachStatement hreads _ _ _ _ _ _) fun _ =>
        .bind (.forEach (requireTenant_eachStatement hreads _ _ _ _ _)) fun _ =>
          .forEach (requireTenant_eachStatement hreads _ _ _ _ _)

theorem anyUnsatisfied_eachStatement (dependencies : List Nat) :
    (anyUnsatisfied dependencies).EachStatement ok := by
  induction dependencies with
  | nil => trivial
  | cons dependencyId rest ih =>
    refine Tx.EachStatement.bind (.read hreads.plain) fun unsatisfied => ?_
    cases unsatisfied with
    | true => trivial
    | false => exact ih

theorem resolveEffectiveInitialState_eachStatement (input : CommitmentCreateInput) :
    (resolveEffectiveInitialState input).EachStatement ok := by
  unfold resolveEffectiveInitialState
  split
  · trivial
  · exact (anyUnsatisfied_eachStatement hreads _).bind fun _ => trivial

theorem checkC6_eachStatement (dependentId dependencyId : Nat) :
    (checkC6DependsOnAcyclic dependentId dependencyId).EachStatement ok := by
  unfold checkC6DependsOnAcyclic
  split
  · trivial
  · exact Tx.EachStatement.bind (.read hreads.plain) fun _ => trivial

theorem checkC10_eachStatement (commitmentId : Nat) :
    (checkC10ContributesOrMaintenance commitmentId).EachStatement ok := by
  refine Tx.EachStatement.bind (.read hreads.plain) fun found => ?_
  cases found with
  | none => trivial
  | some row =>
    dsimp only
    split
    · trivial
    · split
      · trivial
      · exact Tx.EachStatement.bind (.read hreads.plain) fun _ => trivial

theorem requireActiveOwner_eachStatement (row : CommitmentRow) (newState : CommitmentState) :
    (requireActiveOwner row newState).EachStatement ok := by
  unfold requireActiveOwner
  split
  · trivial
  · exact .when (requireActiveActor_eachStatement hreads _ _)

theorem requireBlockedReason_eachStatement (commitmentId : Nat) :
    (requireBlockedReason commitmentId).EachStatement ok :=
  .bind (.read hreads.plain) fun _ => .bind (.read hreads.plain) fun _ => .ensure

theorem requireGoalCanAcceptCriticalPath_eachStatement (goalId : Nat) (s : CommitmentState)
    (critical : Bool) : (requireGoalCanAcceptCriticalPath goalId s critical).EachStatement ok :=
  .when (.bind (.readLocking fun db => hreads.lockGoal db goalId) fun _ =>
    raiseIf_eachStatement _)

theorem validateParentGoal_eachStatement (a : GoalCreate) :
    (validateParentGoal a).EachStatement ok := by
  unfold validateParentGoal
  split
  · trivial
  · exact .require hreads.plain

theorem requireContributesToAllowed_eachStatement (commitmentId goalId : Nat) (critical : Bool) :
    (requireContributesToAllowed commitmentId goalId critical).EachStatement ok :=
  .bind (.readLocking fun db => hreads.lockCommitment db commitmentId) fun _ =>
    .bind .orRaise fun _ => .bind (.readLocking fun db => hreads.lockGoal db goalId) fun _ =>
      raiseIf_eachStatement _

theorem emitStateChange_eachStatement
    (ho : ∀ db id row, ok db none [.insertObservation id row]) (clock : Clock)
    (tenantId : Nat) (entityKind : EntityKind) (entityId : Nat) (fromState : Option String)
    (toState : String) (causeEventId : Option Nat) :
    (emitStateChange clock tenantId entityKind entityId fromState toState
      causeEventId).EachStatement ok :=
  .bind .newId fun _ =>
    .bind (constrained_eachStatement hreads fun db => ho db _ _) fun _ => trivial

theorem insertContributor_eachStatement (hc : ∀ db commitmentId actorId role,
      ok db none [.insertContributor commitmentId actorId role])
    (commitmentId actorId : Nat) (role : Option String) :
    (insertContributor commitmentId actorId role).EachStatement ok :=
  insertIgnore_eachStatement hreads fun db => hc db _ _ _

theorem insertConstrainedBy_eachStatement (hc : ∀ db commitmentId decisionId,
      ok db none [.insertConstrainedBy commitmentId decisionId]) (commitmentId decisionId : Nat) :
    (insertConstrainedBy commitmentId decisionId).EachStatement ok :=
  insertIgnore_eachStatement hreads fun db => hc db _ _

theorem insertDependsOnEdge_eachStatement (hd : ∀ db dependentId dependencyId,
      ok db none [.insertDependsOn dependentId dependencyId]) (dependentId dependencyId : Nat) :
    (insertDependsOnEdge dependentId dependencyId).EachStatement ok :=
  .bind (raiseFirst_eachStatement (checkC6_eachStatement hreads _ _)) fun _ =>
    insertIgnore_eachStatement hreads fun db => hd db _ _

theorem insertContributesTo_eachStatement (hc : ∀ db commitmentId goalId critical,
      ok db none [.insertContributesTo commitmentId goalId critical])
    (commitmentId goalId : Nat) (critical : Bool) :
    (insertContributesTo commitmentId goalId critical).EachStatement ok :=
  insertIgnore_eachStatement hreads fun db => hc db _ _ _

theorem createGoal_eachStatement (hg : ∀ db id row, ok db none [.insertGoal id row])
    (ho : ∀ db id row, ok db none [.insertObservation id row]) (clock : Clock)
    (a : GoalCreate) : (createGoal clock a).EachStatement ok :=
  .bind .ensure fun _ =>
    .bind (validateParentGoal_eachStatement hreads a) fun _ =>
      .bind .newId fun _ =>
        .bind (constrained_eachStatement hreads fun db => hg db _ _) fun _ =>
          .bind (emitStateChange_eachStatement hreads ho _ _ _ _ _ _ _) fun _ => trivial

theorem transitionGoal_eachStatement (hm : ∀ db goalId s now archive,
      ok db (Db.lockGoal goalId db) [.setGoalState goalId s now archive])
    (ho : ∀ db id row, ok db none [.insertObservation id row]) (clock : Clock)
    (goalId : Nat) (newState : GoalState) (causeEventId : Option Nat) :
    (transitionGoal clock goalId newState causeEventId).EachStatement ok := by
  have hu : (updateGoalState clock goalId newState).EachStatement ok := by
    refine .query (fun db ws v ha => ?_) (fun db error ha => nomatch ha)
    cases ha
    exact hm db _ _ _ _
  exact .bind (.readLocking fun db => hreads.lockGoal db goalId) fun _ =>
    .bind .orRaise fun _ => .bind .ensure fun _ =>
      .bind (.when (.require hreads.plain)) fun _ =>
        .bind hu fun _ =>
          .bind (emitStateChange_eachStatement hreads ho _ _ _ _ _ _ _) fun _ => .orRaise

theorem addContributesTo_eachStatement (hc : ∀ db commitmentId goalId critical,
      ok db none [.insertContributesTo commitmentId goalId critical])
    (commitmentId goalId : Nat) (critical : Bool) :
    (addContributesTo commitmentId goalId critical).EachStatement ok :=
  .bind (requireContributesToAllowed_eachStatement hreads _ _ _) fun _ =>
    .bind (insertContributesTo_eachStatement hreads hc _ _ _) fun _ =>
      .bind (.read hreads.plain) fun _ => .bind .orRaise fun _ => trivial

theorem addDependsOn_eachStatement (hd : ∀ db dependentId dependencyId,
      ok db none [.insertDependsOn dependentId dependencyId])
    (dependentId dependencyId : Nat) : (addDependsOn dependentId dependencyId).EachStatement ok :=
  .bind (insertDependsOnEdge_eachStatement hreads hd _ _) fun _ =>
    .bind (.read hreads.plain) fun _ => .bind .orRaise fun _ => trivial

theorem addConstrainedBy_eachStatement (hc : ∀ db commitmentId decisionId,
      ok db none [.insertConstrainedBy commitmentId decisionId]) (commitmentId decisionId : Nat) :
    (addConstrainedBy commitmentId decisionId).EachStatement ok :=
  .bind (insertConstrainedBy_eachStatement hreads hc _ _) fun _ =>
    .bind (.read hreads.plain) fun _ => .bind .orRaise fun _ => trivial

theorem addEdge_eachStatement (hct : ∀ db commitmentId goalId critical,
      ok db none [.insertContributesTo commitmentId goalId critical])
    (hd : ∀ db dependentId dependencyId, ok db none [.insertDependsOn dependentId dependencyId])
    (hc : ∀ db commitmentId decisionId, ok db none [.insertConstrainedBy commitmentId decisionId])
    (a : EdgeArgs) : (addEdge a).EachStatement ok := by
  unfold addEdge
  split
  · split
    · exact addContributesTo_eachStatement hreads hct _ _ _
    · trivial
  · split
    · exact addDependsOn_eachStatement hreads hd _ _
    · trivial
  · split
    · exact addConstrainedBy_eachStatement hreads hc _ _
    · trivial

end Reads

end FyralisCore.Acts
