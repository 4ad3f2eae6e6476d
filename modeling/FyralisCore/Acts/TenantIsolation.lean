import FyralisCore.Acts.Calls

/-! Tenants of the act graph. Creation and `contributes_to` compare the tenants
of the rows they join; `add_edge` for `depends_on` and `constrained_by` does
not, and an accepted call of these kinds is the only step that can join two
tenants. -/
namespace FyralisCore.Acts

open Relational Transaction Option Table Transition Db

def SameTenant (first second : Option Nat) : Prop :=
  ∃ tenantId, first = some tenantId ∧ second = some tenantId

structure Db.TenantClosed (db : Db) : Prop where
  contributesTo : ∀ commitmentId goalId critical,
    db.contributesTo.get (commitmentId, goalId) = some critical →
      SameTenant (db.commitmentTenant commitmentId) (db.goalTenant goalId)
  dependsOn : ∀ dependentId dependencyId, db.DependsOn dependentId dependencyId →
    SameTenant (db.commitmentTenant dependentId) (db.commitmentTenant dependencyId)
  constrainedBy : ∀ commitmentId decisionId,
    db.constrainedBy.get (commitmentId, decisionId) = some () →
      SameTenant (db.commitmentTenant commitmentId) (db.decisionTenant decisionId)

/-- What a step must do for the edges to stay inside their tenants: keep the
tenants of the rows, and join only rows of one tenant by a new edge. -/
structure TenantStep (db after : Db) : Prop where
  goals : ∀ goalId tenantId, db.goalTenant goalId = some tenantId →
    after.goalTenant goalId = some tenantId
  commitments : ∀ commitmentId tenantId, db.commitmentTenant commitmentId = some tenantId →
    after.commitmentTenant commitmentId = some tenantId
  decisions : after.decisions = db.decisions
  contributesTo : ∀ commitmentId goalId critical,
    after.contributesTo.get (commitmentId, goalId) = some critical →
      db.contributesTo.get (commitmentId, goalId) = some critical ∨
        SameTenant (after.commitmentTenant commitmentId) (after.goalTenant goalId)
  dependsOn : ∀ dependentId dependencyId, after.DependsOn dependentId dependencyId →
    db.DependsOn dependentId dependencyId ∨
      SameTenant (after.commitmentTenant dependentId) (after.commitmentTenant dependencyId)
  constrainedBy : ∀ commitmentId decisionId,
    after.constrainedBy.get (commitmentId, decisionId) = some () →
      db.constrainedBy.get (commitmentId, decisionId) = some () ∨
        SameTenant (after.commitmentTenant commitmentId) (after.decisionTenant decisionId)

theorem SameTenant.imp (hs : SameTenant first second)
    (h1 : ∀ tenantId, first = some tenantId → first' = some tenantId)
    (h2 : ∀ tenantId, second = some tenantId → second' = some tenantId) :
    SameTenant first' second' := by
  obtain ⟨tenantId, ho, ht⟩ := hs
  exact ⟨tenantId, h1 _ ho, h2 _ ht⟩

theorem Db.TenantClosed.step (hc : db.TenantClosed)
    (hs : TenantStep db after) : after.TenantClosed where
  contributesTo := by
    intro commitmentId goalId critical he
    rcases hs.contributesTo _ _ _ he with ho | hn
    · exact (hc.contributesTo _ _ _ ho).imp (hs.commitments _) (hs.goals _)
    · exact hn
  dependsOn := by
    intro dependentId dependencyId he
    rcases hs.dependsOn _ _ he with ho | hn
    · exact (hc.dependsOn _ _ ho).imp (hs.commitments _) (hs.commitments _)
    · exact hn
  constrainedBy := by
    intro commitmentId decisionId he
    rcases hs.constrainedBy _ _ he with ho | hn
    · refine (hc.constrainedBy _ _ ho).imp (hs.commitments _) fun tenantId => ?_
      rw [decisionTenant, decisionTenant, hs.decisions]
      exact id
    · exact hn

variable {db after : Db} {clock : Clock} {supply left : Nat}

theorem createGoal_tenantStep (hr : Tx.Returns apply (createGoal clock a) db supply r after left) :
    TenantStep db after := by
  obtain ⟨-, hf, observation, rfl⟩ := createGoal_effect hr
  refine ⟨fun goalId tenantId ht => ?_, fun _ _ => id, rfl, fun _ _ _ => Or.inl,
    fun _ _ => Or.inl, fun _ _ => Or.inl⟩
  have hn : goalId ≠ supply := by
    rintro rfl
    rw [goalTenant, hf] at ht
    cases ht
  simpa [goalTenant, apply, get_insertNew, hn] using ht

theorem transitionGoal_tenantStep
        (hr : Tx.Returns apply (transitionGoal clock goalId newState causeEventId)
      db supply r after left) : TenantStep db after := by
  obtain ⟨row, -, -, -, observation, rfl⟩ := transitionGoal_effect hr
  refine ⟨fun otherId tenantId ht => ?_, fun _ _ => id, rfl, fun _ _ _ => Or.inl,
    fun _ _ => Or.inl, fun _ _ => Or.inl⟩
  obtain ⟨other, ho, rfl⟩ := map_eq_some_iff.mp ht
  simp only [goalTenant, apply, get_update, ho]
  split <;> rfl

variable {commitmentId : Nat} {call : ActCall}

theorem transitionCommitment_tenantStep
    (hr : Tx.Returns apply (transitionCommitment clock commitmentId newState a)
      db supply r after left) : TenantStep db after := by
  obtain ⟨row, hm, -⟩ := transitionCommitment_effect hr
  obtain ⟨observation, rfl⟩ := hm.after_eq
  refine ⟨fun _ _ => id, fun otherId tenantId ht => ?_, rfl, fun _ _ _ => Or.inl,
    fun _ _ => Or.inl, fun _ _ => Or.inl⟩
  obtain ⟨other, ho, rfl⟩ := map_eq_some_iff.mp ht
  simp only [commitmentTenant, apply, get_update, ho]
  split <;> rfl

theorem createCommitment_tenantStep
    (hr : Tx.Returns apply (createCommitment clock a) db supply r after left) :
    TenantStep db after := by
  obtain ⟨input, -, hcr, -⟩ := createCommitment_effect hr
  have hk : ∀ commitmentId tenantId, db.commitmentTenant commitmentId = some tenantId →
      after.commitmentTenant commitmentId = some tenantId := by
    intro commitmentId tenantId ht
    have hne : commitmentId ≠ supply := by
      rintro rfl
      rw [commitmentTenant, hcr.fresh] at ht
      cases ht
    rwa [commitmentTenant, hcr.get_after, if_neg hne]
  have hs : after.commitmentTenant supply = some input.tenantId := by
    rw [commitmentTenant, hcr.get_after, if_pos rfl, hcr.result_eq]
    rfl
  refine ⟨?_, hk, ?_, ?_, ?_, ?_⟩
  · obtain ⟨observation, rfl⟩ := hcr.after_eq
    exact fun _ _ => id
  · obtain ⟨observation, rfl⟩ := hcr.after_eq
    rfl
  · intro commitmentId goalId critical he
    have hg : after.goals = db.goals := by
      obtain ⟨observation, rfl⟩ := hcr.after_eq
      rfl
    have hc : db.contributesTo.get (commitmentId, goalId) = some critical ∨
        ((commitmentId, goalId), critical) ∈ input.contributesToGoalIds.map fun item =>
          ((supply, item.edgeParts.1), item.edgeParts.2) := by
      obtain ⟨observation, rfl⟩ := hcr.after_eq
      exact get_insertAll_cases _ he
    rcases hc with ho | hn
    · exact .inl ho
    · obtain ⟨item, hi, heq⟩ := List.mem_map.mp hn
      cases heq
      refine .inr ⟨input.tenantId, hs, ?_⟩
      rw [goalTenant, hg]
      exact hcr.references.goals item hi
  · intro dependentId dependencyId he
    rcases (hcr.dependsOn_after_iff _ _).mp he with ho | ⟨rfl, hn⟩
    · exact .inl ho
    · exact .inr ⟨input.tenantId, hs, hk _ _ (hcr.references.dependencies _ hn)⟩
  · intro commitmentId decisionId he
    have hd : after.decisions = db.decisions := by
      obtain ⟨observation, rfl⟩ := hcr.after_eq
      rfl
    rcases (hcr.constrainedBy_after_iff _ _).mp he with ho | ⟨rfl, hn⟩
    · exact .inl ho
    · refine .inr ⟨input.tenantId, hs, ?_⟩
      rw [decisionTenant, hd]
      exact hcr.references.decisions _ hn

theorem addContributesTo_tenantStep
    (hr : Tx.Returns apply (addContributesTo commitmentId goalId critical)
      db supply r after left) : TenantStep db after := by
  obtain ⟨rfl, -, tenantId, hc, hg⟩ := addContributesTo_effect hr
  refine ⟨fun _ _ => id, fun _ _ => id, rfl, fun otherId otherGoal flag he => ?_,
    fun _ _ => Or.inl, fun _ _ => Or.inl⟩
  simp only [apply, get_insertNew] at he
  split at he
  · next hn =>
    obtain ⟨rfl, rfl⟩ := Prod.mk.inj hn.1
    exact .inr ⟨tenantId, hc, hg⟩
  · exact .inl he

theorem addDependsOn_tenantStep (hs : db.DependsOn dependentId dependencyId ∨
      SameTenant (db.commitmentTenant dependentId) (db.commitmentTenant dependencyId)) :
    TenantStep db (db.apply (.insertDependsOn dependentId dependencyId)) := by
  refine ⟨fun _ _ => id, fun _ _ => id, rfl, fun _ _ _ => Or.inl, fun first second he => ?_,
    fun _ _ => Or.inl⟩
  simp only [Db.DependsOn, apply, get_insertNew] at he
  split at he
  · next hn =>
    obtain ⟨rfl, rfl⟩ := Prod.mk.inj hn.1
    exact hs
  · exact .inl he

theorem addConstrainedBy_tenantStep
    (hs : db.constrainedBy.get (commitmentId, decisionId) = some () ∨
      SameTenant (db.commitmentTenant commitmentId) (db.decisionTenant decisionId)) :
    TenantStep db (db.apply (.insertConstrainedBy commitmentId decisionId)) := by
  refine ⟨fun _ _ => id, fun _ _ => id, rfl, fun _ _ _ => Or.inl, fun _ _ => Or.inl,
    fun first second he => ?_⟩
  simp only [apply, get_insertNew] at he
  split at he
  · next hn =>
    obtain ⟨rfl, rfl⟩ := Prod.mk.inj hn.1
    exact hs
  · exact .inl he

/-- A `depends_on` edge between two commitments that the cycle guard accepts
joins commitments of one tenant. -/
def DependencyJoinsOneTenant (db : Db) (dependentId dependencyId : Nat) : Prop :=
  ∀ first second, db.commitmentTenant dependentId = some first →
    db.commitmentTenant dependencyId = some second →
    db.acceptsDependency dependentId dependencyId → first = second

def ConstraintJoinsOneTenant (db : Db) (commitmentId decisionId : Nat) : Prop :=
  ∀ first second, db.commitmentTenant commitmentId = some first →
    db.decisionTenant decisionId = some second → first = second

/-- The comparison that `add_edge` does not make, on its arguments. -/
def EdgeArgs.JoinsOneTenant (db : Db) (args : EdgeArgs) : Prop :=
  match args.kind with
  | .contributesTo => True
  | .dependsOn => ∀ dependentId dependencyId,
      args.dependentCommitmentId = some dependentId →
      args.dependencyCommitmentId = some dependencyId →
      DependencyJoinsOneTenant db dependentId dependencyId
  | .constrainedBy => ∀ commitmentId decisionId, args.commitmentId = some commitmentId →
      args.decisionId = some decisionId → ConstraintJoinsOneTenant db commitmentId decisionId

def ActCall.JoinsOneTenant (db : Db) : ActCall → Prop
  | .addEdge args => args.JoinsOneTenant db
  | _ => True

private theorem tenant_of_isSome (hb : (db.commitments.get commitmentId).isSome) :
    ∃ tenantId, db.commitmentTenant commitmentId = some tenantId := by
  obtain ⟨row, hr⟩ := isSome_iff_exists.mp hb
  exact ⟨row.tenantId, by rw [commitmentTenant, hr]; rfl⟩

theorem addEdge_tenantStep (hj : a.JoinsOneTenant db)
    (hrt : Tx.Returns apply (addEdge a) db supply r after left) :
    TenantStep db after := by
  unfold addEdge at hrt
  unfold EdgeArgs.JoinsOneTenant at hj
  split at hrt
  · split at hrt
    · exact addContributesTo_tenantStep hrt
    · exact absurd hrt Tx.returns_raise
  · next hk =>
    simp only [hk] at hj
    split at hrt
    · next dependentId dependencyId hd hdp =>
      obtain ⟨-, hi⟩ := returns_addDependsOn.mp hrt
      obtain ⟨ha, rfl, -, hcs⟩ := returns_insertDependsOnEdge.mp hi
      refine addDependsOn_tenantStep (hcs.imp_right ?_)
      rintro ⟨-, hb, hb'⟩
      obtain ⟨first, h1⟩ := tenant_of_isSome hb
      obtain ⟨second, h2⟩ := tenant_of_isSome hb'
      obtain rfl := hj _ _ hd hdp _ _ h1 h2 ha
      exact ⟨first, h1, h2⟩
    · exact absurd hrt Tx.returns_raise
  · next hk =>
    simp only [hk] at hj
    split at hrt
    · next commitmentId decisionId hc hdc =>
      obtain ⟨-, hi⟩ := returns_addConstrainedBy.mp hrt
      obtain ⟨rfl, -, hcs⟩ := returns_insertConstrainedBy.mp hi
      refine addConstrainedBy_tenantStep (hcs.imp_right ?_)
      rintro ⟨hb, hb'⟩
      obtain ⟨first, h1⟩ := tenant_of_isSome hb
      obtain ⟨row, hr⟩ := isSome_iff_exists.mp hb'
      have h2 : db.decisionTenant decisionId = some row.tenantId := by
        rw [decisionTenant, hr]; rfl
      obtain rfl := hj _ _ hc hdc _ _ h1 h2
      exact ⟨row.tenantId, h1, h2⟩
    · exact absurd hrt Tx.returns_raise

theorem run_tenantStep (hj : call.JoinsOneTenant db)
    (hr : Tx.Returns apply call.run db supply () after left) : TenantStep db after := by
  cases call <;> obtain ⟨_, hb⟩ := returns_ignore.mp hr
  case createGoal clock a =>
    exact createGoal_tenantStep hb
  case transitionGoal clock goalId newState causeEventId =>
    exact transitionGoal_tenantStep hb
  case createCommitment clock a =>
    exact createCommitment_tenantStep hb
  case transitionCommitment clock commitmentId newState a =>
    exact transitionCommitment_tenantStep hb
  case addEdge a =>
    exact addEdge_tenantStep hj hb

theorem call_tenantClosed {w : World} (hc : w.db.TenantClosed)
    (hj : call.JoinsOneTenant w.db) : (w.call call).db.TenantClosed := by
  rcases World.call_cases w call with hr | hs
  · exact hc.step (run_tenantStep hj hr)
  · rw [hs]
    exact hc

theorem joinsOneTenant_of_call {w : World}
    (ha : (w.call call).db.TenantClosed) : call.JoinsOneTenant w.db := by
  cases call with
  | addEdge a =>
    unfold ActCall.JoinsOneTenant EdgeArgs.JoinsOneTenant
    dsimp only
    split
    · trivial
    · next hk =>
      intro dependentId dependencyId hd hdp first second h1 h2 hac
      obtain ⟨row, hr, -⟩ := map_eq_some_iff.mp h1
      obtain ⟨row', hr', -⟩ := map_eq_some_iff.mp h2
      have hdf : dependentId ≠ dependencyId := by
        rintro rfl
        exact hac .refl
      have hrt : Tx.Returns apply (ActCall.addEdge a).run w.db w.supply ()
          (w.db.apply (.insertDependsOn dependentId dependencyId)) w.supply := by
        refine returns_ignore.mpr ⟨.dependsOn dependentId dependencyId, ?_⟩
        simp only [addEdge, hk, hd, hdp]
        exact returns_addDependsOn.mpr ⟨rfl, returns_insertDependsOnEdge.mpr
          ⟨hac, rfl, rfl, .inr ⟨hdf, by simp [hr], by simp [hr']⟩⟩⟩
      rw [World.call_of_returns hrt] at ha
      obtain ⟨tenantId, ho, ht⟩ := ha.dependsOn dependentId dependencyId (by
        simp [Db.DependsOn, apply, get_insertNew, eq_none_iff_forall_ne_some, Unique.forall_iff])
      exact (Option.some.inj (h1.symm.trans ho)).trans (Option.some.inj (h2.symm.trans ht)).symm
    · next hk =>
      intro commitmentId decisionId hc hdc first second h1 h2
      obtain ⟨row, hr, -⟩ := map_eq_some_iff.mp h1
      obtain ⟨row', hr', -⟩ := map_eq_some_iff.mp h2
      have hrt : Tx.Returns apply (ActCall.addEdge a).run w.db w.supply ()
          (w.db.apply (.insertConstrainedBy commitmentId decisionId)) w.supply := by
        refine returns_ignore.mpr ⟨.constrainedBy commitmentId decisionId, ?_⟩
        simp only [addEdge, hk, hc, hdc]
        exact returns_addConstrainedBy.mpr ⟨rfl, returns_insertConstrainedBy.mpr
          ⟨rfl, rfl, .inr ⟨by simp [hr], by simp [hr']⟩⟩⟩
      rw [World.call_of_returns hrt] at ha
      obtain ⟨tenantId, ho, ht⟩ := ha.constrainedBy commitmentId decisionId (by
        simp [apply, get_insertNew, eq_none_iff_forall_ne_some, Unique.forall_iff])
      exact (Option.some.inj (h1.symm.trans ho)).trans (Option.some.inj (h2.symm.trans ht)).symm
  | _ => trivial

/-- Runs whose calls join rows of one tenant keep the graph inside its tenants,
and the condition is exact at every step: a call keeps a closed graph closed
only if it meets it. -/
theorem tenantClosed_run {start world : World} (hclosed : start.db.TenantClosed)
    (hreach : Transition.Reach World.step (fun w call => call.JoinsOneTenant w.db) start world) :
    world.db.TenantClosed ∧
      ∀ call : ActCall, (world.call call).db.TenantClosed ↔ call.JoinsOneTenant world.db := by
  have hworld : world.db.TenantClosed := by
    refine hreach.invariant (P := fun w => w.db.TenantClosed) hclosed ?_
    intro w call next hw hjoins hstep
    cases hstep
    exact call_tenantClosed hw hjoins
  exact ⟨hworld, fun call => ⟨joinsOneTenant_of_call, call_tenantClosed hworld⟩⟩

/-! Two tenants without any rows, and a proposed commitment for each. -/

def twoTenants : World where
  db := { tenants := [1, 2] }
  supply := 10

def proposeFor (tenantId : Nat) : ActCall :=
  .createCommitment ⟨5, 5⟩ { title := "Renew the lease", createdByEventId := 9, tenantId }

theorem twoTenants_closed : twoTenants.db.TenantClosed where
  contributesTo := fun _ _ _ he => by cases he
  dependsOn := fun _ _ he => by cases he
  constrainedBy := fun _ _ he => by cases he

def dependency (dependentId dependencyId : Nat) : ActCall :=
  .addEdge { kind := .dependsOn, dependentCommitmentId := some dependentId,
             dependencyCommitmentId := some dependencyId }

/-- A dependency inside the first tenant is accepted, and one on the other tenant's commitment
would end the closure. -/
theorem tenantClosed_run_two :
    ∃ world, Transition.Reach World.step (fun w call => call.JoinsOneTenant w.db) twoTenants
        world ∧ world.db.DependsOn 10 14 ∧ world.db.commitmentTenant 12 = some 2 ∧
      world.db.TenantClosed ∧ ¬ (world.call (dependency 10 12)).db.TenantClosed := by
  have hcreated : Transition.Reach World.step (fun w call => call.JoinsOneTenant w.db) twoTenants
      (((twoTenants.call (proposeFor 1)).call (proposeFor 2)).call (proposeFor 1)) :=
    ((Transition.Reach.start.next (a := proposeFor 1) trivial rfl).next (a := proposeFor 2)
      trivial rfl).next (a := proposeFor 1) trivial rfl
  have hreach := hcreated.next (a := dependency 10 14) (by
    intro dependentId dependencyId hfrom hto first second hfirst hsecond _
    cases hfrom
    cases hto
    exact some_inj.mp (hfirst.symm.trans hsecond)) rfl
  obtain ⟨hclosed, hcalls⟩ := tenantClosed_run twoTenants_closed hreach
  refine ⟨_, hreach, by decide, by decide, hclosed, fun hcross => ?_⟩
  have hsame := (hcalls _).mp hcross 10 12 rfl rfl 1 2 (by decide) (by decide) fun hpath => by
    rcases Relation.reflTransGen_iff_eq_or_transGen.mp hpath with he | htransitive
    · cases he
    · exact absurd ((mem_dependencyClosure_iff _ _ _).mpr htransitive) (by decide)
  cases hsame

/-- Two creations and one `add_edge` make a commitment of one tenant depend on
a commitment of the other. -/
theorem crossTenant_dependency_reached :
    ∃ world, Transition.Reach World.step anyStep twoTenants world ∧
      world.db.DependsOn 10 12 ∧ ¬ world.db.TenantClosed := by
  have hrun : runAll World.step twoTenants [proposeFor 1, proposeFor 2,
      dependency 10 12] = some _ := rfl
  refine ⟨_, reach_of_run hrun, by decide, fun hclosed => ?_⟩
  obtain ⟨tenantId, hone, htwo⟩ := hclosed.dependsOn 10 12 (by decide)
  cases hone
  cases htwo

end FyralisCore.Acts
