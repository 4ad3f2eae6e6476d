import FyralisCore.Acts.AuditAgreement
import FyralisCore.Acts.DependencyRace
import FyralisCore.Acts.LateRefusals

/-! The guards of two edge tables in calls made one after another. C6 before a
`depends_on` row is exact: it refuses the rows that close a cycle and no others.
The exclusion of C10 is checked where a commitment is created, and `add_edge`
lets a `contributes_to` row of a maintenance commitment pass. -/
namespace FyralisCore.Acts

open Relational Relation Transaction Transition Option Tx Graph Tx Db World

variable {db after : Db} {supply left : Nat} {start world : World}

def Db.ClosesCycle (db : Db) (dependentId dependencyId : Nat) : Prop :=
  ¬ Graph.Acyclic (Graph.withEdge db.DependsOn dependentId dependencyId)

theorem closesCycle_iff (ha : Graph.Acyclic db.DependsOn) (dependentId dependencyId : Nat) :
    db.ClosesCycle dependentId dependencyId ↔ ¬ db.acceptsDependency dependentId dependencyId :=
  (acyclic_withEdge_iff ha dependentId dependencyId).not

def Db.ClosureFound (db : Db) (dependencyId : Nat) (closure : List Nat) : Prop :=
  let seed := (follow db.dependsOn.primaryKeys [dependencyId]).dedup
  Evaluates db.dependsOn.primaryKeys seed seed closure

theorem closureFound (db : Db) (dependencyId : Nat) :
    db.ClosureFound dependencyId (db.dependencyClosure dependencyId) :=
  reachable_evaluates _ _

theorem checkC6_answers (db : Db) (supply dependentId dependencyId : Nat) :
    ∃ violations, Tx.Returns apply (checkC6DependsOnAcyclic dependentId dependencyId) db supply
        violations db supply ∧
      (violations ≠ [] ↔ ¬ db.acceptsDependency dependentId dependencyId) := by
  unfold checkC6DependsOnAcyclic acceptsDependency
  split
  · next hs =>
    refine ⟨_, returns_done.mpr ⟨rfl, rfl, rfl⟩, ?_⟩
    simp [hs, ReflTransGen.refl]
  · next hd =>
    refine ⟨_, returns_read_bind.mpr (returns_done.mpr ⟨rfl, rfl, rfl⟩), ?_⟩
    simp [reflTransGen_iff_eq_or_transGen, mem_dependencyClosure_iff, hd]

def KeepsAcyclic (db after : Db) : Prop :=
  Graph.Acyclic db.DependsOn → Graph.Acyclic after.DependsOn

instance : IsPreorder Db KeepsAcyclic where
  refl _ := id
  trans _ _ _ hfirst hsecond := hsecond ∘ hfirst

variable {α : Type} {body : ActTx α} {error : ActError} {args : CommitmentCreate} {clock : Clock}
  {call : ActCall}

theorem within_of_neutral
    (hb : body.EachStatement WritesNoDependency) : Tx.Within apply KeepsAcyclic body := by
  refine hb.within fun db _ ws hn ha => ha.mono fun a b he => ?_
  exact ((view_dependsOn_iff db ws a b).mp he).resolve_right (hn a b)

theorem within_insertDependsOnEdge (dependentId dependencyId : Nat) :
    Tx.Within apply KeepsAcyclic (insertDependsOnEdge dependentId dependencyId) := by
  intro db supply hac
  rcases returns_or_raises apply (insertDependsOnEdge dependentId dependencyId) db
    supply with ⟨_, hr⟩ | ⟨error, hrs⟩
  · obtain ⟨hacp, ha, -⟩ := returns_insertDependsOnEdge.mp hr
    rw [ha]
    refine ((acyclic_withEdge_iff hac _ _).mpr hacp).mono fun a b he => ?_
    rcases (apply_dependsOn_iff db _ a b).mp he with ho | hn
    · exact .inl ho
    · cases hn
      exact .inr ⟨rfl, rfl⟩
  · have h1 : Tx.FailsFirst apply (fun _ => True) (insertDependsOnEdge dependentId dependencyId) :=
      (reads_raiseFirst reads_checkC6).bind_failsFirst fun _ => Tx.FailsFirst.query
    rw [h1 db supply error hrs trivial]
    exact hac

theorem within_createCommitment (clock : Clock) (args : CommitmentCreate) :
    Tx.Within apply KeepsAcyclic (createCommitment clock args) := by
  have hr := writesNoDependency_reads
  refine Tx.Reads.ofExcept.within.bind fun input => ?_
  refine reads_validateReferences.within.bind fun _ => ?_
  refine Tx.Reads.newId.within.bind fun commitmentId => ?_
  refine reads_resolveEffectiveInitialState.within.bind fun effectiveInitial => ?_
  have hi : (insertCommitment commitmentId (input.row clock effectiveInitial)).EachStatement
      WritesNoDependency := constrained_eachStatement hr fun _ => writesNoDependency_single nofun
  refine (within_of_neutral hi).bind fun _ => ?_
  refine Tx.Within.bind (.forEach fun contributor => within_of_neutral
    (insertContributor_eachStatement hr (fun _ _ _ _ => writesNoDependency_single nofun)
      _ _ _)) fun _ => ?_
  refine Tx.Within.bind (.forEach fun item => within_of_neutral
    (.bind (requireGoalCanAcceptCriticalPath_eachStatement hr _ _ _) fun _ =>
      insertContributesTo_eachStatement hr (fun _ _ _ _ => writesNoDependency_single nofun)
        _ _ _)) fun _ => ?_
  refine Tx.Within.bind (.forEach fun dependencyId => within_insertDependsOnEdge _ _) fun _ => ?_
  refine Tx.Within.bind (.forEach fun decisionId => within_of_neutral
    (insertConstrainedBy_eachStatement hr (fun _ _ _ => writesNoDependency_single nofun)
      _ _)) fun _ => ?_
  refine (within_of_neutral (emitStateChange_neutral _ _ _ _ _ _ _)).bind fun _ => ?_
  exact Tx.Reads.read.within.bind fun _ => Tx.Reads.orRaise.within.bind fun _ =>
    Tx.Reads.done.within

theorem within_addEdge (args : EdgeArgs) : Tx.Within apply KeepsAcyclic (addEdge args) := by
  have hr := writesNoDependency_reads
  unfold addEdge
  split
  · split
    · exact within_of_neutral (addContributesTo_eachStatement hr
        (fun _ _ _ _ => writesNoDependency_single nofun) _ _ _)
    · exact Tx.Reads.raise.within
  · split
    · exact (within_insertDependsOnEdge _ _).bind fun _ => Tx.Reads.read.within.bind fun _ =>
        Tx.Reads.orRaise.within.bind fun _ => Tx.Reads.done.within
    · exact Tx.Reads.raise.within
  · split
    · exact within_of_neutral (addConstrainedBy_eachStatement hr
        (fun _ _ _ => writesNoDependency_single nofun) _ _)
    · exact Tx.Reads.raise.within

theorem within_run (call : ActCall) : Tx.Within apply KeepsAcyclic call.run := by
  have hr := writesNoDependency_reads
  cases call with
  | createGoal clock args =>
    exact within_of_neutral ((createGoal_eachStatement hr
      (fun _ _ _ => writesNoDependency_single nofun)
      (fun _ _ _ => writesNoDependency_single nofun) clock args).bind fun _ => .done)
  | transitionGoal clock goalId newState causeEventId =>
    exact within_of_neutral ((transitionGoal_eachStatement hr
      (fun _ _ _ _ _ => writesNoDependency_single nofun)
      (fun _ _ _ => writesNoDependency_single nofun) clock goalId newState causeEventId).bind
      fun _ => .done)
  | createCommitment clock args =>
    exact (within_createCommitment clock args).bind fun _ => Tx.Reads.done.within
  | transitionCommitment clock commitmentId newState args =>
    exact within_of_neutral ((transitionCommitment_neutral clock commitmentId newState args).bind
      fun _ => .done)
  | addEdge args => exact (within_addEdge args).bind fun _ => Tx.Reads.done.within

theorem acyclic_of_reach (hr : Reach step anyStep start world)
    (ha : Graph.Acyclic start.db.DependsOn) : Graph.Acyclic world.db.DependsOn := by
  refine hr.invariant (P := fun world => Graph.Acyclic world.db.DependsOn) ha ?_
  rintro before call next hb - hst
  cases hst
  rcases before.call_cases call with hrt | hs
  · exact (within_run call).relates hrt hb
  · rwa [hs]

def ActError.isCycle : ActError → Bool
  | .invariantViolation .c6 _ _ => true
  | _ => false

abbrev NeverCycle {α : Type} (body : ActTx α) : Prop :=
  Tx.EachError apply (fun error => error.isCycle = false) body

def RefusedForCycle (world : World) (call : ActCall) : Prop :=
  ∃ error, Tx.Raises apply call.run world.db world.supply error ∧ error.isCycle

def ActCall.AsksFor (supply dependentId dependencyId : Nat) : ActCall → Prop
  | .createCommitment _ args =>
    dependentId = supply ∧ dependencyId ∈ args.dependsOnCommitmentIds.getD []
  | .addEdge args => args.kind = .dependsOn ∧ args.dependentCommitmentId = some dependentId ∧
      args.dependencyCommitmentId = some dependencyId
  | _ => False

theorem ActError.isRefusal_of_isCycle (hc : error.isCycle) : error.isRefusal := by
  cases error with
  | invariantViolation => rfl
  | validationError | database | typeError => cases hc

theorem neverCycle_of_neverRefuses (hn : NeverRefuses body) : NeverCycle body :=
  hn.mono fun _ hr =>
    Bool.eq_false_iff.mpr fun hc => hr (ActError.isRefusal_of_isCycle hc)

theorem NeverCycle.not_raises (hn : NeverCycle body)
    (hr : Tx.Raises apply body db supply error) (hc : error.isCycle) : False := by
  rw [hn db supply error hr] at hc
  cases hc

theorem eq_of_refuseUnless
    (hr : refuseUnless condition error = .error raised) : raised = error := by
  cases condition with
  | true => cases hr
  | false => exact (Except.error.inj hr).symm

theorem prepare_neverCycle
    (he : prepareCommitmentCreateInput now args = .error error) : error.isCycle = false := by
  simp only [prepareCommitmentCreateInput, bind_eq_error_iff] at he
  rcases he with h | ⟨_, -, h | ⟨_, -, h | ⟨_, -, h | ⟨_, -, h | ⟨_, -, h | ⟨_, -, h⟩⟩⟩⟩⟩⟩
  · rw [eq_of_refuseUnless h]; rfl
  · rw [eq_of_refuseUnless h]; rfl
  · rw [eq_of_refuseUnless h]; rfl
  · unfold resolveMaintenance at h
    split at h
    · cases h
    · dsimp only at h
      split at h <;> cases h
      rfl
  · rw [eq_of_refuseUnless h]; rfl
  · rw [eq_of_refuseUnless h]; rfl
  · cases h

theorem neverCycle_readLocking : NeverCycle (readLocking lock answer) :=
  .query fun _ _ he => nomatch he

theorem neverCycle_require {failure : Db → Option ActError}
    (hf : ∀ db error, failure db = some error → error.isCycle = false) :
    NeverCycle (require failure) :=
  fun db _ error hr => hf db error (raises_require.mp hr)

theorem neverCycle_raiseIf (hf : ∀ error, found = some error → error.isCycle = false) :
    NeverCycle (raiseIf found) := by
  cases found with
  | none => exact .done
  | some error => exact .raise (hf error rfl)

theorem neverCycle_requireActiveActor (role : String) (actorId : Nat) :
    NeverCycle (requireActiveActor role actorId) := by
  refine neverCycle_require fun db error he => ?_
  unfold actorError at he
  split at he <;> cases he <;> rfl

theorem neverCycle_validateReferences (input : CommitmentCreateInput) :
    NeverCycle (validateCommitmentCreateReferences input) := by
  have ht : ∀ tenantOf missing foreign field tenantId id,
      NeverCycle (requireTenant tenantOf missing foreign field tenantId id) := by
    refine fun tenantOf missing foreign field tenantId id =>
      neverCycle_require fun db error he => ?_
    split at he
    · cases he
      rfl
    · obtain ⟨-, he⟩ := ite_none_right_eq_some.mp he
      cases he
      rfl
  exact .bind (.forEach fun _ => neverCycle_requireActiveActor _ _) fun _ =>
    .bind (.forEach fun _ => neverCycle_requireActiveActor _ _) fun _ =>
    .bind (.forEach fun _ => ht _ _ _ _ _ _) fun _ =>
      .bind (.forEach fun _ => ht _ _ _ _ _ _) fun _ =>
        .forEach fun _ => ht _ _ _ _ _ _

theorem neverCycle_resolveEffectiveInitialState (input : CommitmentCreateInput) :
    NeverCycle (resolveEffectiveInitialState input) := by
  have ha : ∀ dependencies, NeverCycle (anyUnsatisfied dependencies) := by
    intro dependencies
    induction dependencies with
    | nil => exact .done
    | cons dependencyId rest ih =>
      refine .bind .read fun unsatisfied => ?_
      cases unsatisfied with
      | true => exact .done
      | false => exact ih
  unfold resolveEffectiveInitialState
  split
  · exact .done
  · exact .bind (ha _) fun _ => .done

theorem neverCycle_insertContributesToEdge (commitmentId : Nat) (s : CommitmentState)
    (item : GoalItem) : NeverCycle (insertContributesToEdge commitmentId s item) := by
  have he : ∀ goal error, criticalPathError item.edgeParts.1 s goal = some error →
      error.isCycle = false := by
    intro goal error he
    unfold criticalPathError at he
    split at he
    · obtain ⟨-, he⟩ := ite_none_right_eq_some.mp he
      cases he
      rfl
    · cases he
  exact .bind (.when (.bind neverCycle_readLocking fun _ => neverCycle_raiseIf (he _)))
    fun _ => neverCycle_of_neverRefuses never_insertContributesTo

theorem neverCycle_addContributesTo (commitmentId goalId : Nat) (critical : Bool) :
    NeverCycle (addContributesTo commitmentId goalId critical) := by
  have he : ∀ row goal error, contributesToError commitmentId goalId critical row goal =
      some error → error.isCycle = false := by
    intro row goal error he
    unfold contributesToError at he
    split at he
    · cases he
      rfl
    · split at he
      · cases he
        rfl
      · obtain ⟨-, he⟩ := ite_none_right_eq_some.mp he
        cases he
        rfl
  exact .bind (.bind neverCycle_readLocking fun _ => .bind (.orRaise rfl) fun _ =>
    .bind neverCycle_readLocking fun _ => neverCycle_raiseIf (he _ _)) fun _ =>
      .bind (neverCycle_of_neverRefuses never_insertContributesTo) fun _ =>
        .bind .read fun _ => .bind (.orRaise rfl) fun _ => .done

/-- A creation is refused for C6 in its loop over the dependencies only, and what it has
written before does not help to reach the new id. -/
theorem cycle_of_create (hrs : Tx.Raises apply (createCommitment clock args) db supply error)
    (hc : error.isCycle) : ∃ dependencyId ∈ args.dependsOnCommitmentIds.getD [],
      ¬ db.acceptsDependency supply dependencyId := by
  rcases Tx.raises_bind.mp hrs with hprp | ⟨input, _, _, hprp, hrs⟩
  · rw [prepare_neverCycle (Tx.raises_ofExcept.mp hprp)] at hc
    cases hc
  obtain ⟨hpr, rfl, rfl⟩ := Tx.returns_ofExcept.mp hprp
  rcases Tx.raises_bind.mp hrs with hv | ⟨_, _, _, hv, hrs⟩
  · exact ((neverCycle_validateReferences input).not_raises hv hc).elim
  obtain ⟨-, rfl, rfl⟩ := returns_validateReferences hv
  rw [Tx.bind_eq_bind, Tx.raises_newId_bind] at hrs
  rcases Tx.raises_bind.mp hrs with hr | ⟨_, _, _, hr, hrs⟩
  · exact ((neverCycle_resolveEffectiveInitialState input).not_raises hr hc).elim
  obtain ⟨rfl, rfl, rfl⟩ := returns_resolveEffectiveInitialState.mp hr
  rcases Tx.raises_bind.mp hrs with hi | ⟨_, inserted, _, hi, hrs⟩
  · refine ((neverCycle_of_neverRefuses ?_).not_raises hi hc).elim
    exact .query fun _ _ he => constrained_error he
  obtain ⟨-, rfl, rfl⟩ := returns_constrained.mp hi
  have hkp : CreateKeeps db supply
      (db.apply (.insertCommitment supply (input.row clock (input.effectiveInitial db)))) :=
    ⟨rfl, fun _ _ => Or.inl⟩
  rcases Tx.raises_bind.mp hrs with hcb | ⟨_, _, _, hcb, hrs⟩
  · exact (NeverCycle.not_raises (.forEach fun _ =>
      neverCycle_of_neverRefuses never_insertContributor) hcb hc).elim
  have hkp := Tx.forEach_invariant (fun _ _ _ _ _ hk => hk.insertContributor) hkp hcb
  rcases Tx.raises_bind.mp hrs with hg | ⟨_, _, _, hg, hrs⟩
  · exact (NeverCycle.not_raises (.forEach fun _ =>
      neverCycle_insertContributesToEdge _ _ _) hg hc).elim
  have hkp := Tx.forEach_invariant (fun _ _ _ _ _ hk => hk.insertContributesToEdge) hkp hg
  rcases Tx.raises_bind.mp hrs with hd | ⟨_, _, _, -, hrs⟩
  · obtain ⟨dependencyId, hdp, _, _, hm, hb⟩ :=
      Tx.raises_forEach (fun _ _ _ _ _ hk => hk.insertDependsOnEdge) hkp hd
    rw [(prepareCommitmentCreateInput_spec hpr).dependencies_eq] at hdp
    refine ⟨dependencyId, hdp, fun ha => ?_⟩
    exact raises_insertDependsOnEdge hb (ActError.isRefusal_of_isCycle hc) fun hp =>
      ha (reflTransGen_of_added hm.dependsOn hp)
  · refine ((neverCycle_of_neverRefuses ?_).not_raises hrs hc).elim
    exact .bind (.forEach fun _ => never_insertConstrainedBy) fun _ => .bind never_emitStateChange
      fun _ => .bind .read fun _ => .bind never_orRaiseType fun _ => .done

theorem cycle_of_addEdge {args : EdgeArgs}
    (hr : Tx.Raises apply (addEdge args) db supply error) (hc : error.isCycle) :
    ∃ dependentId dependencyId, (ActCall.addEdge args).AsksFor supply dependentId dependencyId ∧
      ¬ db.acceptsDependency dependentId dependencyId := by
  have hv : ∀ message, ¬ Tx.Raises apply
      (.raise (.validationError message []) : ActTx ActEdge) db supply error := by
    intro message hr
    rw [← raises_raise.mp hr] at hc
    cases hc
  unfold addEdge at hr
  split at hr
  · split at hr
    · exact ((neverCycle_addContributesTo _ _ _).not_raises hr hc).elim
    · exact absurd hr (hv _)
  · next hk =>
    split at hr
    · next dependentId dependencyId hd hdp =>
      refine ⟨dependentId, dependencyId, ⟨hk, hd, hdp⟩, ?_⟩
      rcases raises_bind.mp hr with hi | ⟨_, _, _, -, hr⟩
      · exact raises_insertDependsOnEdge hi (ActError.isRefusal_of_isCycle hc)
      · have hn : NeverRefuses
            ((read fun db => db.dependsOn.get (dependentId, dependencyId)).bind fun found =>
            (orRaise found (.typeError "'NoneType' object is not iterable")).bind fun _ =>
              .done (ActEdge.dependsOn dependentId dependencyId)) :=
          .bind .read fun _ => .bind never_orRaiseType fun _ => .done
        exact ((neverCycle_of_neverRefuses hn).not_raises hr hc).elim
    · exact absurd hr (hv _)
  · split at hr
    · have hn : ∀ commitmentId decisionId, NeverRefuses (addConstrainedBy commitmentId decisionId) :=
        fun _ _ => .bind never_insertConstrainedBy fun _ => .bind .read fun _ =>
          .bind never_orRaiseType fun _ => .done
      exact ((neverCycle_of_neverRefuses (hn _ _)).not_raises hr hc).elim
    · exact absurd hr (hv _)

section

variable (clock)

theorem neverCycle_createGoal (args : GoalCreate) : NeverCycle (createGoal clock args) := by
  have hp : NeverCycle (validateParentGoal args) := by
    unfold validateParentGoal
    split
    · exact .done
    · refine neverCycle_require fun db error he => ?_
      unfold parentGoalError at he
      split at he
      · cases he
        rfl
      · split at he
        · cases he
          rfl
        · obtain ⟨-, he⟩ := ite_none_right_eq_some.mp he
          cases he
          rfl
  have hi : ∀ goalId, NeverRefuses (insertGoal goalId (args.row clock)) :=
    fun _ => .query fun _ _ he => constrained_error he
  exact .bind (.ensure rfl) fun _ => .bind hp fun _ => .bind .newId fun _ =>
    .bind (neverCycle_of_neverRefuses (hi _)) fun _ =>
      .bind (neverCycle_of_neverRefuses never_emitStateChange) fun _ => .done

theorem neverCycle_transitionGoal (goalId : Nat) (newState : GoalState)
    (causeEventId : Option Nat) : NeverCycle
    (transitionGoal clock goalId newState causeEventId) := by
  have hd : NeverCycle (requireCriticalPathDone goalId) := by
    refine neverCycle_require fun db error he => ?_
    obtain ⟨-, he⟩ := ite_none_right_eq_some.mp he
    cases he
    rfl
  have hu : NeverCycle (updateGoalState clock goalId newState) :=
    .query fun _ _ he => nomatch he
  exact .bind neverCycle_readLocking fun _ => .bind (.orRaise rfl) fun _ => .bind (.ensure rfl)
    fun _ => .bind (.when hd) fun _ => .bind hu fun _ =>
      .bind (neverCycle_of_neverRefuses never_emitStateChange) fun _ => .orRaise rfl

theorem neverCycle_transitionCommitment (commitmentId : Nat) (newState : CommitmentState)
    (args : TransitionArgs) : NeverCycle
    (transitionCommitment clock commitmentId newState args) := by
  have hm : ∀ row, NeverCycle
      (Tx.ofExcept (checkCommitmentMove commitmentId row newState args.causeEventId)) := by
    intro row _ _ error hrs
    have he := Tx.raises_ofExcept.mp hrs
    simp only [checkCommitmentMove, bind_eq_error_iff] at he
    rcases he with h | ⟨_, -, h | ⟨_, -, h⟩⟩
    · rw [eq_of_refuseUnless h]
      unfold commitmentMoveError
      split <;> rfl
    · rw [eq_of_refuseUnless h]; rfl
    · rw [eq_of_refuseUnless h]; rfl
  have ho : ∀ row, NeverCycle (requireActiveOwner row newState) := by
    intro row
    unfold requireActiveOwner
    split
    · exact .done
    · exact .when (neverCycle_requireActiveActor _ _)
  have hre : NeverCycle (requireBlockedReason commitmentId) :=
    .bind .read fun _ => .bind .read fun _ => .ensure rfl
  have hu : ∀ merged basis,
      NeverRefuses (updateCommitmentState clock commitmentId newState merged basis) := by
    refine fun merged basis => .query fun db error he => ?_
    split at he <;> cases he
    exact Bool.false_ne_true
  have hw : NeverCycle (raiseFirst (checkC10ContributesOrMaintenance commitmentId)) := by
    intro db supply error hrs
    simp only [raiseFirst, checkC10ContributesOrMaintenance, Tx.bind_eq_bind, Tx.bind_assoc,
      Tx.raises_read_bind] at hrs
    cases hr : db.commitments.get commitmentId with
    | none =>
      rw [hr] at hrs
      exact absurd hrs Tx.raises_done
    | some row =>
      simp only [hr] at hrs
      split at hrs
      · exact absurd hrs Tx.raises_done
      · split at hrs
        · exact absurd hrs Tx.raises_done
        · rw [Tx.bind_assoc, Tx.raises_read_bind, Tx.pure_eq_done] at hrs
          by_cases hn : db.contributions commitmentId = 0
          · simp only [hn, if_true] at hrs
            rw [← Tx.raises_raise.mp hrs]
            rfl
          · simp only [hn, if_false] at hrs
            exact absurd hrs Tx.raises_done
  exact .bind neverCycle_readLocking fun _ => .bind (.orRaise rfl) fun _ => .bind (hm _)
    fun _ => .bind (ho _) fun _ => .bind (.ensure rfl) fun _ => .bind (.when hre) fun _ =>
      .bind (neverCycle_of_neverRefuses (hu _ _)) fun _ => .bind (.when hw) fun _ =>
        .bind (neverCycle_of_neverRefuses never_emitStateChange) fun _ => .orRaise rfl

end

theorem closesCycle_of_refused (hac : Graph.Acyclic world.db.DependsOn)
    (hrf : RefusedForCycle world call) :
    ∃ dependentId dependencyId, call.AsksFor world.supply dependentId dependencyId ∧
      world.db.ClosesCycle dependentId dependencyId := by
  obtain ⟨error, hrs, hc⟩ := hrf
  cases call with
  | createGoal clock args =>
    exact ((neverCycle_createGoal _ _).not_raises (raises_bind_done.mp hrs) hc).elim
  | transitionGoal clock goalId newState causeEventId =>
    exact ((neverCycle_transitionGoal _ _ _ _).not_raises (raises_bind_done.mp hrs) hc).elim
  | createCommitment clock args =>
    obtain ⟨dependencyId, hm, hr⟩ := cycle_of_create (raises_bind_done.mp hrs) hc
    exact ⟨_, dependencyId, ⟨rfl, hm⟩, (closesCycle_iff hac _ _).mpr hr⟩
  | transitionCommitment clock commitmentId newState args =>
    exact ((neverCycle_transitionCommitment _ _ _ _).not_raises (raises_bind_done.mp hrs) hc).elim
  | addEdge args =>
    obtain ⟨dependentId, dependencyId, ha, hr⟩ :=
      cycle_of_addEdge (raises_bind_done.mp hrs) hc
    exact ⟨_, _, ha, (closesCycle_iff hac _ _).mpr hr⟩

/-- The guard ends and reports exactly the edges that close a cycle, and over every run the
relation stays acyclic and nothing else is refused for C6. -/
theorem cycle_guard_exact :
    (∀ (db : Db) (supply dependentId dependencyId : Nat), Graph.Acyclic db.DependsOn →
      db.ClosureFound dependencyId (db.dependencyClosure dependencyId) ∧
      ∃ violations, Tx.Returns apply (checkC6DependsOnAcyclic dependentId dependencyId) db
          supply violations db supply ∧
        (violations ≠ [] ↔ db.ClosesCycle dependentId dependencyId)) ∧
    ∀ start world : World, Graph.Acyclic start.db.DependsOn →
      Reach step anyStep start world → Graph.Acyclic world.db.DependsOn ∧
        ∀ call, RefusedForCycle world call →
          ∃ dependentId dependencyId, call.AsksFor world.supply dependentId dependencyId ∧
            world.db.ClosesCycle dependentId dependencyId := by
  constructor
  · intro db supply dependentId dependencyId hacyclic
    obtain ⟨violations, hreturns, hanswer⟩ := checkC6_answers db supply dependentId dependencyId
    exact ⟨closureFound db dependencyId, violations, hreturns,
      hanswer.trans (closesCycle_iff hacyclic _ _).symm⟩
  · intro start world hstart hreach
    have hacyclic := acyclic_of_reach hreach hstart
    exact ⟨hacyclic, fun call hrefused => closesCycle_of_refused hacyclic hrefused⟩

def oneGoal : World where
  db := { oneCommitmentDb with contributesTo := ∅ }
  supply := 10

theorem oneGoal_acyclic : Graph.Acyclic oneGoal.db.DependsOn :=
  acyclic_empty.mono fun _ _ he => nomatch he

theorem cycle_guard_exact_one_goal :
    (∃ violations, Tx.Returns apply (checkC6DependsOnAcyclic 4 4) oneGoal.db 10 violations
        oneGoal.db 10 ∧ (violations ≠ [] ↔ oneGoal.db.ClosesCycle 4 4)) ∧
    ∃ world, Reach step anyStep oneGoal world ∧ world.db.DependsOn 10 4 ∧
      Graph.Acyclic world.db.DependsOn := by
  obtain ⟨hguard, hruns⟩ := cycle_guard_exact
  have hreach : Reach step anyStep oneGoal (oneGoal.call (.createCommitment ⟨5, 5⟩
      { title := "Deploy", dependsOnCommitmentIds := some [4], createdByEventId := 9,
        tenantId := 1 })) := .next .start trivial rfl
  exact ⟨(hguard oneGoal.db 10 4 4 oneGoal_acyclic).2, _, hreach, by decide +kernel,
    (hruns _ _ oneGoal_acyclic hreach).1⟩

def Db.MaintenanceApart (db : Db) : Prop :=
  ∀ commitmentId row, db.commitments.get commitmentId = some row → row.isMaintenance →
    ∀ goalId, db.contributesTo.get (commitmentId, goalId) = none

def Db.ContributorsExist (db : Db) : Prop :=
  ∀ commitmentId goalId, db.commitments.get commitmentId = none →
    db.contributesTo.get (commitmentId, goalId) = none

/-- The call adds a `contributes_to` row of a maintenance commitment, and
`_require_contributes_to_allowed` lets it pass. -/
def AddsToMaintenance (db : Db) (call : ActCall) : Prop :=
  ∃ args commitmentId goalId row, call = .addEdge args ∧ args.kind = .contributesTo ∧
    args.commitmentId = some commitmentId ∧ args.goalId = some goalId ∧
    db.commitments.get commitmentId = some row ∧ row.isMaintenance ∧
    contributesToError commitmentId goalId args.isCriticalPath row (db.goals.get goalId) = none

structure Apart (db : Db) : Prop where
  apart : db.MaintenanceApart
  exist : db.ContributorsExist

theorem prepare_exclusive (hp : prepareCommitmentCreateInput now args = .ok input)
    (hm : input.isMaintenance) : input.contributesToGoalIds = [] := by
  simp only [prepareCommitmentCreateInput, bind_eq_ok_iff, refuseUnless_eq_ok_iff] at hp
  obtain ⟨_, _, _, _, _, _, maintenance, _, _, hex, _, _, hi⟩ := hp
  cases hi
  obtain rfl : maintenance := hm
  simpa using hex

theorem CommitmentCreated.apart
    (ha : Apart db) (hp : prepareCommitmentCreateInput clock.processNow args = .ok input)
    (hc : CommitmentCreated db clock input supply r after) : Apart after := by
  have he : ∀ commitmentId goalId, commitmentId ≠ supply ∨ input.contributesToGoalIds = [] →
      after.contributesTo.get (commitmentId, goalId) =
        db.contributesTo.get (commitmentId, goalId) := by
    intro commitmentId goalId ho
    obtain ⟨observation, rfl⟩ := hc.after_eq
    refine Table.get_insertAll_of_ne _ fun row hm => ?_
    obtain ⟨item, hi, rfl⟩ := List.mem_map.mp hm
    rcases ho with hne | hem
    · simp [Ne.symm hne]
    · rw [hem] at hi
      cases hi
  constructor
  · intro commitmentId row hr hmn goalId
    rw [hc.get_after] at hr
    split at hr
    · next hs =>
      subst hs
      cases hr
      have hem : input.contributesToGoalIds = [] := by
        rw [hc.result_eq] at hmn
        exact prepare_exclusive hp hmn
      rw [he _ _ (.inr hem)]
      exact ha.exist _ _ hc.fresh
    · next hne =>
      rw [he _ _ (.inl hne)]
      exact ha.apart _ _ hr hmn _
  · intro commitmentId goalId hn
    rw [hc.get_after] at hn
    split at hn
    · cases hn
    · next hne =>
      rw [he _ _ (.inl hne)]
      exact ha.exist _ _ hn

theorem CommitmentMoved.apart {args : TransitionArgs} (ha : Apart db)
    (hmv : CommitmentMoved db clock commitmentId newState args supply row r after) :
    Apart after := by
  have he : after.contributesTo = db.contributesTo := by
    obtain ⟨observation, rfl⟩ := hmv.after_eq
    rfl
  constructor
  · intro other found hf hm goalId
    rw [he]
    rw [hmv.get_after] at hf
    split at hf
    · next hs =>
      subst hs
      cases hf
      rw [hmv.result_eq] at hm
      exact ha.apart _ _ hmv.found hm _
    · exact ha.apart _ _ hf hm _
  · intro other goalId hn
    rw [he]
    rw [hmv.get_after] at hn
    split at hn
    · cases hn
    · exact ha.exist _ _ hn

theorem isSome_contributesTo (db : Db) (commitmentId goalId : Nat) (critical : Bool) :
    ((db.apply (.insertContributesTo commitmentId goalId critical)).contributesTo.get
      (commitmentId, goalId)).isSome := by
  cases hg : db.contributesTo.get (commitmentId, goalId) <;>
    simp [apply, Table.get_insertNew, hg]

theorem returns_addContributesTo :
    (∃ r, Tx.Returns apply (addContributesTo commitmentId goalId critical)
      db supply r after left) ↔ ∃ row, db.commitments.get commitmentId = some row ∧
      contributesToError commitmentId goalId critical row (db.goals.get goalId) = none ∧
      after = db.apply (.insertContributesTo commitmentId goalId critical) ∧ supply = left := by
  constructor
  · rintro ⟨r, hrt⟩
    simp only [addContributesTo, requireContributesToAllowed, fetchCommitmentForUpdate,
      fetchGoalForUpdate, Tx.bind_eq_bind, Tx.returns_bind, Tx.returns_readLocking,
      returns_read, Tx.returns_orRaise, returns_raiseIf, Tx.pure_eq_done, Tx.returns_done]
      at hrt
    obtain ⟨_, _, _, ⟨_, _, _, ⟨rfl, rfl, rfl⟩, commitment, _, _, ⟨hc, rfl, rfl⟩, _, _,
      _, ⟨rfl, rfl, rfl⟩, hal, rfl, rfl⟩, _, _, _, hi, _, _, _, ⟨rfl, rfl, rfl⟩, _, _,
      _, ⟨_, rfl, rfl⟩, _, rfl, rfl⟩ := hrt
    obtain ⟨ha, rfl⟩ := insertContributesTo_effect hi
    exact ⟨commitment, hc, hal, ha, rfl⟩
  · rintro ⟨row, hr, hn, rfl, rfl⟩
    obtain ⟨goal, hg, -⟩ := contributesToError_eq_none hn
    have hal : Tx.Returns apply (requireContributesToAllowed commitmentId goalId critical)
        db supply () db supply := by
      simp only [requireContributesToAllowed, fetchCommitmentForUpdate, fetchGoalForUpdate,
        Tx.bind_eq_bind, Tx.returns_readLocking_bind, hr]
      exact Tx.returns_bind.mpr ⟨row, db, supply, Tx.returns_orRaise.mpr ⟨rfl, rfl, rfl⟩,
        returns_raiseIf.mpr ⟨hn, rfl, rfl⟩⟩
    have hi : Tx.Returns apply (insertContributesTo commitmentId goalId critical) db
        supply () (db.apply (.insertContributesTo commitmentId goalId critical)) supply := by
      refine (returns_insertIgnore fun ht => ?_).mpr ⟨rfl, rfl, .inr ?_⟩
      · simp [apply, Table.insertNew_of_isSome _ _ ht]
      · simp [hr, hg]
    obtain ⟨stored, hs⟩ :=
      isSome_iff_exists.mp (isSome_contributesTo db commitmentId goalId critical)
    refine ⟨.contributesTo commitmentId goalId stored,
      returns_bind.mpr ⟨(), db, supply, hal, returns_bind.mpr ⟨(), _, _, hi, ?_⟩⟩⟩
    refine returns_read_bind.mpr (returns_bind.mpr ⟨stored, _, _,
      returns_orRaise.mpr ⟨hs, rfl, rfl⟩, returns_done.mpr ⟨rfl, rfl, rfl⟩⟩)

theorem apart_of_addEdge {args : EdgeArgs} (ha : Apart db)
    (ho : ¬ AddsToMaintenance db (.addEdge args))
    (hrt : Tx.Returns apply (addEdge args) db supply r after left) : Apart after := by
  unfold addEdge at hrt
  split at hrt
  · next hk =>
    split at hrt
    · next commitmentId goalId hc hg =>
      obtain ⟨row, hr, hn, rfl, -⟩ := returns_addContributesTo.mp ⟨r, hrt⟩
      have hnt : ¬ row.isMaintenance := fun hm =>
        ho ⟨args, commitmentId, goalId, row, rfl, hk, hc, hg, hr, hm, hn⟩
      have he : ∀ other goal, other ≠ commitmentId →
          (db.apply (.insertContributesTo commitmentId goalId args.isCriticalPath)).contributesTo.get
            (other, goal) = db.contributesTo.get (other, goal) := by
        intro other goal hne
        simp [apply, Table.get_insertNew, hne]
      constructor
      · intro other found hf hm goal
        have hne : other ≠ commitmentId := by
          rintro rfl
          cases hr.symm.trans hf
          exact hnt hm
        rw [he _ _ hne]
        exact ha.apart _ _ hf hm _
      · intro other goal hms
        have hne : other ≠ commitmentId := by
          rintro rfl
          cases hr.symm.trans hms
        rw [he _ _ hne]
        exact ha.exist _ _ hms
    · exact absurd hrt returns_raise
  · split at hrt
    · obtain ⟨-, hi⟩ := returns_addDependsOn.mp hrt
      obtain ⟨-, rfl, -⟩ := returns_insertDependsOnEdge.mp hi
      exact ⟨ha.apart, ha.exist⟩
    · exact absurd hrt returns_raise
  · split at hrt
    · obtain ⟨-, hi⟩ := returns_addConstrainedBy.mp hrt
      obtain ⟨rfl, -⟩ := returns_insertConstrainedBy.mp hi
      exact ⟨ha.apart, ha.exist⟩
    · exact absurd hrt returns_raise

theorem apart_of_run (ha : Apart db) (ho : ¬ AddsToMaintenance db call)
    (hr : Tx.Returns apply call.run db supply () after left) : Apart after := by
  cases call <;> obtain ⟨_, hr⟩ := returns_ignore.mp hr
  case createGoal clock args =>
    obtain ⟨-, -, observation, rfl⟩ := createGoal_effect hr
    exact ⟨ha.apart, ha.exist⟩
  case transitionGoal clock goalId newState causeEventId =>
    obtain ⟨_, -, -, -, observation, rfl⟩ := transitionGoal_effect hr
    exact ⟨ha.apart, ha.exist⟩
  case createCommitment clock args =>
    obtain ⟨input, hp, hc, -⟩ := createCommitment_effect hr
    exact hc.apart ha hp
  case transitionCommitment clock commitmentId newState args =>
    obtain ⟨row, hm, -⟩ := transitionCommitment_effect hr
    exact hm.apart ha
  case addEdge args =>
    exact apart_of_addEdge ha ho hr

theorem not_apart_of_adds (had : AddsToMaintenance world.db call) :
    ¬ (world.call call).db.MaintenanceApart := by
  obtain ⟨args, commitmentId, goalId, row, rfl, hk, hc, hg, hr, hm, hn⟩ := had
  obtain ⟨r, hrt⟩ := returns_addContributesTo.mpr ⟨row, hr, hn, rfl, rfl⟩
  have hrn : Tx.Returns apply (ActCall.addEdge args).run world.db world.supply ()
      (world.db.apply (.insertContributesTo commitmentId goalId args.isCriticalPath))
      world.supply := by
    refine returns_ignore.mpr ⟨r, ?_⟩
    unfold addEdge
    rw [hk, hc, hg]
    exact hrt
  rw [call_of_returns hrn]
  intro ha
  have he := ha commitmentId row hr hm goalId
  have ht := isSome_contributesTo world.db commitmentId goalId args.isCriticalPath
  rw [he] at ht
  cases ht

/-- In every run in which `add_edge` adds no such row the two stay apart, and no other call
brings them together. -/
theorem maintenance_apart (hstart : start.db.MaintenanceApart) (hexist : start.db.ContributorsExist)
    (hreach : Reach step (fun world call => ¬ AddsToMaintenance world.db call) start world) :
    world.db.MaintenanceApart ∧
      ∀ call, (world.call call).db.MaintenanceApart ↔ ¬ AddsToMaintenance world.db call := by
  have hcall : ∀ (world : World) call, Apart world.db → ¬ AddsToMaintenance world.db call →
      Apart (world.call call).db := by
    intro world call hapart hother
    rcases world.call_cases call with hreturns | hsame
    · exact apart_of_run hapart hother hreturns
    · rwa [hsame]
  have hapart : Apart world.db := by
    refine hreach.invariant (P := fun world => Apart world.db) ⟨hstart, hexist⟩ ?_
    rintro before call next hbefore hother hstep
    cases hstep
    exact hcall before call hbefore hother
  refine ⟨hapart.apart, fun call => ⟨fun hafter hadds => not_apart_of_adds hadds hafter, ?_⟩⟩
  exact fun hother => (hcall world call hapart hother).apart

def rotateKeys : CommitmentCreate where
  title := "Rotate keys"
  isMaintenance := some true
  createdByEventId := 9
  tenantId := 1

theorem oneGoal_apart : oneGoal.db.MaintenanceApart := fun _ _ _ _ _ => rfl

theorem oneGoal_exist : oneGoal.db.ContributorsExist := fun _ _ _ => rfl

def contributeTo (commitmentId : Nat) : ActCall :=
  .addEdge { kind := .contributesTo, commitmentId := some commitmentId, goalId := some 3 }

def maintained : World :=
  oneGoal.call (.createCommitment ⟨5, 5⟩ rotateKeys)

/-- Beside a maintenance commitment another one is joined to the goal; the call that would join
the maintenance commitment ends the property. -/
theorem maintenance_apart_one_goal :
    ∃ world, Reach step (fun world call => ¬ AddsToMaintenance world.db call) oneGoal world ∧
      ((world.db.commitments.get 10).any fun row => row.isMaintenance) ∧
      (world.db.contributesTo.get (12, 3)).isSome ∧ world.db.MaintenanceApart ∧
      ¬ (world.call (contributeTo 10)).db.MaintenanceApart := by
  have hcreated : Reach step (fun world call => ¬ AddsToMaintenance world.db call) oneGoal
      (maintained.call (.createCommitment ⟨5, 5⟩ { rotateKeys with isMaintenance := none })) := by
    refine .next (.next .start ?_ rfl) ?_ rfl <;>
      · rintro ⟨args, _, _, _, hcall, -⟩
        cases hcall
  have hreach := hcreated.next (a := contributeTo 12) (by
    rintro ⟨args, commitmentId, goalId, row, hcall, -, hnamed, -, hget, hmaintenance, -⟩
    cases hcall
    cases hnamed
    cases hget
    cases hmaintenance) rfl
  obtain ⟨hapart, hcalls⟩ := maintenance_apart oneGoal_apart oneGoal_exist hreach
  refine ⟨_, hreach, by decide +kernel, by decide +kernel, hapart, fun hjoined => ?_⟩
  exact (hcalls _).mp hjoined ⟨_, 10, 3, _, rfl, rfl, rfl, rfl, rfl, rfl, rfl⟩

/-- A maintenance commitment is created without goals and given one afterwards. -/
theorem maintenance_contributes :
    ¬ ∀ world, Reach step anyStep oneGoal world → world.db.MaintenanceApart := by
  intro hall
  have hreach : Reach step anyStep oneGoal (maintained.call (contributeTo 10)) :=
    .next (.next .start trivial rfl) trivial rfl
  have hrow : ((maintained.call (contributeTo 10)).db.commitments.get 10).any
      fun row => row.isMaintenance := by
    decide +kernel
  obtain ⟨row, hget, hmaintenance⟩ := (any_eq_true _ _).mp hrow
  have hnone := hall _ hreach 10 row hget hmaintenance 3
  revert hnone
  decide +kernel

end FyralisCore.Acts
