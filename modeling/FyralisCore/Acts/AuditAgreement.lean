import FyralisCore.Acts.Effects

/-! The guards of `create` and `transition` against the audit of the same
invariants. A transition never leaves a row the audit reports. A creation does
in two cases, and in no others: a commitment created `doneverified`, which has
no resolving event, and one created `blocked` that nothing blocks. -/
namespace FyralisCore.Acts

open Relational Transaction Db

def Db.Passes (db : Db) (check : ActTx (List ActError)) : Prop :=
  Tx.Returns apply check db 0 [] db 0

structure Db.AuditClean (db : Db) (commitmentId : Nat) : Prop where
  c1 : db.Passes (checkC1OwnerRequired commitmentId)
  c2 : db.Passes (checkC2BlockedReason commitmentId)
  c3 : db.Passes (checkC3DoneverifiedResolved commitmentId)
  c10 : db.Passes (checkC10ContributesOrMaintenance commitmentId)

theorem Db.auditClean_iff (db : Db) (commitmentId : Nat) : db.AuditClean commitmentId ↔
      db.SatisfiesC1 commitmentId ∧ db.SatisfiesC2 commitmentId ∧
        db.SatisfiesC3 commitmentId ∧ db.SatisfiesC10 commitmentId := by
  constructor
  · intro hc
    exact ⟨(returns_checkC1.mp hc.c1).1, (returns_checkC2.mp hc.c2).1,
      (returns_checkC3.mp hc.c3).1, (returns_checkC10.mp hc.c10).1⟩
  · rintro ⟨hc1, hc2, hc3, hc10⟩
    exact
      { c1 := returns_checkC1.mpr ⟨hc1, rfl, rfl⟩
        c2 := returns_checkC2.mpr ⟨hc2, rfl, rfl⟩
        c3 := returns_checkC3.mpr ⟨hc3, rfl, rfl⟩
        c10 := returns_checkC10.mpr ⟨hc10, rfl, rfl⟩ }

/-- The references of the edge tables, which PostgreSQL keeps. -/
structure Db.ForeignKeys (db : Db) : Prop where
  contributesTo : ∀ commitmentId goalId critical,
    db.contributesTo.get (commitmentId, goalId) = some critical →
      (db.commitments.get commitmentId).isSome ∧ (db.goals.get goalId).isSome
  dependsOn : ∀ dependentId dependencyId, db.DependsOn dependentId dependencyId →
    (db.commitments.get dependentId).isSome ∧ (db.commitments.get dependencyId).isSome
  constrainedBy : ∀ commitmentId decisionId,
    db.constrainedBy.get (commitmentId, decisionId) = some () →
      (db.commitments.get commitmentId).isSome ∧ (db.decisions.get decisionId).isSome

section

variable {db after : Db} {clock : Clock} {commitmentId : Nat} {newState : CommitmentState}
  {args : TransitionArgs} {supply : Nat} {row result : CommitmentRow}

theorem CommitmentMoved.auditClean
    (hmv : CommitmentMoved db clock commitmentId newState args supply row result after) :
    after.AuditClean commitmentId := by
  have hs : after.commitments.get commitmentId = some result := by
    rw [hmv.get_after, if_pos rfl]
  have hst : result.state = newState := by rw [hmv.result_eq]; rfl
  have hed : after.dependsOn = db.dependsOn ∧ after.constrainedBy = db.constrainedBy ∧
      after.decisions = db.decisions ∧ after.contributesTo = db.contributesTo := by
    obtain ⟨observation, rfl⟩ := hmv.after_eq
    exact ⟨rfl, rfl, rfl, rfl⟩
  obtain ⟨hde, hc, hdc, hcn⟩ := hed
  rw [auditClean_iff]
  refine ⟨?_, ?_, ?_, ?_⟩
  · intro found hf ho
    cases hs.symm.trans hf
    have how : result.ownerId = row.ownerId := by rw [hmv.result_eq]; rfl
    rw [how]
    exact hmv.owned (hst ▸ ho)
  · intro found hf hb
    cases hs.symm.trans hf
    rcases hmv.reason (hst ▸ hb) with hdp | hr
    · left
      obtain ⟨dependencyId, dependency, he, hg, hn⟩ :=
        (unsatisfiedDependencies_ne_zero_iff _ _).mp hdp
      -- The row that moved may be its own dependency; it is `blocked` now.
      refine (unsatisfiedDependencies_ne_zero_iff _ _).mpr
        ⟨dependencyId, if dependencyId = commitmentId then result else dependency, ?_, ?_, ?_⟩
      · rw [Db.DependsOn, hde]
        exact he
      · rw [hmv.get_after, hg]
        split <;> rfl
      · split
        · rw [hb]
          decide
        · exact hn
    · right
      rw [revisitedConstrainingDecisions_ne_zero_iff] at hr ⊢
      rw [hc, hdc]
      exact hr
  · intro found hf hd
    cases hs.symm.trans hf
    have hrs := hmv.resolved (hst ▸ hd)
    rw [hmv.result_eq]
    exact hrs
  · intro found hf ho
    cases hs.symm.trans hf
    have hm : result.countsAsMaintenance = row.countsAsMaintenance := by
      rw [hmv.result_eq]; rfl
    rw [hm, contributions, hcn]
    exact hmv.working (hst ▸ ho)

end

structure CommitmentCreate.Resolvable (args : CommitmentCreate) (db : Db) : Prop where
  notDone : args.initialState ≠ .doneverified
  hasReason : args.initialState = .blocked →
    (∃ dependencyId ∈ args.dependsOnCommitmentIds.getD [], db.isUnsatisfied dependencyId) ∨
    ∃ decisionId ∈ args.constrainedByDecisionIds.getD [],
      (db.decisions.get decisionId).map DecisionRow.state = some .revisited

section Created

variable {db after : Db} {clock : Clock} {args : CommitmentCreate}
  {input : CommitmentCreateInput} {supply : Nat} {result : Nat × CommitmentRow}

section

variable (hk : db.ForeignKeys) (hc : CommitmentCreated db clock input supply result after)

include hk hc

/-- The new row has an unsatisfied dependency exactly when one of the listed
dependencies was unsatisfied. -/
theorem CommitmentCreated.unsatisfied_iff : after.unsatisfiedDependencies supply ≠ 0 ↔
    ∃ dependencyId ∈ input.dependsOnCommitmentIds, db.isUnsatisfied dependencyId := by
  have ho : ∀ dependencyId, ¬ db.DependsOn supply dependencyId := by
    intro dependencyId he
    have hbr := (hk.dependsOn _ _ he).1
    rw [hc.fresh] at hbr
    cases hbr
  have hl : ∀ dependencyId ∈ input.dependsOnCommitmentIds,
      ∃ row, db.commitments.get dependencyId = some row ∧
        after.commitments.get dependencyId = some row := by
    intro dependencyId hm
    have ht := hc.references.dependencies dependencyId hm
    obtain ⟨row, hr, _⟩ := Option.map_eq_some_iff.mp ht
    refine ⟨row, hr, ?_⟩
    rw [hc.get_after, if_neg, hr]
    rintro rfl
    rw [hc.fresh] at hr
    cases hr
  rw [unsatisfiedDependencies_ne_zero_iff]
  simp only [hc.dependsOn_after_iff, ho, false_or, true_and]
  constructor
  · rintro ⟨dependencyId, row, hm, hr, hn⟩
    obtain ⟨dependency, hb, ha⟩ := hl dependencyId hm
    cases hr.symm.trans ha
    exact ⟨dependencyId, hm, by simp [isUnsatisfied, hb, hn]⟩
  · rintro ⟨dependencyId, hm, hu⟩
    obtain ⟨dependency, hb, ha⟩ := hl dependencyId hm
    refine ⟨dependencyId, dependency, hm, ha, ?_⟩
    simpa [isUnsatisfied, hb] using hu

theorem CommitmentCreated.revisited_iff : after.revisitedConstrainingDecisions supply ≠ 0 ↔
    ∃ decisionId ∈ input.constrainedByDecisionIds,
    (db.decisions.get decisionId).map DecisionRow.state = some .revisited := by
  have ho : ∀ decisionId, ¬ db.constrainedBy.get (supply, decisionId) = some () := by
    intro decisionId he
    have hb := (hk.constrainedBy _ _ he).1
    rw [hc.fresh] at hb
    cases hb
  have hd : after.decisions = db.decisions := by
    obtain ⟨observation, rfl⟩ := hc.after_eq
    rfl
  rw [revisitedConstrainingDecisions_ne_zero_iff]
  simp only [hc.constrainedBy_after_iff, ho, false_or, true_and, hd, Option.map_eq_some_iff]
  constructor
  · rintro ⟨decisionId, row, hm, hr⟩
    exact ⟨decisionId, hm, row, hr⟩
  · rintro ⟨decisionId, hm, row, hr⟩
    exact ⟨decisionId, row, hm, hr⟩

end

theorem CommitmentCreated.contributes (hc : CommitmentCreated db clock input supply result after)
    (hg : input.contributesToGoalIds ≠ []) : after.contributions supply ≠ 0 := by
  obtain ⟨item, rest, hi⟩ := List.exists_cons_of_ne_nil hg
  obtain ⟨observation, rfl⟩ := hc.after_eq
  refine (contributions_ne_zero_iff _ _).mpr ⟨item.edgeParts.1, ?_⟩
  have hr : ((supply, item.edgeParts.1), item.edgeParts.2) ∈
      input.contributesToGoalIds.map fun item =>
        ((supply, item.edgeParts.1), item.edgeParts.2) :=
    List.mem_map.mpr ⟨item, by simp [hi], rfl⟩
  exact Table.isSome_get_insertAll db.contributesTo hr

theorem effectiveInitial_cases (input : CommitmentCreateInput) (db : Db) :
    (input.effectiveInitial db = input.initialState) ∨
      (input.effectiveInitial db = .blocked ∧ input.initialState = .active ∧
        ∃ dependencyId ∈ input.dependsOnCommitmentIds, db.isUnsatisfied dependencyId) := by
  unfold CommitmentCreateInput.effectiveInitial
  split
  · next ha => exact .inr ⟨rfl, ha.1, ha.2⟩
  · exact .inl rfl

theorem CommitmentCreated.satisfiesC1 (hpr : InputPrepared args input)
    (hc : CommitmentCreated db clock input supply result after) : after.SatisfiesC1 supply := by
  intro row hr ho
  rw [hc.get_after, if_pos rfl, hc.result_eq] at hr
  cases hr
  rcases hpr.owned with hp | how
  · rcases effectiveInitial_cases input db with hs | ⟨_, ha, _⟩
    · have hst : (input.effectiveInitial db).isOpen := ho
      rw [hs, hp] at hst
      cases hst
    · rw [hp] at ha
      cases ha
  · exact how

section

variable (hp : InputPrepared args input) (hc : CommitmentCreated db clock input supply result after)

include hp hc

theorem CommitmentCreated.satisfiesC10 : after.SatisfiesC10 supply := by
  intro row hr ho
  rw [hc.get_after, if_pos rfl, hc.result_eq] at hr
  cases hr
  rcases hp.working with hcl | hm | hg
  · rcases effectiveInitial_cases input db with hs | ⟨_, ha, _⟩
    · have hst : (input.effectiveInitial db).isOpen := ho
      rw [hs, isOpen_iff] at hst
      exact absurd hcl hst
    · rw [ha] at hcl
      exact absurd hcl (by decide)
  · left
    exact Bool.or_eq_true_iff.mpr (.inl hm)
  · exact .inr (hc.contributes hg)

theorem CommitmentCreated.satisfiesC3_iff : after.SatisfiesC3 supply ↔
    args.initialState ≠ .doneverified := by
  have hd : input.effectiveInitial db = .doneverified ↔ args.initialState = .doneverified := by
    rw [← hp.state_eq]
    rcases effectiveInitial_cases input db with hs | ⟨ha, hac, _⟩
    · rw [hs]
    · rw [ha, hac]
      decide
  rw [Db.SatisfiesC3, hc.get_after, if_pos rfl, hc.result_eq]
  constructor
  · intro hrs hst
    exact hrs _ rfl (hd.mpr hst) rfl
  · intro hn row hr hst
    cases hr
    exact absurd (hd.mp hst) hn

end

section

variable (hk : db.ForeignKeys) (hp : InputPrepared args input)
  (hc : CommitmentCreated db clock input supply result after)

include hk hp hc

theorem CommitmentCreated.satisfiesC2_iff : after.SatisfiesC2 supply ↔ (args.initialState =
    .blocked →
    (∃ dependencyId ∈ args.dependsOnCommitmentIds.getD [], db.isUnsatisfied dependencyId) ∨
    ∃ decisionId ∈ args.constrainedByDecisionIds.getD [],
    (db.decisions.get decisionId).map DecisionRow.state = some .revisited) := by
  rw [← hp.dependencies_eq, ← hp.decisions_eq, ← hp.state_eq,
    ← hc.unsatisfied_iff hk, ← hc.revisited_iff hk, Db.SatisfiesC2,
    hc.get_after, if_pos rfl, hc.result_eq]
  constructor
  · intro hrs hb
    refine hrs _ rfl ?_
    rcases effectiveInitial_cases input db with hs | ⟨ha, _⟩
    · exact hs.trans hb
    · exact ha
  · intro hrs row hr hb
    cases hr
    rcases effectiveInitial_cases input db with hs | ⟨_, _, ha⟩
    · exact hrs (hs.symm.trans hb)
    · exact .inl ((hc.unsatisfied_iff hk).mpr ha)

theorem CommitmentCreated.auditClean_iff : after.AuditClean supply ↔ args.Resolvable db := by
  rw [Db.auditClean_iff, hc.satisfiesC2_iff hk hp, hc.satisfiesC3_iff hp]
  constructor
  · rintro ⟨_, hr, hd, _⟩
    exact ⟨hd, hr⟩
  · rintro ⟨hd, hr⟩
    exact ⟨hc.satisfiesC1 hp, hr, hd, hc.satisfiesC10 hp⟩

end

end Created

/-- What a call that returns leaves: a creation passes the audit exactly when
it is resolvable, a transition always does. -/
theorem audit_after_write (db : Db) (hkeys : db.ForeignKeys) (clock : Clock) (supply : Nat) :
    (∀ args result after left,
      Tx.Returns apply (createCommitment clock args) db supply result after left →
        (after.AuditClean result.1 ↔ args.Resolvable db)) ∧
    ∀ commitmentId newState args result after left,
      Tx.Returns apply (transitionCommitment clock commitmentId newState args) db supply
        result after left → after.AuditClean commitmentId := by
  constructor
  · intro args result after left hreturns
    obtain ⟨input, hprepare, hcreated, _⟩ := createCommitment_effect hreturns
    have hid : result.1 = supply := by rw [hcreated.result_eq]
    rw [hid]
    exact hcreated.auditClean_iff hkeys (prepareCommitmentCreateInput_spec hprepare)
  · intro commitmentId newState args result after left hreturns
    obtain ⟨row, hmoved, _⟩ := transitionCommitment_effect hreturns
    exact hmoved.auditClean

/-! One tenant with an active actor, an active goal and a proposed commitment
that contributes to it. -/

def oneCommitmentDb : Db where
  tenants := [1]
  actors := Table.put ∅ 2 { tenantId := 1 }
  goals := Table.put ∅ 3
    { tenantId := 1, title := "Launch", createdAt := 0, lastStateChangeAt := 0,
      createdByEventId := 9 }
  commitments := Table.put ∅ 4
    { tenantId := 1, title := "Ship", ownerId := some 2, createdAt := 0,
      lastStateChangeAt := 0, createdByEventId := 9 }
  contributesTo := Table.put ∅ (4, 3) false

theorem oneCommitmentDb_foreignKeys : oneCommitmentDb.ForeignKeys where
  contributesTo := by
    intro commitmentId goalId critical hg
    have hk : (commitmentId, goalId) = (4, 3) := by
      by_contra hn
      rw [show oneCommitmentDb.contributesTo = Table.put ∅ (4, 3) false from rfl,
        Table.get_put_ne _ _ hn] at hg
      cases hg
    cases hk
    exact ⟨rfl, rfl⟩
  dependsOn := fun _ _ he => by cases he
  constrainedBy := fun _ _ he => by cases he

def ownedCreate (initialState : CommitmentState) : CommitmentCreate where
  title := "Write the runbook"
  initialState
  ownerId := some 2
  contributesToGoalIds := some [.goal 3]
  createdByEventId := 9
  tenantId := 1

theorem audit_after_active_create :
    (∃ result after left, Tx.Returns apply (createCommitment ⟨5, 5⟩ (ownedCreate .active))
      oneCommitmentDb 10 result after left ∧ after.AuditClean result.1) ∧
    ∃ result after left, Tx.Returns apply
      (transitionCommitment ⟨5, 5⟩ 4 .active { causeEventId := some 9 })
      oneCommitmentDb 10 result after left ∧ after.AuditClean 4 := by
  obtain ⟨hcreate, htransition⟩ :=
    audit_after_write oneCommitmentDb oneCommitmentDb_foreignKeys ⟨5, 5⟩ 10
  constructor
  · refine ⟨_, _, _, rfl, (hcreate (ownedCreate .active) _ _ _ rfl).mpr ⟨by decide, ?_⟩⟩
    intro hblocked
    cases hblocked
  · exact ⟨_, _, _, rfl, htransition 4 .active { causeEventId := some 9 } _ _ _ rfl⟩

/-- A commitment created `blocked` without a dependency or a decision is
written, and the audit reports it (C2); one created `doneverified` is written
without a resolving event (C3). -/
theorem create_admits_audited_violation : (∃ result after left, Tx.Returns apply
      (createCommitment ⟨5, 5⟩ (ownedCreate .blocked)) oneCommitmentDb 10 result after left ∧
        ¬ after.AuditClean result.1) ∧ ∃ result after left, Tx.Returns apply
      (createCommitment ⟨5, 5⟩ (ownedCreate .doneverified)) oneCommitmentDb 10 result after
        left ∧ ¬ after.AuditClean result.1 := by
  constructor
  · refine ⟨_, _, _, rfl, fun hclean => ?_⟩
    have hreason := (returns_checkC2.mp hclean.c2).1 _ rfl rfl
    exact absurd hreason (by decide)
  · refine ⟨_, _, _, rfl, fun hclean => ?_⟩
    exact (returns_checkC3.mp hclean.c3).1 _ rfl rfl rfl

end FyralisCore.Acts
