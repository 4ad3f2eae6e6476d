import FyralisCore.Acts.CriticalPaths

/-! The calls keep the critical paths of achieved goals done: each locks the
rows that its check is about before it reads them, and what it has read of a
row it holds is still true when it writes. -/
namespace FyralisCore.Acts

open Relational Transaction ReadCommitted List Transition Trail

/-- A fact that the commits of others, statements on other tables and new
identifiers leave true. -/
structure Carried (F : Db → Trail Write RowRef → Prop) : Prop where
  rely : ∀ {db later trail}, GoalOwn db trail → F db trail → GoalRely trail db later →
    F later trail
  side : ∀ {db trail lock writes}, F db trail →
    SideStatement (actSchema.view db trail.writes) lock writes →
    F db (trail.extend lock writes)
  mint : ∀ {db trail id}, F db trail → F db (trail.mint id)

theorem carried_true : Carried fun _ _ => True where
  rely := fun _ _ _ => trivial
  side := fun _ _ => trivial
  mint := fun _ => trivial

theorem Carried.and (hF : Carried F) (hG : Carried G) :
    Carried fun db trail => F db trail ∧ G db trail where
  rely := fun ho hf hr => ⟨hF.rely ho hf.1 hr, hG.rely ho hf.2 hr⟩
  side := fun hf hs => ⟨hF.side hf.1 hs, hG.side hf.2 hs⟩
  mint := fun hf => ⟨hF.mint hf.1, hG.mint hf.2⟩

theorem carried_minted (id : Nat) : Carried fun _ trail => id ∈ trail.minted where
  rely := fun _ hm _ => hm
  side := fun hm _ => hm
  mint := fun hm => mem_cons_of_mem _ hm

def SeesGoals (goalIds : List Nat) (db : Db) (trail : Trail Write RowRef) : Prop :=
  ∀ goalId ∈ goalIds, ((actSchema.view db trail.writes).goals.get goalId).isSome

theorem carried_seesGoals (goalIds : List Nat) : Carried (SeesGoals goalIds) where
  rely := by
    intro db u trail _ hse hr goalId hm
    have hsn := hse goalId hm
    rw [view_goals_get] at hsn ⊢
    exact goalSeen_isSome_mono (hr.goalsStay goalId) hsn
  side := by
    intro db trail lock ws hse hs goalId hm
    rw [extend, (view_side db trail hs.writes).1]
    exact hse goalId hm
  mint := fun hse => hse

def HoldsGoalRow (goalId : Nat) (row : GoalRow) (db : Db) (trail : Trail Write RowRef) : Prop :=
  HoldsGoal trail goalId ∧ (actSchema.view db trail.writes).goals.get goalId = some row

theorem holdsGoal_mint {trail : Trail Write RowRef} {id : Nat}
    (hh : HoldsGoal trail goalId) : HoldsGoal (trail.mint id) goalId :=
  hh.imp_right (mem_cons_of_mem _)

theorem carried_goalRow (goalId : Nat) (row : GoalRow) : Carried (HoldsGoalRow goalId row) where
  rely := fun _ hf hrl => ⟨hf.1, by rw [hrl.goal_seen hf.1]; exact hf.2⟩
  side := by
    rintro db trail lock ws ⟨hh, hr⟩ hs
    refine ⟨holdsGoal_extend hh, ?_⟩
    rw [extend, (view_side db trail hs.writes).1]
    exact hr
  mint := fun hf => ⟨holdsGoal_mint hf.1, hf.2⟩

def HoldsCommitmentRow (commitmentId : Nat) (row : CommitmentRow) (db : Db)
    (trail : Trail Write RowRef) : Prop :=
  HoldsCommitment trail commitmentId ∧
    (actSchema.view db trail.writes).commitments.get commitmentId = some row

theorem carried_commitmentRow (commitmentId : Nat) (row : CommitmentRow) :
    Carried (HoldsCommitmentRow commitmentId row) where
  rely := fun _ hf hrl => ⟨hf.1, by rw [hrl.commitment_seen hf.1]; exact hf.2⟩
  side := by
    rintro db trail lock ws ⟨hh, hr⟩ hs
    refine ⟨holdsCommitment_extend hh, ?_⟩
    rw [extend, (view_side db trail hs.writes).2.1]
    exact hr
  mint := fun hf => ⟨hf.1.imp_right (mem_cons_of_mem _), hf.2⟩

def HoldsDonePath (goalId : Nat) (newState : GoalState) (db : Db)
    (trail : Trail Write RowRef) : Prop :=
  HoldsGoal trail goalId ∧ (newState = .achieved → SeesPathDone db trail goalId)

theorem carried_donePath (goalId : Nat) (newState : GoalState) :
    Carried (HoldsDonePath goalId newState) where
  rely := fun ho hf hr =>
    ⟨hf.1, fun hst => ho.pathDone_stable hr hf.1 (hf.2 hst)⟩
  side := by
    rintro db trail lock ws ⟨hh, hp⟩ hs
    refine ⟨holdsGoal_extend hh, fun hst commitmentId row => ?_⟩
    rw [extend, (view_side db trail hs.writes).2.1, (view_side db trail hs.writes).2.2]
    exact hp hst commitmentId row
  mint := fun hf => ⟨holdsGoal_mint hf.1, hf.2⟩

section

variable {start db : Db} {trail : Trail Write RowRef} {F : Db → Trail Write RowRef → Prop}

def Keeps (F : Db → Trail Write RowRef → Prop) (db : Db) (trail : Trail Write RowRef) : Prop :=
  GoalOwn db trail ∧ F db trail

variable {α : Type}

theorem wp_side (hF : Carried F) (hb : body.EachStatement SideStatement) (hk : Keeps F db trail) :
    goalProtocol.wp start (fun _ => Keeps F) body db trail := by
  refine wp_of_eachStatement (I := Keeps F) hb ?_ ?_ ?_ hk
  · exact fun s t trail hk hr hg =>
      ⟨hk.1.stable hr hg, hF.rely hk.1 hk.2 hr⟩
  · intro t trail lock ws hk _ hs
    have ho := hk.1.extend_side hs
    exact ⟨ho, ho, hF.side hk.2 hs⟩
  · intro t trail id hk _ hu _
    have ho := hk.1.mint hu
    exact ⟨ho, ho, hF.mint hk.2⟩

theorem wp_lockingRead (hF : Carried F)
    (hl : ∀ seen row, lock seen = some row → seen.HasRow row) (hk : Keeps F db trail) :
    goalProtocol.wp start (fun v s t => Keeps F s t ∧ v = answer (actSchema.view s t.writes) ∧
        ∀ row, lock (actSchema.view s t.writes) = some row → row ∈ t.locks)
      (Tx.readLocking lock answer) db trail := by
  refine wp_query fun t hrl hg => ?_
  have ho := hk.1.stable hrl hg
  have hf := hF.rely hk.1 hk.2 hrl
  have hs : SideStatement (actSchema.view t trail.writes)
      (lock (actSchema.view t trail.writes)) [] := ⟨fun row => hl _ row, noWrites⟩
  have hw : (trail.extend (lock (actSchema.view t trail.writes)) []).writes =
      trail.writes := append_nil _
  have he := ho.extend_side hs
  refine ⟨he, ⟨he, hF.side hf hs⟩, by rw [hw], ?_⟩
  intro row hr
  rw [hw] at hr
  exact mem_append_left _ (Option.mem_toList.mpr hr)

theorem wp_require {failure : Db → Option ActError} (hF : Carried F) (hk : Keeps F db trail) :
    goalProtocol.wp start (fun _ s t => Keeps F s t ∧
        failure (actSchema.view s t.writes) = none) (Tx.require failure) db trail := by
  refine wp_query fun t hr hg => ?_
  have ho := hk.1.stable hr hg
  have hfc := hF.rely hk.1 hk.2 hr
  cases hf : failure (actSchema.view t trail.writes) with
  | some error =>
    simp only [extend_nothing]
    exact ho
  | none =>
    simp only [extend_nothing]
    exact ⟨ho, ⟨ho, hfc⟩, hf⟩

theorem wp_raiseIf (hn : error = none → Q () db trail) :
    goalProtocol.wp start Q (raiseIf error) db trail := by
  cases error with
  | some error => trivial
  | none => exact hn rfl

section

variable (hF : Carried F)

include hF

theorem wp_fetchGoal (goalId : Nat) (hkp : Keeps F db trail) : goalProtocol.wp start
    (fun found s t => Keeps F s t ∧ found = (actSchema.view s t.writes).goals.get goalId ∧ ∀ row,
    found = some row → HoldsGoalRow goalId row s t) (fetchGoalForUpdate goalId) db trail := by
  refine wp_mono (wp_lockingRead hF (fun seen => lockGoal_hasRow seen goalId) hkp) ?_
  rintro found s t ⟨hk, hf, hl⟩
  refine ⟨hk, hf, fun row hr => ?_⟩
  have hs := hf.symm.trans hr
  exact ⟨.inl (hl _ (by rw [Db.lockGoal, hs]; rfl)), hs⟩

theorem wp_fetchCommitment (commitmentId : Nat) (hkp : Keeps F db trail) : goalProtocol.wp start
    (fun found s t => Keeps F s t ∧ ∀ row, found = some row →
    HoldsCommitmentRow commitmentId row s t) (fetchCommitmentForUpdate commitmentId) db trail := by
  refine wp_mono (wp_lockingRead hF (fun seen => lockCommitment_hasRow seen commitmentId) hkp) ?_
  rintro found s t ⟨hk, hf, hl⟩
  refine ⟨hk, fun row hr => ?_⟩
  have hs := hf.symm.trans hr
  exact ⟨.inl (hl _ (by rw [Db.lockCommitment, hs]; rfl)), hs⟩

theorem wp_write {Q : α → Db → Trail Write RowRef → Prop} (hl : ∀ seen row, lock seen = some row →
    seen.HasRow row) (hk : Keeps F db trail) (ha : ∀ s ws v, Keeps F s trail →
    answer (actSchema.view s trail.writes) = .ok (ws, v) →
    (∀ w ∈ ws, Guarded s (trail.extend (lock (actSchema.view s trail.writes)) ws) w) ∧
    (ws.foldl Db.apply (actSchema.view s trail.writes)).CriticalPathsDone ∧
    (GoalOwn s (trail.extend (lock (actSchema.view s trail.writes)) ws) →
    Q v s (trail.extend (lock (actSchema.view s trail.writes)) ws))) : goalProtocol.wp start Q
    (Tx.query lock answer) db trail := by
  refine wp_query fun t hrl hg => ?_
  have ho := hk.1.stable hrl hg
  have hf := hF.rely hk.1 hk.2 hrl
  cases hc : answer (actSchema.view t trail.writes) with
  | ok r =>
    obtain ⟨hgu, hs, hp⟩ := ha t r.1 r.2 ⟨ho, hf⟩ hc
    have he := ho.extend (fun row hr => hl _ row hr) hgu (by rw [Schema.view_append]; exact hs)
    exact ⟨he, hp he⟩
  | error error =>
    exact ho.extend_side ⟨fun row hr => hl _ row hr, noWrites⟩

theorem wp_mintId (hk : Keeps F db trail) : goalProtocol.wp start
    (fun id => Keeps fun s t => F s t ∧ id ∈ t.minted) Tx.newId db trail := by
  refine wp_newId fun t id hr hg hu _ => ?_
  have ho := (hk.1.stable hr hg).mint hu
  exact ⟨ho, ho, hF.mint (hF.rely hk.1 hk.2 hr), .head _⟩

end

end

section Calls

variable {start db : Db} {trail : Trail Write RowRef} {F : Db → Trail Write RowRef → Prop}

private theorem emitStateChange_side (clock : Clock) (tenantId : Nat) (entityKind : EntityKind)
    (entityId : Nat) (fromState : Option String) (toState : String) (causeEventId : Option Nat) :
    (emitStateChange clock tenantId entityKind entityId fromState toState
      causeEventId).EachStatement SideStatement :=
  emitStateChange_eachStatement sideStatement_reads
    (fun _ _ _ => sideStatement_single trivial) _ _ _ _ _ _ _

variable {goalId commitmentId : Nat} {row : CommitmentRow} {goalIds : List Nat} {critical : Bool}

theorem wp_updateGoalState (clock : Clock) {newState : GoalState}
    (hk : Keeps (HoldsDonePath goalId newState) db trail) :
    goalProtocol.wp start (fun _ s t => GoalOwn s t) (updateGoalState clock goalId newState) db
      trail := by
  refine wp_write (carried_donePath goalId newState) (fun seen => lockGoal_hasRow seen goalId) hk ?_
  rintro s ws v ⟨ho, hh, hp⟩ ha
  cases ha
  refine ⟨fun w hm => ?_, setGoalState_good ho.seen hp, fun he => he⟩
  obtain rfl := mem_singleton.mp hm
  exact guarded_setGoalState (holdsGoal_extend hh) _ _ _

theorem wp_requireCriticalPathDone {row : GoalRow} (newState : GoalState)
    (hk : Keeps (HoldsGoalRow goalId row) db trail) :
    goalProtocol.wp start (fun _ => Keeps (HoldsDonePath goalId newState))
      (Tx.when (newState = .achieved) (requireCriticalPathDone goalId)) db trail := by
  refine wp_when (fun _ => ?_) fun hsk => ?_
  · refine wp_mono (wp_require (carried_goalRow goalId row) hk) ?_
    rintro _ s t ⟨⟨ho, hh, _⟩, hn⟩
    refine ⟨ho, hh, fun _ => ?_⟩
    have hz : (actSchema.view s t.writes).incompleteCriticalPath goalId = 0 := by
      by_contra hs
      rw [if_pos (Nat.pos_of_ne_zero hs)] at hn
      cases hn
    exact (Db.incompleteCriticalPath_eq_zero_iff _ _).mp hz
  · exact ⟨hk.1, hk.2.1, fun hst => absurd hst (by simpa using hsk)⟩

theorem wp_transitionGoal (clock : Clock) (goalId : Nat) (newState : GoalState)
    (causeEventId : Option Nat) :
    goalProtocol.Preserves start GoalOwn (transitionGoal clock goalId newState causeEventId) := by
  intro db trail ho
  refine wp_seq (wp_fetchGoal carried_true goalId ⟨ho, trivial⟩) ?_
  rintro found s₁ t₁ ⟨⟨ho, -⟩, -, hr⟩
  refine wp_seq (wp_orRaise (Q := fun row => Keeps (HoldsGoalRow goalId row)) fun row hf =>
    ⟨ho, hr row hf⟩) fun row s₂ t₂ hk => ?_
  refine wp_seq (wp_ensure (Q := fun _ => Keeps (HoldsGoalRow goalId row)) fun _ => hk)
    fun _ s₃ t₃ hk => ?_
  refine wp_seq (wp_requireCriticalPathDone newState hk) fun _ s₄ t₄ hk => ?_
  refine wp_seq (wp_updateGoalState clock hk) fun updated s₅ t₅ ho => ?_
  refine wp_mono (wp_side carried_true ((emitStateChange_side _ _ _ _ _ _ _).bind
    fun _ => .orRaise) ⟨ho, trivial⟩) fun _ _ _ hk => hk.1

theorem wp_insertGoal {row : GoalRow} (hs : row.state ≠ .achieved)
    (hk : Keeps (fun _ t => goalId ∈ t.minted) db trail) :
    goalProtocol.wp start (fun _ s t => GoalOwn s t) (insertGoal goalId row) db trail := by
  refine wp_write (carried_minted goalId) (fun seen row hl => noLock seen row hl) hk ?_
  rintro s ws v ⟨ho, hmi⟩ ha
  obtain ⟨hc, hp⟩ := (constrained_eq_ok_iff _ _ _).mp ha
  cases hp
  have hf : (actSchema.view s trail.writes).goals.get goalId = none := by
    simpa using hc _ (.head _)
  refine ⟨fun w hm => ?_, insertGoal_good ho.seen hf hs, fun he => he⟩
  obtain rfl := mem_singleton.mp hm
  apply guarded_insertGoal
  exact hmi

theorem wp_createGoal (clock : Clock) (a : GoalCreate) :
    goalProtocol.Preserves start GoalOwn (createGoal clock a) := by
  intro db trail ho
  refine wp_seq (wp_side carried_true .ensure ⟨ho, trivial⟩) fun _ s₁ t₁ hk => ?_
  refine wp_seq (wp_side carried_true
    (validateParentGoal_eachStatement sideStatement_reads a) hk) fun _ s₂ t₂ hk => ?_
  refine wp_seq (wp_mintId carried_true hk) fun goalId s₃ t₃ hk => ?_
  have hs : (a.row clock).state ≠ .achieved := fun he => GoalState.noConfusion he
  refine wp_seq (wp_insertGoal hs ⟨hk.1, hk.2.2⟩) fun _ s₄ t₄ ho => ?_
  exact wp_mono (wp_side carried_true ((emitStateChange_side _ _ _ _ _ _ _).bind
    fun _ => .done) ⟨ho, trivial⟩) fun _ _ _ hk => hk.1

def SeesGoalsAndRow (goalIds : List Nat) (commitmentId : Nat) (row : CommitmentRow) (db : Db)
    (trail : Trail Write RowRef) : Prop :=
  SeesGoals goalIds db trail ∧ HoldsCommitmentRow commitmentId row db trail

theorem carried_seesGoalsAndRow (goalIds : List Nat) (commitmentId : Nat)
    (row : CommitmentRow) : Carried (SeesGoalsAndRow goalIds commitmentId row) :=
  (carried_seesGoals goalIds).and (carried_commitmentRow commitmentId row)

/-- A critical edge to the goal is one that the goal can take: the session
holds it, and it is not achieved unless the commitment is done. -/
def AcceptsEdge (goalId : Nat) (critical : Bool) (state : CommitmentState) (db : Db)
    (trail : Trail Write RowRef) : Prop :=
  critical → HoldsGoal trail goalId ∧
    ∀ goal, (actSchema.view db trail.writes).goals.get goalId = some goal →
      goal.state = .achieved → state = .doneverified

theorem carried_acceptsEdge (goalId : Nat) (critical : Bool) (s : CommitmentState) :
    Carried (AcceptsEdge goalId critical s) where
  rely := by
    intro db u trail _ ha hr hc
    obtain ⟨hh, hg⟩ := ha hc
    exact ⟨hh, by rw [hr.goal_seen hh]; exact hg⟩
  side := by
    intro db trail lock ws ha hs hc
    obtain ⟨hh, hg⟩ := ha hc
    refine ⟨holdsGoal_extend hh, ?_⟩
    rw [extend, (view_side db trail hs.writes).1]
    exact hg
  mint := by
    intro db trail id ha hc
    exact ⟨holdsGoal_mint (ha hc).1, (ha hc).2⟩

theorem seesGoalsAndRow_insertContributesTo
    (hs : SeesGoalsAndRow goalIds commitmentId row db trail) (other goalId : Nat)
    (critical : Bool) : SeesGoalsAndRow goalIds commitmentId row db
      (trail.extend none [.insertContributesTo other goalId critical]) := by
  obtain ⟨hg, hh, hr⟩ := hs
  refine ⟨fun goal hm => ?_, holdsCommitment_extend hh, ?_⟩
  · rw [extend, Schema.view_append]
    exact hg goal hm
  · rw [extend, Schema.view_append]
    exact hr

theorem wp_insertContributesTo (hm : goalId ∈ goalIds)
    (hk : Keeps (fun s t => SeesGoalsAndRow goalIds commitmentId row s t ∧
      AcceptsEdge goalId critical row.state s t) db trail) :
    goalProtocol.wp start (fun _ => Keeps (SeesGoalsAndRow goalIds commitmentId row))
      (insertContributesTo commitmentId goalId critical) db trail := by
  refine wp_write ((carried_seesGoalsAndRow goalIds commitmentId row).and
    (carried_acceptsEdge goalId critical row.state)) (fun seen row hl => noLock seen row hl) hk ?_
  rintro s ws v ⟨ho, hs, hacp⟩ ha
  split at ha
  · -- The edge is already there.
    cases ha
    rw [extend_nothing]
    exact ⟨fun w hn => absurd hn not_mem_nil, ho.seen, fun _ => ⟨ho, hs⟩⟩
  · obtain ⟨-, hp⟩ := (constrained_eq_ok_iff _ _ _).mp ha
    cases hp
    refine ⟨fun w hon => ?_, ?_, fun he =>
      ⟨he, seesGoalsAndRow_insertContributesTo hs _ _ _⟩⟩
    · obtain rfl := mem_singleton.mp hon
      exact guarded_insertContributesTo fun hcr =>
        holdsGoal_extend (hacp hcr).1
    · refine insertContributesTo_good ho.seen ?_ (hs.1 goalId hm) ?_
      · rw [hs.2.2]
        rfl
      · intro hcr goal commitment hg hac hc
        cases hs.2.2.symm.trans hc
        exact (hacp hcr).2 goal hg hac

theorem criticalPathError_none {s : CommitmentState} {goal : GoalRow}
    (hn : criticalPathError goalId s (some goal.state) = none)
    (ha : goal.state = .achieved) : s = .doneverified := by
  rw [ha] at hn
  by_contra ho
  rw [criticalPathError, if_pos ho] at hn
  cases hn

theorem wp_requireGoalCanAcceptCriticalPath (hm : goalId ∈ goalIds)
    (hk : Keeps (SeesGoalsAndRow goalIds commitmentId row) db trail) :
    goalProtocol.wp start (fun _ => Keeps fun s t =>
        SeesGoalsAndRow goalIds commitmentId row s t ∧ AcceptsEdge goalId critical row.state s t)
      (requireGoalCanAcceptCriticalPath goalId row.state critical) db trail := by
  refine wp_when (fun _ => ?_) fun hs => ?_
  · refine wp_seq (wp_fetchGoal (carried_seesGoalsAndRow _ _ _) goalId hk) ?_
    rintro found s t ⟨⟨hw, hse⟩, hf, hh⟩
    refine wp_raiseIf fun hn => ⟨hw, hse, fun _ => ?_⟩
    have hb := hse.1 goalId hm
    rw [← hf] at hb
    obtain ⟨goal, rfl⟩ := Option.isSome_iff_exists.mp hb
    refine ⟨(hh goal rfl).1, fun other ho ha => ?_⟩
    cases hf.trans ho
    exact criticalPathError_none hn ha
  · refine ⟨hk.1, hk.2, fun hc => ?_⟩
    rw [hs] at hc
    cases hc

theorem wp_insertContributesToEdge (hm : item.edgeParts.1 ∈ goalIds)
    (hk : Keeps (SeesGoalsAndRow goalIds commitmentId row) db trail) :
    goalProtocol.wp start (fun _ => Keeps (SeesGoalsAndRow goalIds commitmentId row))
      (insertContributesToEdge commitmentId row.state item) db trail :=
  wp_seq (wp_requireGoalCanAcceptCriticalPath hm hk) fun _ _ _ ha =>
    wp_insertContributesTo hm ha

theorem wp_requireTenantGoals (tenantId : Nat) (items : List GoalItem) (goalIds : List Nat)
    (hk : Keeps (SeesGoals goalIds) db trail) : goalProtocol.wp start
      (fun _ => Keeps (SeesGoals (goalIds ++ items.map fun item => item.edgeParts.1)))
      (Tx.forEach items fun item => requireTenantGoal tenantId item.edgeParts.1) db trail := by
  induction items generalizing goalIds db trail with
  | nil =>
    rw [map_nil, append_nil]
    exact hk
  | cons item rest ih =>
    refine wp_seq (wp_require (carried_seesGoals goalIds) hk) ?_
    rintro _ s t ⟨⟨hw, hs⟩, hn⟩
    rw [map_cons, append_cons]
    refine ih _ ⟨hw, fun goalId hm => ?_⟩
    rcases mem_append.mp hm with ho | hnw
    · exact hs goalId ho
    · obtain rfl := mem_singleton.mp hnw
      rw [← Option.isSome_map (f := GoalRow.tenantId)]
      cases ht : (actSchema.view s t.writes).goalTenant item.edgeParts.1 with
      | some found => exact congrArg Option.isSome ht
      | none =>
        rw [ht] at hn
        cases hn

theorem wp_validateReferences (input : CommitmentCreateInput) (ho : GoalOwn db trail) :
    goalProtocol.wp start
      (fun _ => Keeps (SeesGoals (input.contributesToGoalIds.map fun item => item.edgeParts.1)))
      (validateCommitmentCreateReferences input) db trail := by
  have hr := sideStatement_reads
  refine wp_seq (wp_side carried_true
    (.forEach (requireActiveActor_eachStatement hr _)) ⟨ho, trivial⟩) fun _ s₁ t₁ hk => ?_
  refine wp_seq (wp_side carried_true
    (.forEach fun _ => requireActiveActor_eachStatement hr _ _) hk) fun _ s₂ t₂ hk => ?_
  have hn : Keeps (SeesGoals []) s₂ t₂ := ⟨hk.1, fun goalId hm => absurd hm not_mem_nil⟩
  refine wp_seq (wp_requireTenantGoals _ _ [] hn) fun _ s₃ t₃ hk => ?_
  exact wp_side (carried_seesGoals _)
    (.bind (.forEach (requireTenant_eachStatement hr _ _ _ _ _)) fun _ =>
      .forEach (requireTenant_eachStatement hr _ _ _ _ _)) hk

theorem wp_insertCommitment
    (hk : Keeps (fun s t => SeesGoals goalIds s t ∧ commitmentId ∈ t.minted) db trail) :
    goalProtocol.wp start (fun _ => Keeps (SeesGoalsAndRow goalIds commitmentId row))
      (insertCommitment commitmentId row) db trail := by
  refine wp_write ((carried_seesGoals goalIds).and (carried_minted commitmentId))
    (fun seen row hl => noLock seen row hl) hk ?_
  rintro s ws v ⟨ho, hs, hmi⟩ ha
  obtain ⟨hc, hp⟩ := (constrained_eq_ok_iff _ _ _).mp ha
  cases hp
  have hf : (actSchema.view s trail.writes).commitments.get commitmentId = none := by
    simpa using hc _ (.head _)
  refine ⟨fun w hm => ?_, insertCommitment_good ho.seen hf, fun he =>
    ⟨he, fun goalId hm => ?_, .inr hmi, ?_⟩⟩
  · obtain rfl := mem_singleton.mp hm
    exact guarded_insertCommitment ho hmi row
  · rw [extend, Schema.view_append]
    exact hs goalId hm
  · rw [extend, Schema.view_append]
    have hap := apply_commitments_get (actSchema.view s trail.writes)
      (.insertCommitment commitmentId row) commitmentId
    rw [hf] at hap
    exact hap.trans (if_pos rfl)

theorem wp_createCommitment (clock : Clock) (a : CommitmentCreate) :
    goalProtocol.Preserves start GoalOwn (createCommitment clock a) := by
  intro db trail ho
  have hr := sideStatement_reads
  refine wp_seq (wp_ofExcept fun input _ => ho) fun input s₀ t₀ ho => ?_
  refine wp_seq (wp_validateReferences input ho) fun _ s₁ t₁ hkp => ?_
  refine wp_seq (wp_mintId (carried_seesGoals _) hkp) fun commitmentId s₂ t₂ hkp => ?_
  refine wp_seq (wp_side ((carried_seesGoals _).and (carried_minted commitmentId))
    (resolveEffectiveInitialState_eachStatement hr input) hkp) fun effective s₃ t₃ hkp => ?_
  refine wp_seq (wp_insertCommitment hkp) fun _ s₄ t₄ hkp => ?_
  refine wp_seq (wp_side (carried_seesGoalsAndRow _ _ _) (.forEach fun contributor =>
    insertContributor_eachStatement hr (fun _ _ _ _ => sideStatement_single trivial) _ _ _)
    hkp) fun _ s₅ t₅ hkp => ?_
  refine wp_seq (wp_forEach hkp fun item hi _ _ hin =>
    wp_insertContributesToEdge (mem_map_of_mem hi) hin) fun _ s₆ t₆ hkp => ?_
  refine wp_mono (wp_side (carried_seesGoalsAndRow _ _ _) (.bind
    (.forEach fun dependencyId => insertDependsOnEdge_eachStatement hr
      (fun _ _ _ => sideStatement_single trivial) commitmentId dependencyId) fun _ => .bind
    (.forEach fun decisionId => insertConstrainedBy_eachStatement hr
      (fun _ _ _ => sideStatement_single trivial) _ _) fun _ => .bind
    (emitStateChange_side _ _ _ _ _ _ _) fun _ => .bind
    (.read hr.plain) fun _ => .bind .orRaise fun _ => .done) hkp) fun _ _ _ hk => hk.1

theorem legal_not_doneverified (hl : (commitmentMachine.canTransition s newState).1) :
    s ≠ .doneverified := by
  rintro rfl
  cases newState <;> exact Bool.noConfusion hl

theorem wp_updateCommitmentState (clock : Clock) (newState : CommitmentState) (resolved : List Nat)
    (basis : Option Nat) (ho : row.state ≠ .doneverified)
    (hk : Keeps (HoldsCommitmentRow commitmentId row) db trail) :
    goalProtocol.wp start (fun _ s t => GoalOwn s t)
      (updateCommitmentState clock commitmentId newState resolved basis) db trail := by
  refine wp_write (carried_commitmentRow commitmentId row)
    (fun seen => lockCommitment_hasRow seen commitmentId) hk ?_
  rintro s ws v ⟨hw, hh, hr⟩ ha
  split at ha
  · cases ha
    refine ⟨fun w hm => ?_, setCommitmentState_good hw.seen hr ho, fun he => he⟩
    obtain rfl := mem_singleton.mp hm
    exact guarded_setCommitmentState hw hh hr ho _ _ _ _ _
  · cases ha

theorem wp_transitionCommitment (clock : Clock) (commitmentId : Nat) (newState : CommitmentState)
    (a : TransitionArgs) :
    goalProtocol.Preserves start GoalOwn (transitionCommitment clock commitmentId newState a) := by
  intro db trail hw
  have hrd := sideStatement_reads
  refine wp_seq (wp_fetchCommitment carried_true commitmentId ⟨hw, trivial⟩) ?_
  rintro found s₁ t₁ ⟨⟨hw, -⟩, hr⟩
  refine wp_seq (wp_orRaise (Q := fun row => Keeps (HoldsCommitmentRow commitmentId row))
    fun row hf => ⟨hw, hr row hf⟩) fun row s₂ t₂ hkp => ?_
  refine wp_seq (R := fun _ s t => Keeps (HoldsCommitmentRow commitmentId row) s t ∧
    row.state ≠ .doneverified) (wp_ofExcept fun v hc => ⟨hkp, ?_⟩) ?_
  · obtain ⟨_, hl, -⟩ := bind_eq_ok_iff.mp hc
    exact legal_not_doneverified ((refuseUnless_eq_ok_iff _ _ _).mp hl)
  rintro _ s₃ t₃ ⟨hkp, ho⟩
  refine wp_seq (wp_side (carried_commitmentRow _ _)
    (requireActiveOwner_eachStatement hrd row newState) hkp) fun _ s₄ t₄ hkp => ?_
  refine wp_seq (wp_side (carried_commitmentRow _ _) .ensure hkp) fun _ s₅ t₅ hkp => ?_
  refine wp_seq (wp_side (carried_commitmentRow _ _)
    (.when (requireBlockedReason_eachStatement hrd _)) hkp) fun _ s₆ t₆ hkp => ?_
  refine wp_seq (wp_updateCommitmentState clock newState _ _ ho hkp) fun updated s₇ t₇ hw => ?_
  refine wp_mono (wp_side carried_true (.bind
    (.when (raiseFirst_eachStatement (checkC10_eachStatement hrd _))) fun _ => .bind
    (emitStateChange_side _ _ _ _ _ _ _) fun _ => .orRaise) ⟨hw, trivial⟩) fun _ _ _ hk => hk.1

theorem contributesToError_none
    (hn : contributesToError commitmentId goalId critical commitment found = none) :
    ∃ goal, found = some goal ∧
      (critical → goal.state = .achieved → commitment.state = .doneverified) := by
  cases found with
  | none => cases hn
  | some goal =>
    refine ⟨goal, rfl, fun hc ha => ?_⟩
    by_contra ho
    dsimp only [contributesToError] at hn
    split at hn
    · cases hn
    · rw [if_pos ⟨hc, ha, ho⟩] at hn
      cases hn

theorem wp_requireContributesToAllowed (commitmentId goalId : Nat) (critical : Bool)
    (hw : GoalOwn db trail) : goalProtocol.wp start (fun _ s t => ∃ row, Keeps (fun s t =>
        SeesGoalsAndRow [goalId] commitmentId row s t ∧ AcceptsEdge goalId critical row.state s t)
        s t)
      (requireContributesToAllowed commitmentId goalId critical) db trail := by
  refine wp_seq (wp_fetchCommitment carried_true commitmentId ⟨hw, trivial⟩) ?_
  rintro found s₁ t₁ ⟨⟨hw, -⟩, hr⟩
  refine wp_seq (wp_orRaise (Q := fun row => Keeps (HoldsCommitmentRow commitmentId row))
    fun row hf => ⟨hw, hr row hf⟩) fun row s₂ t₂ hk => ?_
  refine wp_seq (wp_fetchGoal (carried_commitmentRow commitmentId row) goalId hk) ?_
  rintro found s₃ t₃ ⟨⟨hw, hh⟩, hs, hg⟩
  refine wp_raiseIf fun hn => ?_
  obtain ⟨goal, rfl, ha⟩ := contributesToError_none hn
  refine ⟨row, hw, ⟨fun other hm => ?_, hh⟩, fun hc =>
    ⟨(hg goal rfl).1, fun other ho => ?_⟩⟩
  · obtain rfl := mem_singleton.mp hm
    rw [← hs]
    rfl
  · cases hs.trans ho
    exact ha hc

theorem wp_addContributesTo (commitmentId goalId : Nat) (critical : Bool) :
    goalProtocol.Preserves start GoalOwn (addContributesTo commitmentId goalId critical) := by
  intro db trail ho
  refine wp_seq (wp_requireContributesToAllowed commitmentId goalId critical ho) ?_
  rintro _ s₁ t₁ ⟨row, hkp⟩
  refine wp_seq (wp_insertContributesTo (.head _) hkp) fun _ s₂ t₂ hkp => ?_
  refine wp_mono (wp_side carried_true (.bind (.read sideStatement_reads.plain) fun _ =>
    .bind .orRaise fun _ => .done) ⟨hkp.1, trivial⟩) fun _ _ _ hk => hk.1

theorem wp_addEdge (a : EdgeArgs) : goalProtocol.Preserves start GoalOwn (addEdge a) := by
  intro db trail ho
  have hr := sideStatement_reads
  unfold addEdge
  split
  · split
    · exact wp_addContributesTo _ _ _ ho
    · trivial
  · split
    · refine wp_mono (wp_side carried_true (.bind (insertDependsOnEdge_eachStatement hr
        (fun _ _ _ => sideStatement_single trivial) _ _) fun _ => .bind (.read hr.plain)
        fun _ => .bind .orRaise fun _ => .done) ⟨ho, trivial⟩) fun _ _ _ hk => hk.1
    · trivial
  · split
    · refine wp_mono (wp_side carried_true (.bind (insertConstrainedBy_eachStatement hr
        (fun _ _ _ => sideStatement_single trivial) _ _) fun _ => .bind (.read hr.plain)
        fun _ => .bind .orRaise fun _ => .done) ⟨ho, trivial⟩) fun _ _ _ hk => hk.1
    · trivial

theorem wp_call (call : ActCall) : goalProtocol.Preserves start GoalOwn call.run := by
  intro db trail ho
  cases call with
  | createGoal clock a =>
    exact wp_seq (wp_createGoal clock a ho) fun _ _ _ hk => hk
  | transitionGoal clock goalId newState causeEventId =>
    exact wp_seq (wp_transitionGoal clock goalId newState causeEventId ho) fun _ _ _ hk => hk
  | createCommitment clock a =>
    exact wp_seq (wp_createCommitment clock a ho) fun _ _ _ hk => hk
  | transitionCommitment clock commitmentId newState a =>
    exact wp_seq (wp_transitionCommitment clock commitmentId newState a ho) fun _ _ _ hk => hk
  | addEdge a =>
    exact wp_seq (wp_addEdge a ho) fun _ _ _ hk => hk

end Calls

theorem goalProtocol_sound : goalProtocol.Sound := by
  intro calls db hg
  refine wp_mono (wp_forEach (I := GoalOwn) (goalProtocol.own_begin hg) ?_) fun _ _ _ _ => trivial
  exact fun call _ _ _ ho => wp_call call ho

theorem goalProtocol_commitsGood : goalProtocol.CommitsGood anyStep :=
  fun _ _ _ _ _ _ ho => ho.seen

/-- In every committed state of every interleaving, every commitment on the
critical path of an achieved goal is `doneverified`. -/
theorem achieved_criticalPath_done {start : Db} {supply : Nat}
    {config : Config Db Write RowRef ActError} (hgood : start.CriticalPathsDone)
    (hunused : ∀ id, supply ≤ id → start.Unused id)
    (hreach : Transition.Reach (Config.step actSchema) anyStep ⟨start, supply, ∅⟩
      config) : ∀ goalId goal commitmentId, config.committed.goals.get goalId = some goal →
      goal.state = .achieved →
      config.committed.contributesTo.get (commitmentId, goalId) = some true →
      ∃ commitment, config.committed.commitments.get commitmentId = some commitment ∧
        commitment.state = .doneverified := by
  have hcoherent := Protocol.coherent_of_reach goalProtocol_sound goalProtocol_commitsGood hgood
    hunused hreach
  intro goalId goal commitmentId hgoal hachieved hedge
  obtain ⟨commitment, hcommitment⟩ := Option.isSome_iff_exists.mp
    (hcoherent.good.commitments commitmentId goalId true hedge)
  exact ⟨commitment, hcommitment,
    hcoherent.good.g4 goalId goal commitmentId commitment hgoal hachieved hedge hcommitment⟩

/-! A goal whose critical path is one verified commitment, and an open
commitment beside it. -/

def launchGoal : GoalRow where
  tenantId := 1
  title := "Launch"
  createdAt := 0
  lastStateChangeAt := 0
  createdByEventId := 9

def launchCommitment (state : CommitmentState) : CommitmentRow where
  tenantId := 1
  title := "Load test"
  state
  createdAt := 0
  lastStateChangeAt := 0
  createdByEventId := 9

def readyToLaunch : Db where
  tenants := [1]
  goals := Table.put ∅ 1 launchGoal
  commitments :=
    (Table.put ∅ 2 (launchCommitment .doneverified)).put 3 (launchCommitment .proposed)
  contributesTo := Table.put ∅ (2, 1) true

theorem readyToLaunch_good : readyToLaunch.CriticalPathsDone := by
  have he : ∀ commitmentId goalId critical,
      readyToLaunch.contributesTo.get (commitmentId, goalId) = some critical →
        commitmentId = 2 ∧ goalId = 1 := by
    intro commitmentId goalId critical hg
    rw [readyToLaunch, Table.get_put] at hg
    split at hg
    · next heq => exact Prod.mk.inj heq
    · cases hg
  refine ⟨?_, ?_, ?_⟩
  · intro commitmentId goalId critical hg
    obtain ⟨rfl, rfl⟩ := he _ _ _ hg
    rfl
  · intro commitmentId goalId critical hg
    obtain ⟨rfl, rfl⟩ := he _ _ _ hg
    rfl
  · intro goalId goal commitmentId commitment _ _ hg hc
    obtain ⟨rfl, rfl⟩ := he _ _ _ hg
    cases hc
    rfl

theorem readyToLaunch_unused (id : Nat) (hi : 10 ≤ id) : readyToLaunch.Unused id := by
  have hg : id ≠ 1 := by omega
  have hd : id ≠ 2 := by omega
  have ho : id ≠ 3 := by omega
  constructor
  · rw [readyToLaunch, Table.get_put, if_neg hg]
    rfl
  · rw [readyToLaunch, Table.get_put, if_neg ho, Table.get_put, if_neg hd]
    rfl

/-- One session achieves the goal while another is about to attach the open
commitment to it. -/
theorem achieved_criticalPath_done_launch :
    ∃ config, Transition.Reach (Config.step actSchema) anyStep ⟨readyToLaunch, 10, ∅⟩ config ∧
      (config.committed.goals.get 1).map GoalRow.state = some .achieved ∧
      ∀ goalId goal commitmentId, config.committed.goals.get goalId = some goal →
        goal.state = .achieved →
        config.committed.contributesTo.get (commitmentId, goalId) = some true →
        ∃ commitment, config.committed.commitments.get commitmentId = some commitment ∧
          commitment.state = .doneverified := by
  have hrun : runAll (Config.step actSchema) ⟨readyToLaunch, 10, ∅⟩
      [.begin 0 [.transitionGoal ⟨5, 5⟩ 1 .achieved none], .begin 1 [.addEdge
          { kind := .contributesTo, commitmentId := some 3, goalId := some 1,
            isCriticalPath := true }],
        .statement 1, .statement 0, .statement 0, .statement 0, .statement 0, .statement 0,
        .commit 0] = some _ := rfl
  have hreach := reach_of_run hrun
  exact ⟨_, hreach, rfl, achieved_criticalPath_done readyToLaunch_good readyToLaunch_unused hreach⟩

/-- Along a run what is `doneverified` stays so, and no contributes-to edge goes or changes. -/
theorem done_for_good {start : Db} {supply : Nat} {config later : Config Db Write RowRef ActError}
    (hgood : start.CriticalPathsDone) (hunused : ∀ id, supply ≤ id → start.Unused id)
    (hreach : Transition.Reach (Config.step actSchema) anyStep ⟨start, supply, ∅⟩ config)
    (hlater : Transition.Reach (Config.step actSchema) anyStep config later) :
    (∀ commitmentId row, config.committed.commitments.get commitmentId = some row →
      row.state = .doneverified → ∃ kept, later.committed.commitments.get commitmentId = some kept ∧
        kept.state = .doneverified) ∧
    ∀ key critical, config.committed.contributesTo.get key = some critical →
      later.committed.contributesTo.get key = some critical := by
  have hcoherent := Protocol.coherent_of_reach goalProtocol_sound goalProtocol_commitsGood hgood
    hunused hreach
  have hrely := (Protocol.rely_of_reach goalProtocol_sound goalProtocol_commitsGood hcoherent
    hlater).2
  exact ⟨hrely.doneStays, hrely.edgesStay⟩

theorem done_for_good_launch : ∃ later, Transition.Reach (Config.step actSchema) anyStep
    ⟨readyToLaunch, 10, ∅⟩ later ∧ later.committed.contributesTo.get (2, 1) = some true := by
  have hrun : runAll (Config.step actSchema) ⟨readyToLaunch, 10, ∅⟩
      [.begin 0 [.transitionGoal ⟨5, 5⟩ 1 .achieved none], .statement 0, .statement 0,
        .statement 0, .statement 0, .statement 0, .commit 0] = some _ := rfl
  have hreach := reach_of_run hrun
  exact ⟨_, hreach, (done_for_good readyToLaunch_good readyToLaunch_unused .start hreach).2
    (2, 1) true rfl⟩

end FyralisCore.Acts
