import FyralisCore.Acts.Statements
import FyralisCore.Acts.Views

/-! G4 under READ COMMITTED: an achieved goal has only `doneverified`
commitments on its critical path, in every committed state of every
interleaving. A session that changes the state of a goal or adds to its
critical path holds the goal, one that moves a commitment holds the
commitment, and `doneverified` is never left. -/
namespace FyralisCore.Acts

open Relational Transaction ReadCommitted List Option Write

/-- The rows that a `contributes_to` row refers to exist, and G4 holds. -/
structure Db.CriticalPathsDone (db : Db) : Prop where
  commitments : ∀ commitmentId goalId critical,
    db.contributesTo.get (commitmentId, goalId) = some critical →
      (db.commitments.get commitmentId).isSome
  goals : ∀ commitmentId goalId critical,
    db.contributesTo.get (commitmentId, goalId) = some critical → (db.goals.get goalId).isSome
  g4 : ∀ goalId goal commitmentId commitment, db.goals.get goalId = some goal →
    goal.state = .achieved → db.contributesTo.get (commitmentId, goalId) = some true →
    db.commitments.get commitmentId = some commitment → commitment.state = .doneverified

def HoldsGoal (trail : Trail Write RowRef) (goalId : Nat) : Prop :=
  RowRef.goal goalId ∈ trail.locks ∨ goalId ∈ trail.minted

def HoldsCommitment (trail : Trail Write RowRef) (commitmentId : Nat) : Prop :=
  RowRef.commitment commitmentId ∈ trail.locks ∨ commitmentId ∈ trail.minted

/-- What a session may write: rows it holds, new rows under its own
identifiers, and no commitment that is `doneverified` already. -/
structure Guarded (db : Db) (trail : Trail Write RowRef) (write : Write) : Prop where
  goal : ∀ goalId, write.TouchesGoal goalId → HoldsGoal trail goalId
  commitment : ∀ commitmentId, write.TouchesCommitment commitmentId →
    HoldsCommitment trail commitmentId ∧
      ∀ row, db.commitments.get commitmentId = some row → row.state ≠ .doneverified
  newGoal : ∀ goalId row, write = .insertGoal goalId row → goalId ∈ trail.minted
  newCommitment : ∀ commitmentId row, write = .insertCommitment commitmentId row →
    commitmentId ∈ trail.minted
  criticalPath : ∀ commitmentId goalId, write = .insertContributesTo commitmentId goalId true →
    HoldsGoal trail goalId

def LockedRow (db : Db) (trail : Trail Write RowRef) : RowRef → Prop
  | .goal goalId => (db.goals.get goalId).isSome ∨ goalId ∈ trail.minted
  | .commitment commitmentId =>
    (db.commitments.get commitmentId).isSome ∨ commitmentId ∈ trail.minted

def Db.Unused (db : Db) (id : Nat) : Prop :=
  db.goals.get id = none ∧ db.commitments.get id = none

structure GoalOwn (db : Db) (trail : Trail Write RowRef) : Prop where
  guarded : ∀ write ∈ trail.writes, Guarded db trail write
  seen : (actSchema.view db trail.writes).CriticalPathsDone
  minted : ∀ id ∈ trail.minted, db.Unused id
  locked : ∀ row ∈ trail.locks, LockedRow db trail row

structure GoalRely (trail : Trail Write RowRef) (db later : Db) : Prop where
  goals : ∀ goalId, HoldsGoal trail goalId → later.goals.get goalId = db.goals.get goalId
  commitments : ∀ commitmentId, HoldsCommitment trail commitmentId →
    later.commitments.get commitmentId = db.commitments.get commitmentId
  goalsStay : ∀ goalId, (db.goals.get goalId).isSome →
    (later.goals.get goalId).isSome
  commitmentsStay : ∀ commitmentId, (db.commitments.get commitmentId).isSome →
    (later.commitments.get commitmentId).isSome
  doneStays : ∀ commitmentId row, db.commitments.get commitmentId = some row →
    row.state = .doneverified → ∃ kept, later.commitments.get commitmentId = some kept ∧
      kept.state = .doneverified
  edgesStay : ∀ key critical, db.contributesTo.get key = some critical →
    later.contributesTo.get key = some critical
  criticalPath : ∀ commitmentId goalId, HoldsGoal trail goalId →
    later.contributesTo.get (commitmentId, goalId) = some true →
      db.contributesTo.get (commitmentId, goalId) = some true

theorem GoalRely.trans (ho : GoalRely trail first second) (ht : GoalRely trail second third) :
    GoalRely trail first third where
  goals := fun goalId hh => (ht.goals goalId hh).trans (ho.goals goalId hh)
  commitments := fun commitmentId hh =>
    (ht.commitments commitmentId hh).trans (ho.commitments commitmentId hh)
  goalsStay := fun goalId hb => ht.goalsStay goalId (ho.goalsStay goalId hb)
  commitmentsStay := fun commitmentId hb =>
    ht.commitmentsStay commitmentId (ho.commitmentsStay commitmentId hb)
  doneStays := by
    intro commitmentId row hr hd
    obtain ⟨kept, hk, hs⟩ := ho.doneStays commitmentId row hr hd
    exact ht.doneStays commitmentId kept hk hs
  edgesStay := fun key critical he =>
    ht.edgesStay key critical (ho.edgesStay key critical he)
  criticalPath := fun commitmentId goalId hh he =>
    ho.criticalPath commitmentId goalId hh (ht.criticalPath commitmentId goalId hh he)

section

variable {db later : Db} {trail : Trail Write RowRef}

variable {commitmentId goalId : Nat}

theorem GoalOwn.done_untouched (ho : GoalOwn db trail)
    (hr : db.commitments.get commitmentId = some row) (hd : row.state = .doneverified) :
    (actSchema.view db trail.writes).commitments.get commitmentId = some row := by
  rw [view_commitments_get, commitmentSeen_untouched, hr]
  intro w hm ht
  exact ((ho.guarded w hm).commitment commitmentId ht).2 row hr hd

theorem GoalOwn.commitment_unheld (ho : GoalOwn db trail)
    (hf : ¬ HoldsCommitment trail commitmentId) (found : Option CommitmentRow) :
    commitmentSeen trail.writes commitmentId found = found :=
  commitmentSeen_untouched (fun w hm ht =>
    hf ((ho.guarded w hm).commitment commitmentId ht).1) found

theorem GoalOwn.goal_unheld (ho : GoalOwn db trail) (hf : ¬ HoldsGoal trail goalId)
    (found : Option GoalRow) : goalSeen trail.writes goalId found = found :=
  goalSeen_untouched (fun w hm ht =>
    hf ((ho.guarded w hm).goal goalId ht)) found

section

variable (hr : GoalRely trail db later)

include hr

theorem GoalRely.goal_seen (hh : HoldsGoal trail goalId) :
    (actSchema.view later trail.writes).goals.get goalId =
    (actSchema.view db trail.writes).goals.get goalId := by
  rw [view_goals_get, view_goals_get, hr.goals goalId hh]

theorem GoalRely.commitment_seen (hh : HoldsCommitment trail commitmentId) :
    (actSchema.view later trail.writes).commitments.get commitmentId =
    (actSchema.view db trail.writes).commitments.get commitmentId := by
  rw [view_commitments_get, view_commitments_get, hr.commitments commitmentId hh]

theorem GoalRely.criticalPath_seen (hh : HoldsGoal trail goalId)
    (he : (actSchema.view later trail.writes).contributesTo.get (commitmentId, goalId) =
    some true) : (actSchema.view db trail.writes).contributesTo.get (commitmentId, goalId) =
    some true := by
  rw [view_contributesTo_get] at he ⊢
  cases hl : later.contributesTo.get (commitmentId, goalId) with
  | some flag =>
    rw [hl, contributionSeen_some] at he
    rw [hr.criticalPath commitmentId goalId hh (hl.trans he), contributionSeen_some]
  | none =>
    rw [hl] at he
    cases hd : db.contributesTo.get (commitmentId, goalId) with
    | some flag =>
      rw [hr.edgesStay _ _ hd] at hl
      cases hl
    | none => exact he

end

theorem GoalOwn.done_seen (ho : GoalOwn db trail) (hrl : GoalRely trail db later)
    (hr : (actSchema.view db trail.writes).commitments.get commitmentId = some row)
    (hd : row.state = .doneverified)
    (hk : (actSchema.view later trail.writes).commitments.get commitmentId = some kept) :
    kept.state = .doneverified := by
  by_cases hh : HoldsCommitment trail commitmentId
  · rw [hrl.commitment_seen hh, hr] at hk
    rwa [← Option.some.inj hk]
  · rw [view_commitments_get, ho.commitment_unheld hh] at hr hk
    obtain ⟨still, hs, hd'⟩ := hrl.doneStays commitmentId row hr hd
    cases hk.symm.trans hs
    exact hd'

def SeesPathDone (db : Db) (trail : Trail Write RowRef) (goalId : Nat) : Prop :=
  ∀ commitmentId row,
    (actSchema.view db trail.writes).contributesTo.get (commitmentId, goalId) = some true →
    (actSchema.view db trail.writes).commitments.get commitmentId = some row →
      row.state = .doneverified

theorem GoalOwn.pathDone_stable (ho : GoalOwn db trail) (hrl : GoalRely trail db later)
    (hh : HoldsGoal trail goalId) (hd : SeesPathDone db trail goalId) :
    SeesPathDone later trail goalId := by
  intro commitmentId kept he hk
  have hb := hrl.criticalPath_seen hh he
  obtain ⟨row, hr⟩ := isSome_iff_exists.mp (ho.seen.commitments commitmentId goalId true hb)
  exact ho.done_seen hrl hr (hd commitmentId row hb hr) hk

end

section Protocol

variable {db later : Db} {trail mine theirs : Trail Write RowRef}

theorem Guarded.stable (hg : Guarded db trail w)
    (hr : GoalRely trail db later) : Guarded later trail w where
  goal := hg.goal
  commitment := by
    intro commitmentId ht
    obtain ⟨hh, ho⟩ := hg.commitment commitmentId ht
    exact ⟨hh, by rw [hr.commitments commitmentId hh]; exact ho⟩
  newGoal := hg.newGoal
  newCommitment := hg.newCommitment
  criticalPath := hg.criticalPath

/-- An edge that a session sees after the commits of others was committed, or
was among those it saw. -/
theorem GoalRely.edge_seen (hr : GoalRely trail db later)
    (he : (actSchema.view later trail.writes).contributesTo.get key = some critical) :
    later.contributesTo.get key = some critical ∨
      (actSchema.view db trail.writes).contributesTo.get key = some critical := by
  rw [view_contributesTo_get] at he ⊢
  cases hl : later.contributesTo.get key with
  | some flag =>
    rw [hl, contributionSeen_some] at he
    exact .inl he
  | none =>
    rw [hl] at he
    cases hd : db.contributesTo.get key with
    | some flag =>
      rw [hr.edgesStay _ _ hd] at hl
      cases hl
    | none => exact .inr he

/-- The state that a session sees stays good when others commit within what it
relies on. -/
theorem GoalOwn.seen_stable (hw : GoalOwn db trail) (hrl : GoalRely trail db later)
    (hg : later.CriticalPathsDone) : (actSchema.view later trail.writes).CriticalPathsDone where
  commitments := by
    intro commitmentId goalId critical he
    rw [view_commitments_get]
    rcases hrl.edge_seen he with hcm | hsn
    · exact commitmentSeen_isSome (hg.commitments _ _ _ hcm)
    · have hb := hw.seen.commitments _ _ _ hsn
      rw [view_commitments_get] at hb
      exact commitmentSeen_isSome_mono (hrl.commitmentsStay commitmentId) hb
  goals := by
    intro commitmentId goalId critical he
    rw [view_goals_get]
    rcases hrl.edge_seen he with hcm | hsn
    · exact goalSeen_isSome (hg.goals _ _ _ hcm)
    · have hb := hw.seen.goals _ _ _ hsn
      rw [view_goals_get] at hb
      exact goalSeen_isSome_mono (hrl.goalsStay goalId) hb
  g4 := by
    intro goalId goal commitmentId commitment hgl ha he hc
    by_cases hh : HoldsGoal trail goalId
    · -- A goal the session holds: its row and its critical path are as they were.
      have hp : SeesPathDone db trail goalId := by
        rw [hrl.goal_seen hh] at hgl
        exact fun otherId row ho hr =>
          hw.seen.g4 goalId goal otherId row hgl ha ho hr
      exact hw.pathDone_stable hrl hh hp commitmentId commitment he hc
    · -- Any other goal is the committed one, and so is its critical path.
      rw [view_goals_get, hw.goal_unheld hh] at hgl
      have hcm : later.contributesTo.get (commitmentId, goalId) = some true := by
        rw [view_contributesTo_get] at he
        cases hl : later.contributesTo.get (commitmentId, goalId) with
        | some flag => rwa [hl, contributionSeen_some] at he
        | none =>
          rw [hl] at he
          exact absurd ((hw.guarded _ (contributionSeen_inserted he)).criticalPath _ _ rfl) hh
      obtain ⟨row, hr⟩ := isSome_iff_exists.mp (hg.commitments _ _ _ hcm)
      have hd := hg.g4 goalId goal commitmentId row hgl ha hcm hr
      have hs : commitmentSeen trail.writes commitmentId (some row) = some row := by
        refine commitmentSeen_untouched (fun w hm ht => ?_) _
        exact (((hw.guarded w hm).stable hrl).commitment commitmentId ht).2 row hr hd
      rw [view_commitments_get, hr, hs] at hc
      rwa [← Option.some.inj hc]

theorem GoalOwn.stable (ho : GoalOwn db trail) (hrl : GoalRely trail db later)
    (hg : later.CriticalPathsDone) : GoalOwn later trail where
  guarded := fun w hm => (ho.guarded w hm).stable hrl
  seen := ho.seen_stable hrl hg
  minted := by
    intro id hi
    obtain ⟨hgl, hc⟩ := ho.minted id hi
    exact ⟨(hrl.goals id (.inr hi)).trans hgl, (hrl.commitments id (.inr hi)).trans hc⟩
  locked := by
    intro row hr
    have hb := ho.locked row hr
    cases row with
    | goal goalId => exact hb.imp_left (hrl.goalsStay goalId)
    | commitment commitmentId => exact hb.imp_left (hrl.commitmentsStay commitmentId)

section

variable (hm : GoalOwn db mine) (hrival : GoalOwn db theirs) (hd : mine.Disjoint theirs)

include hm hrival hd

theorem goal_exclusive (hh : HoldsGoal mine goalId) : ¬ HoldsGoal theirs goalId := by
  rintro (hthr | ht)
  · rcases hh with hl | hi
    · exact hd.1 _ hl hthr
    · rcases hrival.locked _ hthr with hb | hmi
      · rw [(hm.minted goalId hi).1] at hb
        cases hb
      · exact hd.2 _ hi hmi
  · rcases hh with hl | hi
    · rcases hm.locked _ hl with hb | hmi
      · rw [(hrival.minted goalId ht).1] at hb
        cases hb
      · exact hd.2 _ hmi ht
    · exact hd.2 _ hi ht

theorem commitment_exclusive (hh : HoldsCommitment mine commitmentId) :
    ¬ HoldsCommitment theirs commitmentId := by
  rintro (hthr | ht)
  · rcases hh with hl | hi
    · exact hd.1 _ hl hthr
    · rcases hrival.locked _ hthr with hb | hmi
      · rw [(hm.minted commitmentId hi).2] at hb
        cases hb
      · exact hd.2 _ hi hmi
  · rcases hh with hl | hi
    · rcases hm.locked _ hl with hb | hmi
      · rw [(hrival.minted commitmentId ht).2] at hb
        cases hb
      · exact hd.2 _ hmi ht
    · exact hd.2 _ hi ht

end

theorem goalRely_commit (hm : GoalOwn db mine) (ht : GoalOwn db theirs)
    (hds : mine.Disjoint theirs) : GoalRely theirs db (actSchema.view db mine.writes) where
  goals := by
    intro goalId hh
    rw [view_goals_get]
    exact hm.goal_unheld (fun hmn => goal_exclusive hm ht hds hmn hh) _
  commitments := by
    intro commitmentId hh
    rw [view_commitments_get]
    exact hm.commitment_unheld (fun hmn => commitment_exclusive hm ht hds hmn hh) _
  goalsStay := by
    intro goalId hb
    rw [view_goals_get]
    exact goalSeen_isSome hb
  commitmentsStay := by
    intro commitmentId hb
    rw [view_commitments_get]
    exact commitmentSeen_isSome hb
  doneStays := fun commitmentId row hr hd =>
    ⟨row, hm.done_untouched hr hd, hd⟩
  edgesStay := by
    intro key critical he
    rw [view_contributesTo_get, he, contributionSeen_some]
  criticalPath := by
    intro commitmentId goalId hh he
    rw [view_contributesTo_get] at he
    cases hdb : db.contributesTo.get (commitmentId, goalId) with
    | some flag => rwa [hdb, contributionSeen_some] at he
    | none =>
      rw [hdb] at he
      have hmn := (hm.guarded _ (contributionSeen_inserted he)).criticalPath _ _ rfl
      exact absurd hh (goal_exclusive hm ht hds hmn)

theorem unused_commit {id : Nat} (ho : GoalOwn db trail) (hu : db.Unused id)
    (hf : id ∉ trail.minted) : (actSchema.view db trail.writes).Unused id := by
  constructor
  · rw [view_goals_get, hu.1, ← not_isSome_iff_eq_none]
    intro hs
    obtain ⟨row, hm⟩ := goalSeen_inserted hs
    exact hf ((ho.guarded _ hm).newGoal id row rfl)
  · rw [view_commitments_get, hu.2, ← not_isSome_iff_eq_none]
    intro hs
    obtain ⟨row, hm⟩ := commitmentSeen_inserted hs
    exact hf ((ho.guarded _ hm).newCommitment id row rfl)

end Protocol

def goalProtocol : Protocol actSchema where
  Good := Db.CriticalPathsDone
  Own _ := GoalOwn
  Rely := GoalRely
  Unused := Db.Unused
  rely_refl _ _ := ⟨fun _ _ => rfl, fun _ _ => rfl, fun _ => id, fun _ => id,
    fun _ row hr hd => ⟨row, hr, hd⟩, fun _ _ => id, fun _ _ _ => id⟩
  rely_trans := GoalRely.trans
  own_begin := fun hgood =>
    { guarded := fun _ hmem => by cases hmem
      seen := hgood
      minted := fun _ hmem => by cases hmem
      locked := fun _ hmem => by cases hmem }
  own_stable := fun hown hrely hgood => hown.stable hrely hgood
  rely_commit := fun _ hmine htheirs hdisjoint => goalRely_commit hmine htheirs hdisjoint
  unused_commit := fun hown hunused hforeign => unused_commit hown hunused hforeign

/-! ### Statements that leave the critical paths alone -/

def Write.IsSide : Write → Prop
  | .insertContributor _ _ _ => True
  | .insertDependsOn _ _ => True
  | .insertConstrainedBy _ _ => True
  | .insertObservation _ _ => True
  | _ => False

def Db.HasRow (db : Db) : RowRef → Prop
  | .goal goalId => (db.goals.get goalId).isSome
  | .commitment commitmentId => (db.commitments.get commitmentId).isSome

structure SideStatement (db : Db) (lock : Option RowRef) (writes : List Write) : Prop where
  locks : ∀ row, lock = some row → db.HasRow row
  writes : ∀ write ∈ writes, write.IsSide

theorem lockGoal_hasRow (db : Db) (goalId : Nat) (row : RowRef)
    (hl : Db.lockGoal goalId db = some row) : db.HasRow row := by
  obtain ⟨goal, hg, rfl⟩ := map_eq_some_iff.mp hl
  exact isSome_iff_exists.mpr ⟨goal, hg⟩

theorem lockCommitment_hasRow (db : Db) (commitmentId : Nat) (row : RowRef)
    (hl : Db.lockCommitment commitmentId db = some row) : db.HasRow row := by
  obtain ⟨commitment, hc, rfl⟩ := map_eq_some_iff.mp hl
  exact isSome_iff_exists.mpr ⟨commitment, hc⟩

theorem noWrites (w : Write) (hm : w ∈ []) : w.IsSide :=
  absurd hm not_mem_nil

theorem noLock (db : Db) (row : RowRef) (hl : none = some row) : db.HasRow row :=
  absurd hl (some_ne_none row).symm

theorem sideStatement_reads : AllowsReads SideStatement where
  plain := fun db => ⟨noLock db, noWrites⟩
  lockGoal := fun db goalId => ⟨lockGoal_hasRow db goalId, noWrites⟩
  lockCommitment := fun db commitmentId => ⟨lockCommitment_hasRow db commitmentId, noWrites⟩

theorem sideStatement_single (hs : w.IsSide) : SideStatement db none [w] :=
  ⟨noLock db, fun _ hm => (mem_singleton.mp hm) ▸ hs⟩

section Side

variable {db : Db} {trail : Trail Write RowRef} {lock : Option RowRef} {writes : List Write}

theorem foldl_side (db : Db) (hs : ∀ w ∈ writes, w.IsSide) :
    (writes.foldl Db.apply db).goals = db.goals ∧
      (writes.foldl Db.apply db).commitments = db.commitments ∧
      (writes.foldl Db.apply db).contributesTo = db.contributesTo := by
  induction writes generalizing db with
  | nil => exact ⟨rfl, rfl, rfl⟩
  | cons w rest ih =>
    have h1 := hs w (.head _)
    have ht := ih (db.apply w) fun later hm =>
      hs later (.tail _ hm)
    cases w <;> first | exact ht | exact h1.elim

variable {goalId commitmentId : Nat}

theorem holdsGoal_extend (hh : HoldsGoal trail goalId) :
    HoldsGoal (trail.extend lock writes) goalId :=
  hh.imp_left fun hl => mem_append_right _ hl

theorem holdsCommitment_extend (hh : HoldsCommitment trail commitmentId) :
    HoldsCommitment (trail.extend lock writes) commitmentId :=
  hh.imp_left fun hl => mem_append_right _ hl

theorem Guarded.extend (hg : Guarded db trail w) : Guarded db (trail.extend lock writes) w where
  goal := fun goalId ht => holdsGoal_extend (hg.goal goalId ht)
  commitment := fun commitmentId ht =>
    ⟨holdsCommitment_extend (hg.commitment commitmentId ht).1, (hg.commitment commitmentId ht).2⟩
  newGoal := hg.newGoal
  newCommitment := hg.newCommitment
  criticalPath := fun commitmentId goalId he =>
    holdsGoal_extend (hg.criticalPath commitmentId goalId he)

theorem guarded_of_side (hs : w.IsSide) : Guarded db trail w where
  goal := by
    intro goalId ht
    cases w <;> first | exact hs.elim | exact ht.elim
  commitment := by
    intro commitmentId ht
    cases w <;> first | exact hs.elim | exact ht.elim
  newGoal := by
    rintro goalId row rfl
    exact hs.elim
  newCommitment := by
    rintro commitmentId row rfl
    exact hs.elim
  criticalPath := by
    rintro commitmentId goalId rfl
    exact hs.elim

theorem guarded_insertGoal (hm : goalId ∈ trail.minted) (row : GoalRow) :
    Guarded db trail (.insertGoal goalId row) where
  goal := by
    rintro other rfl
    exact .inr hm
  commitment := fun _ ht => ht.elim
  newGoal := by
    intro other newRow he
    obtain ⟨rfl, rfl⟩ := insertGoal.inj he
    exact hm
  newCommitment := fun _ _ he => Write.noConfusion he
  criticalPath := fun _ _ he => Write.noConfusion he

theorem guarded_setGoalState (hh : HoldsGoal trail goalId) (s : GoalState) (now : Nat)
    (archive : Bool) : Guarded db trail (.setGoalState goalId s now archive) where
  goal := by
    rintro other rfl
    exact hh
  commitment := fun _ ht => ht.elim
  newGoal := fun _ _ he => Write.noConfusion he
  newCommitment := fun _ _ he => Write.noConfusion he
  criticalPath := fun _ _ he => Write.noConfusion he

theorem guarded_insertCommitment (hw : GoalOwn db trail) (hm : commitmentId ∈ trail.minted)
    (row : CommitmentRow) :
    Guarded db (trail.extend lock writes) (.insertCommitment commitmentId row) where
  goal := fun _ ht => ht.elim
  commitment := by
    rintro other rfl
    refine ⟨.inr hm, fun old ho => ?_⟩
    rw [(hw.minted _ hm).2] at ho
    cases ho
  newGoal := fun _ _ he => Write.noConfusion he
  newCommitment := by
    intro other newRow he
    obtain ⟨rfl, rfl⟩ := insertCommitment.inj he
    exact hm
  criticalPath := fun _ _ he => Write.noConfusion he

theorem guarded_setCommitmentState (hw : GoalOwn db trail) (hh : HoldsCommitment trail commitmentId)
    (hr : (actSchema.view db trail.writes).commitments.get commitmentId = some row)
    (ho : row.state ≠ .doneverified) (s : CommitmentState) (now : Nat) (resolved : List Nat)
    (basis : Option Nat) (terminal : Bool) : Guarded db (trail.extend lock writes)
      (.setCommitmentState commitmentId s now resolved basis terminal) where
  goal := fun _ ht => ht.elim
  commitment := by
    rintro other rfl
    refine ⟨holdsCommitment_extend hh, fun committed hc hd => ?_⟩
    rw [hw.done_untouched hc hd] at hr
    rw [← Option.some.inj hr] at ho
    exact ho hd
  newGoal := fun _ _ he => Write.noConfusion he
  newCommitment := fun _ _ he => Write.noConfusion he
  criticalPath := fun _ _ he => Write.noConfusion he

theorem guarded_insertContributesTo (hh : critical = true → HoldsGoal trail goalId) :
    Guarded db trail (.insertContributesTo commitmentId goalId critical) where
  goal := fun _ ht => ht.elim
  commitment := fun _ ht => ht.elim
  newGoal := fun _ _ he => Write.noConfusion he
  newCommitment := fun _ _ he => Write.noConfusion he
  criticalPath := by
    intro other target he
    obtain ⟨rfl, rfl, hc⟩ := insertContributesTo.inj he
    exact hh hc

theorem GoalOwn.lockedRow (ho : GoalOwn db trail)
    (hr : (actSchema.view db trail.writes).HasRow row) : LockedRow db trail row := by
  cases row with
  | goal goalId =>
    change ((actSchema.view db trail.writes).goals.get goalId).isSome at hr
    rw [view_goals_get] at hr
    cases hd : db.goals.get goalId with
    | some goal => exact .inl (by rw [hd]; rfl)
    | none =>
      rw [hd] at hr
      obtain ⟨goal, hm⟩ := goalSeen_inserted hr
      exact .inr ((ho.guarded _ hm).newGoal goalId goal rfl)
  | commitment commitmentId =>
    change ((actSchema.view db trail.writes).commitments.get commitmentId).isSome at hr
    rw [view_commitments_get] at hr
    cases hd : db.commitments.get commitmentId with
    | some commitment => exact .inl (by rw [hd]; rfl)
    | none =>
      rw [hd] at hr
      obtain ⟨commitment, hm⟩ := commitmentSeen_inserted hr
      exact .inr ((ho.guarded _ hm).newCommitment commitmentId commitment rfl)

/-- A statement keeps the session's promise when it locks rows it sees, when
its writes are guarded, and when the state it leaves is good. -/
theorem GoalOwn.extend (hw : GoalOwn db trail)
    (hl : ∀ row, lock = some row → (actSchema.view db trail.writes).HasRow row)
    (hg : ∀ w ∈ writes, Guarded db (trail.extend lock writes) w)
    (hs : (actSchema.view db (trail.writes ++ writes)).CriticalPathsDone) :
    GoalOwn db (trail.extend lock writes) where
  guarded := by
    intro w hm
    rcases mem_append.mp hm with ho | hn
    · exact (hw.guarded w ho).extend
    · exact hg w hn
  seen := hs
  minted := hw.minted
  locked := by
    intro row hm
    rcases mem_append.mp hm with hn | ho
    · have hlk := hw.lockedRow (hl row (mem_toList.mp hn))
      cases row <;> exact hlk
    · have hlk := hw.locked row ho
      cases row <;> exact hlk

theorem CriticalPathsDone_congr {other : Db} (hg : db.CriticalPathsDone)
    (hgs : other.goals = db.goals) (hcm : other.commitments = db.commitments)
    (hc : other.contributesTo = db.contributesTo) : other.CriticalPathsDone where
  commitments := by rw [hcm, hc]; exact hg.commitments
  goals := by rw [hgs, hc]; exact hg.goals
  g4 := by rw [hgs, hcm, hc]; exact hg.g4

theorem view_side (db : Db) (trail : Trail Write RowRef) (hs : ∀ w ∈ writes, w.IsSide) :
    (actSchema.view db (trail.writes ++ writes)).goals = (actSchema.view db trail.writes).goals ∧
      (actSchema.view db (trail.writes ++ writes)).commitments =
        (actSchema.view db trail.writes).commitments ∧
      (actSchema.view db (trail.writes ++ writes)).contributesTo =
        (actSchema.view db trail.writes).contributesTo := by
  rw [Schema.view_append]
  exact foldl_side _ hs

theorem GoalOwn.extend_side (ho : GoalOwn db trail)
    (hs : SideStatement (actSchema.view db trail.writes) lock writes) :
    GoalOwn db (trail.extend lock writes) := by
  obtain ⟨hg, hcm, hc⟩ := view_side db trail hs.writes
  refine ho.extend hs.locks ?_ (CriticalPathsDone_congr ho.seen hg hcm hc)
  exact fun w hm => guarded_of_side (hs.writes w hm)

theorem GoalOwn.mint {id : Nat} (hw : GoalOwn db trail) (hu : db.Unused id) :
    GoalOwn db (trail.mint id) where
  guarded := by
    intro w hm
    have hg := hw.guarded w hm
    exact
      { goal := fun goalId ht =>
          (hg.goal goalId ht).imp_right (mem_cons_of_mem _)
        commitment := fun commitmentId ht =>
          ⟨(hg.commitment commitmentId ht).1.imp_right (mem_cons_of_mem _),
            (hg.commitment commitmentId ht).2⟩
        newGoal := fun goalId row he => .tail _ (hg.newGoal goalId row he)
        newCommitment := fun commitmentId row he =>
          .tail _ (hg.newCommitment commitmentId row he)
        criticalPath := fun commitmentId goalId he =>
          (hg.criticalPath commitmentId goalId he).imp_right (mem_cons_of_mem _) }
  seen := hw.seen
  minted := by
    intro other hm
    rcases mem_cons.mp hm with rfl | ho
    · exact hu
    · exact hw.minted other ho
  locked := by
    intro row hm
    have hl := hw.locked row hm
    cases row <;> exact hl.imp_right (mem_cons_of_mem _)

end Side

/-! ### Writes that keep the critical paths done -/

section

variable {db : Db}

variable {goalId commitmentId : Nat}

theorem insertGoal_good (hg : db.CriticalPathsDone)
    (hf : db.goals.get goalId = none) (hs : row.state ≠ .achieved) :
    (db.apply (.insertGoal goalId row)).CriticalPathsDone where
  commitments := hg.commitments
  goals := by
    intro commitmentId other critical he
    rw [apply_goals_get]
    exact onGoal_isSome _ (hg.goals _ _ _ he)
  g4 := by
    intro other goal commitmentId commitment hgl ha he hc
    rw [apply_goals_get, onGoal] at hgl
    split at hgl
    · next heq =>
      rw [heq, hf] at hgl
      cases hgl
      exact absurd ha hs
    · exact hg.g4 other goal commitmentId commitment hgl ha he hc

theorem setGoalState_good (hg : db.CriticalPathsDone) (hp : s = .achieved → ∀ commitmentId row,
      db.contributesTo.get (commitmentId, goalId) = some true →
      db.commitments.get commitmentId = some row → row.state = .doneverified) :
    (db.apply (.setGoalState goalId s now archive)).CriticalPathsDone where
  commitments := hg.commitments
  goals := by
    intro commitmentId other critical he
    rw [apply_goals_get]
    exact onGoal_isSome _ (hg.goals _ _ _ he)
  g4 := by
    intro other goal commitmentId commitment hgl ha he hc
    rw [apply_goals_get, onGoal] at hgl
    split at hgl
    · next heq =>
      subst heq
      obtain ⟨row, hr, rfl⟩ := map_eq_some_iff.mp hgl
      exact hp ha commitmentId commitment he hc
    · exact hg.g4 other goal commitmentId commitment hgl ha he hc

theorem insertCommitment_good (hg : db.CriticalPathsDone)
    (hf : db.commitments.get commitmentId = none) :
    (db.apply (.insertCommitment commitmentId row)).CriticalPathsDone where
  commitments := by
    intro other goalId critical he
    rw [apply_commitments_get]
    exact onCommitment_isSome _ (hg.commitments _ _ _ he)
  goals := hg.goals
  g4 := by
    intro goalId goal other commitment hgl ha he hc
    rw [apply_commitments_get, onCommitment] at hc
    split at hc
    · next heq =>
      have hb := hg.commitments other goalId true he
      rw [heq, hf] at hb
      cases hb
    · exact hg.g4 goalId goal other commitment hgl ha he hc

theorem setCommitmentState_good (hg : db.CriticalPathsDone)
        (hr : db.commitments.get commitmentId = some row) (ho : row.state ≠ .doneverified) :
    (db.apply (.setCommitmentState commitmentId s now resolved basis
      terminal)).CriticalPathsDone where
  commitments := by
    intro other goalId critical he
    rw [apply_commitments_get]
    exact onCommitment_isSome _ (hg.commitments _ _ _ he)
  goals := hg.goals
  g4 := by
    intro goalId goal other commitment hgl ha he hc
    rw [apply_commitments_get, onCommitment] at hc
    split at hc
    · next heq =>
      subst heq
      exact absurd (hg.g4 goalId goal other row hgl ha he hr) ho
    · exact hg.g4 goalId goal other commitment hgl ha he hc

theorem insertContributesTo_good (hg : db.CriticalPathsDone)
    (hc : (db.commitments.get commitmentId).isSome)
    (hgl : (db.goals.get goalId).isSome)
    (hp : critical = true → ∀ goal commitment, db.goals.get goalId = some goal →
      goal.state = .achieved → db.commitments.get commitmentId = some commitment →
        commitment.state = .doneverified) :
    (db.apply (.insertContributesTo commitmentId goalId critical)).CriticalPathsDone := by
  have hcs : ∀ other target flag,
      (db.apply (.insertContributesTo commitmentId goalId critical)).contributesTo.get
        (other, target) = some flag → db.contributesTo.get (other, target) = some flag ∨
        (other = commitmentId ∧ target = goalId ∧ flag = critical) := by
    intro other target flag he
    simp only [Db.apply, Table.get_insertNew] at he
    split at he
    · next hn =>
      obtain ⟨rfl, rfl⟩ := Prod.mk.inj hn.1
      exact .inr ⟨rfl, rfl, (Option.some.inj he).symm⟩
    · exact .inl he
  refine ⟨?_, ?_, ?_⟩
  · intro other target flag he
    rcases hcs other target flag he with ho | ⟨rfl, rfl, rfl⟩
    · exact hg.commitments _ _ _ ho
    · exact hc
  · intro other target flag he
    rcases hcs other target flag he with ho | ⟨rfl, rfl, rfl⟩
    · exact hg.goals _ _ _ ho
    · exact hgl
  · intro target goal other commitment hr ha he hs
    rcases hcs other target true he with ho | ⟨rfl, rfl, hcr⟩
    · exact hg.g4 target goal other commitment hr ha ho hs
    · exact hp hcr.symm goal commitment hr ha hs

end

end FyralisCore.Acts
