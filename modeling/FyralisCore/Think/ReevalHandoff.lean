import FyralisCore.Think.Promotions

/-! The hand-off of a re-evaluation row to its T4 trigger, up to the stamp. What
stamps a row or completes the members of a batch holds the trigger's lock, except
for a completion whose first UPDATE has found that the lock is lost. -/
namespace FyralisCore.Think

open Relational Transition Option Table WorkerSystem

variable {W : Type} [DecidableEq W]

/-- A completion that comes after the lock was lost would find nothing to do. -/
structure NothingLeft (db : ThinkDb) (triggerId : Nat) (payload : TriggerPayload) : Prop where
  reeval : ∀ rowId reeval, payload.reevalRowId = some rowId →
    db.reevals.get rowId = some reeval → reeval.processedAt ≠ none
  members : ∀ id row, db.triggers.get id = some row →
    isMember payload.batchMemberTriggerIds triggerId id row = false

def LateCompletionsIdle (system : WorkerSystem W) : WorkerAction W → Prop
  | .completeRest taskId _ => ∀ task, system.tasks.get taskId = some task →
      NothingLeft system.db task.triggerId task.row.payload
  | _ => True

/-- A processed row has had a trigger, and none of its triggers is uncompleted. -/
def ProcessedMeansCompleted (db : ThinkDb) : Prop :=
  ∀ rowId reeval, db.reevals.get rowId = some reeval → reeval.processedAt ≠ none →
    (∃ id row, db.triggers.get id = some row ∧ row.payload.reevalRowId = some rowId) ∧
      ∀ id row, db.triggers.get id = some row → row.payload.reevalRowId = some rowId →
        row.completedAt ≠ none

/-- The action is a move of a task whose worker holds the lock of its trigger. -/
def MovesOwner (config : W → WorkerConfig) (system : WorkerSystem W) (action : WorkerAction W)
    (task : TriggerTask W) : Prop :=
  ∃ taskId row, action.task? = some taskId ∧ system.tasks.get taskId = some task ∧
    system.db.triggers.get task.triggerId = some row ∧
    row.lockedBy = some (config task.worker).workerId

/-- Only the owner of its trigger stamps a re-evaluation row, and only the owner of
the batch, or of the member itself, completes a member. -/
structure OwnersOnly (config : W → WorkerConfig) (system : WorkerSystem W)
    (action : WorkerAction W) (next : WorkerSystem W) : Prop where
  stamps : ∀ rowId before after, system.db.reevals.get rowId = some before →
    before.processedAt = none → next.db.reevals.get rowId = some after →
    after.processedAt ≠ none →
      ∃ task, MovesOwner config system action task ∧ task.row.payload.reevalRowId = some rowId
  members : ∀ id batchId before after, system.db.triggers.get id = some before →
    before.completedAt = none → before.batchParentId = some batchId →
    next.db.triggers.get id = some after → after.completedAt ≠ none →
      ∃ task, MovesOwner config system action task ∧
        (task.triggerId = batchId ∨ task.triggerId = id)

structure HandoffInvariant (system : WorkerSystem W) : Prop where
  sound : ∀ {id row}, system.db.triggers.get id = some row → row.Sound
  /-- an open promotion holds unprocessed rows only -/
  pending : ∀ {worker promotion rowId reeval}, system.promotions.get worker = some promotion →
    rowId ∈ promotion.locked → system.db.reevals.get rowId = some reeval →
    reeval.processedAt = none
  processed : ProcessedMeansCompleted system.db

variable {config : W → WorkerConfig} {system next : WorkerSystem W}

variable {promotions : Table W Promotion} {db : ThinkDb} {id triggerId : Nat}
  {row row' : TriggerRow} {now : Rat} {q : TriggerQueue}

theorem reevalBlocked_of_locked (hg : promotions.get w = some promotion)
    (hl : rowId ∈ promotion.locked)
    (hp : payload.reevalRowId = some rowId) : reevalBlocked promotions payload := by
  rw [reevalBlocked, hp]
  exact reevalLocked_of_mem hg hl

theorem ProcessedMeansCompleted.kept (hpr : ProcessedMeansCompleted db)
    (hk : RowsKept db.triggers after.triggers)
    (hre : ∀ rowId reeval, after.reevals.get rowId = some reeval →
      reeval.processedAt ≠ none → ∃ old, db.reevals.get rowId = some old ∧
        old.processedAt ≠ none) : ProcessedMeansCompleted after := by
  intro rowId reeval hrv hd
  obtain ⟨old, ho, hol⟩ := hre rowId reeval hrv hd
  obtain ⟨⟨id, row, hr, hn⟩, hc⟩ := hpr rowId old ho hol
  refine ⟨?_, fun id row' hr' hn' => ?_⟩
  · obtain ⟨row', hr', hrw⟩ := hk.kept hr
    exact ⟨id, row', hr', hrw.reeval.trans hn⟩
  · rcases hk.before hr' with ⟨row, hr, hrw⟩ | ⟨-, hp⟩
    · exact hrw.completed (hc id row hr (hrw.reeval ▸ hn'))
    · rw [hp.notPromoted] at hn'
      cases hn'

theorem sound_kept (hs : ∀ {id row}, system.db.triggers.get id = some row → row.Sound)
    (hk : RowsKept system.db.triggers next.db.triggers)
    (hr : next.db.triggers.get id = some row) : row.Sound := by
  rcases hk.before hr with ⟨old, ho, hrw⟩ | ⟨-, hp⟩
  · exact hrw.sound (hs ho)
  · exact hp.sound

theorem HandoffInvariant.kept (hi : HandoffInvariant system)
    (hk : RowsKept system.db.triggers next.db.triggers)
    (hp : ∀ w promotion, next.promotions.get w = some promotion →
      ∃ old, system.promotions.get w = some old ∧ old.locked = promotion.locked)
    (hre : ∀ rowId reeval, next.db.reevals.get rowId = some reeval →
      system.db.reevals.get rowId = some reeval ∨ reeval.processedAt = none) :
    HandoffInvariant next where
  sound := fun hr => sound_kept hi.sound hk hr
  pending := by
    intro w promotion rowId reeval hg hm hrv
    obtain ⟨old, ho, hl⟩ := hp w promotion hg
    rcases hre rowId reeval hrv with hs | hu
    · exact hi.pending ho (hl ▸ hm) hs
    · exact hu
  processed := by
    refine hi.processed.kept hk fun rowId reeval hrv hd => ?_
    rcases hre rowId reeval hrv with hs | hu
    · exact ⟨reeval, hs, hd⟩
    · exact absurd hu hd

theorem HandoffInvariant.stamped (hi : HandoffInvariant system)
    (hsi : SingleTriggers system.db.triggers) (hkp : RowsKept system.db.triggers next.db.triggers)
    (hp : next.promotions = system.promotions)
    (hr : system.db.triggers.get triggerId = some row) (hop : row.completedAt = none)
    (hc : ∀ row', next.db.triggers.get triggerId = some row' → row'.completedAt ≠ none)
    (hf : reevalBlocked system.promotions row.payload = false)
    (hsp : Stamped row.payload.reevalRowId system.db.reevals next.db.reevals) :
    HandoffInvariant next where
  sound := fun hg => sound_kept hi.sound hkp hg
  pending := by
    intro w promotion rowId reeval hg hm hrv
    rw [hp] at hg
    obtain ⟨old, hold, rfl | ⟨ht, -⟩⟩ := hsp.rows rowId reeval hrv
    · exact hi.pending hg hm hold
    · rw [reevalBlocked_of_locked hg hm ht] at hf
      cases hf
  processed := by
    intro rowId reeval hrv hd
    by_cases ht : row.payload.reevalRowId = some rowId
    · refine ⟨?_, fun id row' hr' hn' => ?_⟩
      · obtain ⟨row', hr', hrw⟩ := hkp.kept hr
        exact ⟨triggerId, row', hr', hrw.reeval.trans ht⟩
      · -- An uncompleted trigger of the row would be this one, and it is completed.
        by_contra ho'
        have hsd := sound_kept hi.sound hkp hr'
        have hk := hsd.promotedKind (by rw [hn']; exact some_ne_none rowId)
        have ho := hkp.openFor ⟨row', hr', isPromoted_iff.mpr ⟨hk, hn', ho'⟩⟩
        have hk' := (hi.sound hr).promotedKind (by rw [ht]; exact some_ne_none rowId)
        have hid := hsi rowId id triggerId ho ⟨row, hr, isPromoted_iff.mpr ⟨hk', ht, hop⟩⟩
        exact hc row' (hid ▸ hr') ho'
    · obtain ⟨old, hold, rfl | ⟨hs, -⟩⟩ := hsp.rows rowId reeval hrv
      · have hu : ProcessedMeansCompleted ⟨next.db.triggers, system.db.reevals, []⟩ :=
          hi.processed.kept hkp fun _ reeval hg hd => ⟨reeval, hg, hd⟩
        exact hu rowId reeval hold hd
      · exact absurd hs ht

/-- The lock that a marking UPDATE has found is the owner's, and its row is uncompleted. -/
structure Owned (config : W → WorkerConfig) (system : WorkerSystem W) (task : TriggerTask W)
    (row : TriggerRow) : Prop where
  get : system.db.triggers.get task.triggerId = some row
  holder : row.lockedBy = some (config task.worker).workerId
  isOpen : row.completedAt = none
  names : SameNames task.row row

theorem owned_of_completes (hi : HandoffInvariant system)
    (hm : TasksMatch system.db.triggers system.tasks) (ht : system.tasks.get taskId = some task)
    (hh : completes (config task.worker).workerId task.triggerId system.db.triggers) :
    ∃ row, Owned config system task row := by
  obtain ⟨row, hr, hhd⟩ := (any_eq_true _ _).mp hh
  rw [beq_iff_eq] at hhd
  obtain ⟨_, hs, hn⟩ := hm taskId task ht
  cases hr.symm.trans hs
  refine ⟨row, hr, hhd, ?_, hn⟩
  by_contra hd
  rw [(hi.sound hr).unlocked hd] at hhd
  cases hhd

omit [DecidableEq W] in
theorem reevalBlocked_congr (hn : SameNames polled row) :
    reevalBlocked promotions row.payload = reevalBlocked promotions polled.payload := by
  rw [reevalBlocked, reevalBlocked, hn.reeval]

theorem get_completeTrigger (hr : q.get triggerId = some row) (hh : row.lockedBy = some workerId) :
    (completeTrigger workerId now triggerId q).get triggerId =
      some { row.completed now with lastError := none } := by
  unfold completeTrigger
  rw [get_updateWhere, hr, map_some, Table.changed, if_pos]
  simp [hh]

theorem completed_of_updateWhere (hr : q.get id = some row) (ho : row.completedAt = none)
    (hr' : (q.updateWhere condition change).get id = some row') (hd : row'.completedAt ≠ none) :
    condition id row ∧ (change id row).completedAt ≠ none := by
  rw [get_updateWhere, hr, map_some] at hr'
  cases hr'
  unfold Table.changed at hd
  split at hd
  · next ht => exact ⟨ht, hd⟩
  · exact absurd ho hd

theorem completed_of_complete (hr : q.get id = some row) (ho : row.completedAt = none)
    (hp : row.batchParentId = some batchId) (hr' : (completeMembers now memberIds triggerId
      (completeTrigger workerId now triggerId q)).get id = some row')
    (hd : row'.completedAt ≠ none) : triggerId = batchId ∨ triggerId = id := by
  by_cases hi : triggerId = id
  · exact .inr hi
  · have hm : (completeTrigger workerId now triggerId q).get id = some row := by
      unfold completeTrigger
      rw [get_updateWhere, hr, map_some, Table.changed, if_neg]
      simp [Ne.symm hi]
    have hmb := (completed_of_updateWhere hm ho hr' hd).1
    simp only [isMember, Bool.and_eq_true, beq_iff_eq] at hmb
    exact .inl (Option.some.inj (hmb.1.2.symm.trans hp))

theorem Polled.member_open (hpl : Polled workerConfig env q t leased batched batches)
    (hr : q.get id = some row) (ho : row.completedAt = none)
    (hpr : row.batchParentId = some batchId) (hr' : t.get id = some row') :
    row'.completedAt = none := by
  have hp : (pruneLowValueDownstreamRows workerConfig env q).get id = some row := by
    obtain ⟨note, ha⟩ := get_pruneLowValueDownstreamRows workerConfig env hr
    rw [ha, if_neg]
    intro hp
    have hs := (prunable_of_isPruned hp).2
    rw [hpr] at hs
    cases hs
  have hb : ∃ row, batched.get id = some row ∧ row.completedAt = none := by
    refine hpl.made.invariant (P := fun q => ∃ row, q.get id = some row ∧
      row.completedAt = none) ⟨row, hp, ho⟩ ?_
    rintro _ _ _ _ _ ⟨row, hr, ho⟩ hi
    obtain ⟨_, hk⟩ := hi.row_kept hr
    exact ⟨_, hk, ho⟩
  obtain ⟨m, hmd, hm⟩ := hb
  rw [hpl.leases, get_leaseTriggers, hmd, map_some] at hr'
  cases hr'
  split <;> exact hm

theorem ownersOnly_of_open (hr : ∀ rowId before t, system.db.reevals.get rowId = some before →
      next.db.reevals.get rowId = some t → t = before)
    (ho : ∀ {id batchId row row'}, system.db.triggers.get id = some row →
      row.completedAt = none → row.batchParentId = some batchId →
      next.db.triggers.get id = some row' → row'.completedAt = none) :
    OwnersOnly config system action next where
  stamps := by
    intro rowId before t hb hu ha hd
    obtain rfl := hr rowId before t hb ha
    exact absurd hu hd
  members := by
    intro id batchId before t hb hbf hp ha hd
    exact absurd (ho hb hbf hp ha) hd

structure MoveOk (config : W → WorkerConfig) (system : WorkerSystem W) (action : WorkerAction W)
    (next : WorkerSystem W) : Prop where
  invariant : HandoffInvariant next
  owners : OwnersOnly config system action next

theorem moveOk_of_open (hi : HandoffInvariant system)
    (hk : RowsKept system.db.triggers next.db.triggers)
    (hp : ∀ w promotion, next.promotions.get w = some promotion →
      ∃ old, system.promotions.get w = some old ∧ old.locked = promotion.locked)
    (hr : next.db.reevals = system.db.reevals)
    (ho : ∀ {id batchId row row'}, system.db.triggers.get id = some row →
      row.completedAt = none → row.batchParentId = some batchId →
      next.db.triggers.get id = some row' → row'.completedAt = none) :
    MoveOk config system action next where
  invariant := hi.kept hk hp fun _ _ hg => .inl (hr ▸ hg)
  owners := ownersOnly_of_open (fun rowId before t hb ha => by
    rw [hr, hb] at ha
    exact (Option.some.inj ha).symm) ho

theorem open_of_updateWhere (hr : q.get id = some row) (ho : row.completedAt = none)
    (hr' : (q.updateWhere condition change).get id = some row')
    (hc : ∀ id row, (change id row).completedAt = row.completedAt) : row'.completedAt = none := by
  by_contra hd
  exact (completed_of_updateWhere hr ho hr' hd).2 ((hc id row).trans ho)

variable {taskId : Nat} {task : TriggerTask W} {action : WorkerAction W}

theorem moveOk_failed (hi : HandoffInvariant system) (hsi : SingleTriggers system.db.triggers)
    (hm : TasksMatch system.db.triggers system.tasks) (hac : action.task? = some taskId)
    (ht : system.tasks.get taskId = some task) {failure : TriggerFailure}
    (hf : failureBlocked (config task.worker) failure system.promotions system.db.triggers
      task.triggerId = false)
    (hmr : FailureMarked (config task.worker) now task.triggerId failure system.db db) :
    MoveOk config system action (system.marked taskId db) := by
  have hk := rowsKept_failureMarked hmr
  have hs : ∀ w promotion, (system.marked taskId db).promotions.get w = some promotion →
      ∃ old, system.promotions.get w = some old ∧ old.locked = promotion.locked :=
    fun w promotion hg => ⟨promotion, hg, rfl⟩
  cases hmr with
  | lost =>
    refine moveOk_of_open hi hk hs rfl fun hr ho _ hr' => ?_
    cases hr.symm.trans hr'
    exact ho
  | retried =>
    exact moveOk_of_open hi hk hs rfl fun hr ho _ hr' =>
      open_of_updateWhere hr ho hr' fun _ _ => rfl
  | @deadLettered row _ hr ho hh hte htr hrv =>
    obtain ⟨_, hg, hname⟩ := hm taskId task ht
    cases hr.symm.trans hg
    have how : MovesOwner config system action task := ⟨taskId, row, hac, ht, hr, hh⟩
    refine ⟨hi.stamped hsi hk rfl hr ho (fun row' hr' => ?_)
      (by simpa [failureBlocked, hr, ho, hh, hte] using hf) hrv, ?_, ?_⟩
    · have hl : (system.db.triggers.update task.triggerId
          (TriggerRow.deadLettered now failure)).get task.triggerId =
            some (row.deadLettered now failure) := by
        rw [get_update, if_pos rfl, hr, map_some]
      rw [marked, htr] at hr'
      intro hn
      unfold releaseMembers at hr'
      rw [get_updateWhere, hl, map_some] at hr'
      cases hr'
      unfold Table.changed at hn
      split at hn <;> cases hn
    · intro rowId before t hb hu ha hd
      obtain ⟨old, hold, rfl | ⟨htg, -⟩⟩ := hrv.rows rowId t ha
      · cases hb.symm.trans hold
        exact absurd hu hd
      · exact ⟨task, how, hname.reeval ▸ htg⟩
    · intro id batchId before t hb hbf hp ha hd
      refine ⟨task, how, .inr ?_⟩
      by_contra hne
      have hmd : (system.db.triggers.update task.triggerId
          (TriggerRow.deadLettered now failure)).get id = some before := by
        rw [get_update, if_neg fun h => hne h.symm, hb]
      rw [marked, htr] at ha
      exact hd (open_of_updateWhere hmd hbf ha fun _ _ => rfl)

theorem moveOk_completed (hi : HandoffInvariant system) (hsi : SingleTriggers system.db.triggers)
    (hm : TasksMatch system.db.triggers system.tasks) (hac : action.task? = some taskId)
    (htk : system.tasks.get taskId = some task)
    (hh : completes (config task.worker).workerId task.triggerId system.db.triggers)
    (hf : reevalBlocked system.promotions task.row.payload = false)
    (ht : completeRest now task.triggerId task.row.payload { system.db with
      triggers := completeTrigger (config task.worker).workerId now task.triggerId
        system.db.triggers } = some db) :
    MoveOk config system action (system.marked taskId db) := by
  obtain ⟨row, how⟩ := owned_of_completes hi hm htk hh
  obtain ⟨htr, hs⟩ := completeRest_eq_some ht
  have hown : MovesOwner config system action task :=
    ⟨taskId, row, hac, htk, how.get, how.holder⟩
  have hmm := rowsKept_completeMembers now task.row.payload.batchMemberTriggerIds
    task.triggerId (completeTrigger (config task.worker).workerId now task.triggerId
      system.db.triggers)
  have hk : RowsKept system.db.triggers (system.marked taskId db).db.triggers := by
    rw [marked, htr]
    exact (rowsKept_completeTrigger _ _ _ _).trans hmm
  refine ⟨hi.stamped hsi hk rfl how.get how.isOpen (fun row' hr' => ?_) ?_ ?_, ?_, ?_⟩
  · obtain ⟨row'', hr'', hr⟩ := hmm.kept (get_completeTrigger how.get how.holder)
    rw [marked, htr, hr''] at hr'
    cases hr'
    exact hr.completed (some_ne_none now)
  · rw [reevalBlocked_congr how.names]
    exact hf
  · rw [how.names.reeval]
    exact hs
  · intro rowId before t hb hu ha hd
    obtain ⟨old, hold, rfl | ⟨htg, -⟩⟩ := hs.rows rowId t ha
    · cases hb.symm.trans hold
      exact absurd hu hd
    · exact ⟨task, hown, htg⟩
  · intro id batchId before t hb ho hp ha hd
    rw [marked, htr] at ha
    exact ⟨task, hown, completed_of_complete hb ho hp ha hd⟩

theorem moveOk_rest (hin : HandoffInvariant system)
    (hi : NothingLeft system.db task.triggerId task.row.payload)
    (ht : completeRest now task.triggerId task.row.payload system.db = some db) :
    MoveOk config system action (system.marked taskId db) := by
  obtain ⟨htr, hsp⟩ := completeRest_eq_some ht
  have hk : RowsKept system.db.triggers (system.marked taskId db).db.triggers := by
    rw [marked, htr]
    exact rowsKept_completeMembers _ _ _ _
  have hu : ∀ rowId before t, system.db.reevals.get rowId = some before →
      db.reevals.get rowId = some t → t ≠ before → before.processedAt ≠ none := by
    intro rowId before t hb ha hn
    obtain ⟨old, hold, rfl | ⟨htg, -⟩⟩ := hsp.rows rowId t ha
    · exact absurd (Option.some.inj (hold.symm.trans hb)) hn
    · exact hi.reeval rowId before htg hb
  refine ⟨⟨fun hr => sound_kept hin.sound hk hr, ?_, ?_⟩, ?_, ?_⟩
  · intro w promotion rowId reeval hg hm hrv
    obtain ⟨old, hold, -⟩ := hsp.rows rowId reeval hrv
    by_contra hd
    have hup := hin.pending hg hm hold
    by_cases hs : reeval = old
    · exact hd (hs ▸ hup)
    · exact hu rowId old reeval hold hrv hs hup
  · refine hin.processed.kept hk fun rowId reeval hrv hd => ?_
    obtain ⟨old, hold, -⟩ := hsp.rows rowId reeval hrv
    refine ⟨old, hold, ?_⟩
    by_cases hs : reeval = old
    · exact hs ▸ hd
    · exact hu rowId old reeval hold hrv hs
  · intro rowId before t hb hup ha hd
    refine absurd hup (hu rowId before t hb ha ?_)
    rintro rfl
    exact hd hup
  · intro id batchId before t hb ho hp ha hd
    rw [marked, htr] at ha
    have hmb := (completed_of_updateWhere hb ho ha hd).1
    rw [hi.members id before hb] at hmb
    cases hmb

theorem still_open {triggers : TriggerQueue} {row row' : TriggerRow} (hr : triggers.get id = some row)
    (ho : row.completedAt = none) (_ : row.batchParentId = some batchId)
    (hr' : triggers.get id = some row') : row'.completedAt = none := by
  cases hr.symm.trans hr'
  exact ho

theorem moveOk_taskMove (hin : HandoffInvariant system) (hs : SingleTriggers system.db.triggers)
    (hm : TasksMatch system.db.triggers system.tasks)
    (hi : LateCompletionsIdle system action) (ha : action.task? = some taskId)
    (htk : system.tasks.get taskId = some task)
    (hmv : TaskMove config system taskId task action next) : MoveOk config system action next := by
  have hpm : ∀ w promotion, next.promotions.get w = some promotion →
      ∃ old, system.promotions.get w = some old ∧ old.locked = promotion.locked := by
    intro w promotion hg
    rw [hmv.promotions_eq] at hg
    exact ⟨promotion, hg, rfl⟩
  have hk := rowsKept_taskMove hmv
  cases hmv with
  | failed hmk hf hmr =>
    exact moveOk_failed hin hs hm ha htk hf hmr
  | deferred hp =>
    exact moveOk_of_open hin hk hpm rfl fun hr ho _ hr' =>
      open_of_updateWhere hr ho hr' fun _ _ => rfl
  | beat hp hl hn =>
    exact moveOk_of_open hin hk hpm rfl fun hr ho _ hr' =>
      open_of_updateWhere hr ho hr' fun _ _ => rfl
  | completed hp hh hf ht =>
    exact moveOk_completed hin hs hm ha htk hh hf ht
  | rest hp hf ht => exact moveOk_rest hin (hi task htk) ht
  | thinking | returned | unmatched | abandoned =>
    exact moveOk_of_open hin hk hpm rfl still_open

theorem row_of_enqueueModelReeval
        (he : enqueueModelReeval now rowId tenantId modelId causeModelId causeKind reevals =
      some t) (id : Nat) : t.get id = reevals.get id ∨
      reevals.get id = none ∧ ∀ reeval, t.get id = some reeval → reeval.processedAt = none := by
  simp only [enqueueModelReeval] at he
  split at he
  · cases he
    exact .inl rfl
  · simp only [ite_none_left_eq_some, Bool.not_eq_true, isSome_eq_false_iff,
      isNone_iff_eq_none, Option.some.injEq] at he
    obtain ⟨hf, rfl⟩ := he
    by_cases hi : id = rowId
    · subst hi
      refine .inr ⟨hf, fun reeval hg => ?_⟩
      rw [get_put_self] at hg
      cases hg
      rfl
    · exact .inl (get_put_ne reevals _ hi)

section

variable (hin : HandoffInvariant system) (hw : WellPromoted system.promotions)

include hin hw

theorem moveOk_promotionMove (hmv : PromotionMove config system action next) :
    MoveOk config system action next := by
  have hp : ∀ {w promotion promotion'}, system.promotions.get w = some promotion →
      promotion'.locked = promotion.locked → ∀ other found,
      (system.promotions.put w promotion').get other = some found →
        ∃ old, system.promotions.get other = some old ∧ old.locked = found.locked := by
    intro w promotion promotion' hg hl other found hf
    rw [get_put] at hf
    split at hf
    · next ho =>
      cases hf
      exact ⟨promotion, ho ▸ hg, hl.symm⟩
    · exact ⟨found, hf, rfl⟩
  have hrm : ∀ {w} other found, (system.promotions.remove w).get other = some found →
      system.promotions.get other = some found := by
    intro w other found hf
    rw [get_remove] at hf
    exact (ite_none_left_eq_some.mp hf).2
  cases hmv with
  | @locked w sees rows hcl hrs =>
    refine ⟨⟨hin.sound, ?_, hin.processed⟩, ownersOnly_of_open ?_ still_open⟩
    · intro other promotion rowId reeval hg hm hrv
      rw [get_put] at hg
      split at hg
      · cases hg
        obtain ⟨record, hrc, rfl⟩ := List.mem_map.mp hm
        obtain ⟨hr, -, hu⟩ := mem_pendingReevals (hrs ▸ hrc)
        cases hr.symm.trans hrv
        exact hu
      · exact hin.pending hg hm hrv
    · intro rowId before t hb haf
      exact Option.some.inj (haf.symm.trans hb)
  | inFlight hg => exact moveOk_of_open hin (.refl _) (hp hg rfl) rfl still_open
  | absent hg ha => exact moveOk_of_open hin (.refl _) (hp hg rfl) rfl still_open
  | inserted hg => exact moveOk_of_open hin (.refl _) (hp hg rfl) rfl still_open
  | @committed w locked absent inserted triggers hg hi =>
    refine ⟨⟨fun hr => ?_, fun hpm => hin.pending (hrm _ _ hpm), ?_⟩, ownersOnly_of_open ?_ ?_⟩
    · rcases get_insertFresh_cases hi hr with hold | hn
      · exact hin.sound hold
      · obtain ⟨now, rowId, reeval, -, rfl⟩ := (hw _ _ hg).inserted _ hn
        exact ⟨fun hd => absurd rfl hd, fun _ => rfl⟩
    · intro rowId reeval hrv hd
      obtain ⟨⟨id, row, hr, hname⟩, hc⟩ := hin.processed rowId reeval hrv hd
      refine ⟨⟨id, row, get_insertFresh_of_some hi hr, hname⟩, fun id row hr hname => ?_⟩
      rcases get_insertFresh_cases hi hr with hold | hn
      · exact hc id row hold hname
      · -- The promotion would have locked a processed row.
        obtain ⟨now, lockedId, other, hl, hrc⟩ := (hw _ _ hg).inserted _ hn
        rw [show row = promotedRow now lockedId other from hrc] at hname
        cases hname
        exact absurd (hin.pending hg hl hrv) hd
    · intro rowId before t hb haf
      exact Option.some.inj (haf.symm.trans hb)
    · intro id batchId row row' hr hop _ hr'
      cases (get_insertFresh_of_some hi hr).symm.trans hr'
      exact hop
  | rolledBack =>
    exact moveOk_of_open hin (.refl _)
      (fun other found hf => ⟨found, hrm other found hf, rfl⟩) rfl still_open

theorem moveOk_move (hs : SingleTriggers system.db.triggers)
    (hm : TasksMatch system.db.triggers system.tasks) (hl : LateCompletionsIdle system action)
    (hmv : WorkerMove config system action next) : MoveOk config system action next := by
  have hpm : ∀ w promotion, system.promotions.get w = some promotion →
      ∃ old, system.promotions.get w = some old ∧ old.locked = promotion.locked :=
    fun w promotion hg => ⟨promotion, hg, rfl⟩
  cases hmv with
  | waited hsc => exact moveOk_of_open hin (.refl _) hpm rfl still_open
  | enqueued hpy hf =>
    refine moveOk_of_open hin (rowsKept_put hf (plain_of_open rfl hpy)) hpm
      rfl fun hr ho hpr hr' => ?_
    rw [setTriggers, get_put] at hr'
    split at hr'
    · next hid =>
      rw [hid, hf] at hr
      cases hr
    · exact still_open hr ho hpr hr'
  | reevalEnqueued he =>
    refine ⟨hin.kept (.refl _) hpm fun rowId reeval hg => ?_,
      ownersOnly_of_open (fun rowId before t hb ha => ?_) still_open⟩
    · rcases row_of_enqueueModelReeval he rowId with hold | ⟨-, hne⟩
      · exact .inl (hold ▸ hg)
      · exact .inr (hne reeval hg)
    · rcases row_of_enqueueModelReeval he rowId with hold | ⟨hn, -⟩
      · exact Option.some.inj (ha.symm.trans (hold.trans hb))
      · rw [hn] at hb
        cases hb
  | promotion hmv => exact moveOk_promotionMove hin hw hmv
  | polled hnw hp hts =>
    have hk := rowsKept_move (.polled hnw hp hts) nofun
    refine moveOk_of_open hin hk hpm rfl fun hr ho hpr hr' => ?_
    rcases polled_of_pollAndDispatch hp with ⟨-, rfl, -⟩ | ⟨-, batched, batches, hpl⟩
    · exact still_open hr ho hpr hr'
    · exact hpl.member_open hr ho hpr hr'
  | recovered hi hnw =>
    exact moveOk_of_open hin (rowsKept_move (.recovered hi hnw) nofun) hpm rfl
      fun hr ho _ hr' => open_of_updateWhere hr ho hr' fun _ _ => rfl
  | crashed =>
    refine moveOk_of_open hin (.refl _) (fun w promotion hg => ?_) rfl still_open
    rw [get_remove] at hg
    exact ⟨promotion, (ite_none_left_eq_some.mp hg).2, rfl⟩
  | task hac ht hmv =>
    exact moveOk_taskMove hin hs hm hl hac ht hmv

end

theorem handoffInvariant_of_reach
    (hrc : Reach (workerStep config) LateCompletionsIdle .fresh system) :
    HandoffInvariant system := by
  refine hrc.invariant_of (fun _ hp => And.intro (wellPromoted_of_reach hp)
    (And.intro (promotionInvariant_of_reach hp) (tasksMatch_of_reach hp))) ⟨?_, ?_, ?_⟩ ?_
  · intro id row hr
    cases hr
  · intro w promotion rowId reeval hg
    cases hg
  · intro rowId reeval hrv
    cases hrv
  · rintro before action next hi ⟨hw, hpm, hm⟩ hl hs
    exact (moveOk_move hi hw hpm.single hm hl (workerMove_of_workerStep hs)).invariant

/-- As long as late completions find nothing to do, no re-evaluation row has two
uncompleted triggers, the triggers of a processed row are completed, and stamps and
members are the owners' alone. -/
theorem reeval_handoff (config : W → WorkerConfig) (system : WorkerSystem W)
    (hreach : Reach (workerStep config) LateCompletionsIdle .fresh system) :
    SingleTriggers system.db.triggers ∧ ProcessedMeansCompleted system.db ∧
      ∀ action next, LateCompletionsIdle system action →
        workerStep config system action = some next → OwnersOnly config system action next := by
  have hinvariant := handoffInvariant_of_reach hreach
  have hsingle := (promotionInvariant_of_reach hreach).single
  refine ⟨hsingle, hinvariant.processed, fun action next hlate hstep => ?_⟩
  exact (moveOk_move hinvariant (wellPromoted_of_reach hreach) hsingle (tasksMatch_of_reach hreach)
    hlate (workerMove_of_workerStep hstep)).owners

def promotedRun : List (WorkerAction Bool) :=
  [.enqueueReeval 1 0 0 7 none "model_updated", .promoteLock false fun _ => true,
    .promoteCheck false, .promoteInsert false 1 0, .promoteCommit false,
    .poll false (pollAt 0) 0]

theorem reeval_handoff_completed : ∃ system : WorkerSystem Bool,
    ((system.db.reevals.get 1).any fun reeval => reeval.processedAt.isSome) ∧
      SingleTriggers system.db.triggers ∧ ProcessedMeansCompleted system.db := by
  have hrun : ((runAll (workerStep thinkWorkers) .fresh (promotedRun ++
      [.think 0, .returned 0 .succeeded, .complete 0 1])).any fun system =>
        (system.db.reevals.get 1).any fun reeval => reeval.processedAt.isSome) := by
    decide +kernel
  obtain ⟨system, hsystem, hprocessed⟩ := (any_eq_true _ _).mp hrun
  have hreach : Reach (workerStep thinkWorkers) LateCompletionsIdle .fresh system :=
    reach_of_runAll .start (by simp [promotedRun, LateCompletionsIdle]) hsystem
  obtain ⟨hsingle, hcompleted, -⟩ := reeval_handoff thinkWorkers system hreach
  exact ⟨system, hprocessed, hsingle, hcompleted⟩

/-- The first worker waits five minutes for a slot and its heartbeats fail for six; the
second worker takes the trigger over; then the first one's `think()` returns, and it stamps
the row. -/
theorem late_completion_stamps : ∃ system : WorkerSystem Bool,
    Reach (workerStep thinkWorkers) anyStep .fresh system ∧ ¬ProcessedMeansCompleted system.db := by
  have hrun : ((runAll (workerStep thinkWorkers) .fresh (promotedRun ++
      [.wait 300, .think 0, .wait 360, .poll true (pollAt 660) 1, .returned 0 .succeeded,
        .complete 0 660, .completeRest 0 660])).any fun system =>
        ((system.db.reevals.get 1).any fun reeval => reeval.processedAt.isSome) &&
          (system.db.triggers.get 1).any fun row =>
            row.payload.reevalRowId == some 1 && row.completedAt == none) := by
    decide +kernel
  obtain ⟨system, hsystem, htrue⟩ := (any_eq_true _ _).mp hrun
  obtain ⟨hprocessed, hopen⟩ := Bool.and_eq_true_iff.mp htrue
  obtain ⟨reeval, hreeval, hdone⟩ := (any_eq_true _ _).mp hprocessed
  obtain ⟨row, hrow, htrigger⟩ := (any_eq_true _ _).mp hopen
  simp only [Bool.and_eq_true, beq_iff_eq] at htrigger
  refine ⟨system, reach_of_run hsystem, fun hall => ?_⟩
  exact (hall 1 reeval hreeval (isSome_iff_ne_none.mp hdone)).2 1 row hrow htrigger.1
    htrigger.2

end FyralisCore.Think
