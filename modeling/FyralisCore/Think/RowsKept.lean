import FyralisCore.Think.WorkerMoves

/-! What no step undoes: trigger rows stay in the queue with their kind, their list
of members and their re-evaluation row, completed rows stay completed, and a
completed row is not locked. So a task knows its row from the poll on. -/
namespace FyralisCore.Think

open Relational Transition Option Table

structure TriggerRow.Sound (row : TriggerRow) : Prop where
  unlocked : row.completedAt ≠ none → row.lockedBy = none
  promotedKind : row.payload.reevalRowId ≠ none → row.triggerKind = .t4

structure RowKept (row row' : TriggerRow) : Prop where
  kind : row'.triggerKind = row.triggerKind
  reeval : row'.payload.reevalRowId = row.payload.reevalRowId
  members : row'.payload.batchMemberTriggerIds = row.payload.batchMemberTriggerIds
  completed : row.completedAt ≠ none → row'.completedAt ≠ none
  sound : row.Sound → row'.Sound

theorem RowKept.refl (row : TriggerRow) : RowKept row row := ⟨rfl, rfl, rfl, id, id⟩

variable {row row' : TriggerRow} {queue : TriggerQueue} {id : Nat}

theorem RowKept.trans (h1 : RowKept row m) (h2 : RowKept m row') : RowKept row row' :=
  ⟨h2.kind.trans h1.kind, h2.reeval.trans h1.reeval,
    h2.members.trans h1.members, h2.completed ∘ h1.completed, h2.sound ∘ h1.sound⟩

section

variable (hk : row'.triggerKind = row.triggerKind)
  (hr : row'.payload.reevalRowId = row.payload.reevalRowId)
  (hm : row'.payload.batchMemberTriggerIds = row.payload.batchMemberTriggerIds)

include hk hr hm

theorem rowKept_of_unlocked (hc : row.completedAt ≠ none → row'.completedAt ≠ none)
    (hu : row'.lockedBy = none) : RowKept row row' :=
  ⟨hk, hr, hm, hc, fun hs =>
    ⟨fun _ => hu, fun hp => hk.trans (hs.promotedKind (hr ▸ hp))⟩⟩

theorem rowKept_of_open (ho : row.completedAt = none) (ho' : row'.completedAt = none) :
    RowKept row row' :=
  ⟨hk, hr, hm, fun hc => absurd ho hc, fun hs =>
    ⟨fun hc => absurd ho' hc, fun hp => hk.trans (hs.promotedKind (hr ▸ hp))⟩⟩

end

structure TriggerRow.Plain (row : TriggerRow) : Prop where
  sound : row.Sound
  notPromoted : row.payload.reevalRowId = none

theorem plain_of_open (ho : row.completedAt = none)
    (hr : row.payload.reevalRowId = none) : row.Plain :=
  ⟨⟨fun hc => absurd ho hc, fun hp => absurd hr hp⟩, hr⟩

structure RowsKept (queue after : TriggerQueue) : Prop where
  kept : ∀ {id row}, queue.get id = some row → ∃ row', after.get id = some row' ∧ RowKept row row'
  fresh : ∀ {id row'}, after.get id = some row' → queue.get id = none → row'.Plain

theorem RowsKept.refl (queue : TriggerQueue) : RowsKept queue queue :=
  ⟨fun hr => ⟨_, hr, .refl _⟩, fun hr hn => by rw [hn] at hr; cases hr⟩

theorem RowsKept.before (hk : RowsKept queue after) (ha : after.get id = some row') :
    (∃ row, queue.get id = some row ∧ RowKept row row') ∨ queue.get id = none ∧ row'.Plain := by
  cases hr : queue.get id with
  | none => exact .inr ⟨rfl, hk.fresh ha hr⟩
  | some row =>
    obtain ⟨_, hs, hrw⟩ := hk.kept hr
    cases ha.symm.trans hs
    exact .inl ⟨row, rfl, hrw⟩

theorem RowsKept.trans (h1 : RowsKept queue m) (h2 : RowsKept m after) : RowsKept queue after where
  kept := by
    intro id row hr
    obtain ⟨row', hr', hk⟩ := h1.kept hr
    obtain ⟨row'', hr'', hk'⟩ := h2.kept hr'
    exact ⟨row'', hr'', hk.trans hk'⟩
  fresh := by
    intro id row'' hr'' hn
    rcases h2.before hr'' with ⟨row', hr', hk⟩ | ⟨-, hp⟩
    · have hp := h1.fresh hr' hn
      exact ⟨hk.sound hp.sound, hk.reeval.trans hp.notPromoted⟩
    · exact hp

theorem rowsKept_updateWhere (hc : ∀ id row, queue.get id = some row → condition id row →
      RowKept row (change id row)) : RowsKept queue (queue.updateWhere condition change) where
  kept := by
    intro id row hr
    refine ⟨Table.changed condition change id row, ?_, ?_⟩
    · rw [get_updateWhere, hr, map_some]
    · unfold Table.changed
      split
      · next ht => exact hc id row hr ht
      · exact .refl row
  fresh := by
    intro id row' hr' hn
    rw [get_updateWhere, hn] at hr'
    cases hr'

theorem rowsKept_put (hf : queue.get id = none)
    (hp : row.Plain) : RowsKept queue (queue.put id row) where
  kept := by
    intro other row' hr'
    refine ⟨row', ?_, .refl row'⟩
    rw [get_put_ne, hr']
    rintro rfl
    rw [hf] at hr'
    cases hr'
  fresh := by
    intro other row' hr' hn
    rw [get_put] at hr'
    split at hr'
    · cases hr'
      exact hp
    · rw [hn] at hr'
      cases hr'

theorem rowsKept_completeMembers (now : Rat) (memberIds : List Nat) (triggerId : Nat)
    (queue : TriggerQueue) : RowsKept queue (completeMembers now memberIds triggerId queue) :=
  rowsKept_updateWhere fun _ _ _ _ =>
    rowKept_of_unlocked rfl rfl rfl (fun _ => some_ne_none now) rfl

theorem rowsKept_completeTrigger (workerId : String) (now : Rat) (triggerId : Nat)
    (queue : TriggerQueue) : RowsKept queue (completeTrigger workerId now triggerId queue) :=
  rowsKept_updateWhere fun _ _ _ _ =>
    rowKept_of_unlocked rfl rfl rfl (fun _ => some_ne_none now) rfl

theorem rowKept_retried (c : WorkerConfig) (now : Rat) (failure : TriggerFailure)
    (row : TriggerRow) : RowKept row (row.retried c now failure) := by
  refine rowKept_of_unlocked rfl ?_ ?_ id rfl <;> unfold TriggerRow.retried <;> dsimp only <;>
    split <;> rfl

theorem rowsKept_failureMarked {failure : TriggerFailure}
    (hm : FailureMarked c now triggerId failure db after) :
    RowsKept db.triggers after.triggers := by
  cases hm with
  | lost => exact .refl _
  | retried => exact rowsKept_updateWhere fun _ row _ _ => rowKept_retried c now failure row
  | deadLettered hr ho hh ht htr hrv =>
    have hl : RowsKept db.triggers
        (db.triggers.update triggerId (TriggerRow.deadLettered now failure)) :=
      rowsKept_updateWhere fun _ _ _ _ =>
        rowKept_of_unlocked rfl rfl rfl (fun _ => some_ne_none now) rfl
    rw [htr]
    exact hl.trans (rowsKept_updateWhere fun _ _ _ _ => rowKept_of_unlocked rfl rfl rfl id rfl)

theorem rowsKept_recover (c : WorkerConfig) (now : Rat) (queue : TriggerQueue) :
    RowsKept queue (recoverOrphanedTriggerLocks c now queue) :=
  rowsKept_updateWhere fun _ _ _ _ => rowKept_of_unlocked rfl rfl rfl id rfl

variable {c : WorkerConfig} {env : PollEnv} {queue after : TriggerQueue}

theorem rowsKept_prune : RowsKept queue (pruneLowValueDownstreamRows c env queue) where
  kept := by
    intro id row hr
    obtain ⟨note, ha⟩ := get_pruneLowValueDownstreamRows c env hr
    refine ⟨_, ha, ?_⟩
    split
    · exact rowKept_of_unlocked rfl rfl rfl (fun _ => some_ne_none env.now) rfl
    · exact .refl row
  fresh := by
    intro id row' hr' hn
    rw [get_prune_eq_none_iff.mpr hn] at hr'
    cases hr'

theorem rowsKept_batchInserted (hi : BatchInserted c now queue after batchId memberIds parent) :
    RowsKept queue after where
  kept := by
    intro id row hr
    obtain ⟨batchParentId, ha⟩ := hi.row_kept hr
    exact ⟨_, ha, rfl, rfl, rfl, fun hc => hc, fun hs => ⟨hs.unlocked, hs.promotedKind⟩⟩
  fresh := by
    intro id row' hr' hn
    by_cases hid : id = batchId
    · rw [hid, hi.get_batch] at hr'
      cases hr'
      exact plain_of_open hi.parentOf.open_ hi.parentOf.notReeval
    · rw [hi.get_none id hid hn] at hr'
      cases hr'

variable {leased batches : List TriggerRecord} {batched : TriggerQueue}

theorem Polled.open_of_leased (hpl : Polled c env queue after leased batched batches)
    (hm : id ∈ leased.map Prod.fst) (hr : batched.get id = some row) : row.completedAt = none := by
  obtain ⟨record, hrc, rfl⟩ := List.mem_map.mp hm
  rcases hpl.rows record hrc with hb | ⟨hg, hp⟩
  · obtain ⟨memberIds, hpr, hg⟩ := hpl.made.get_batch hb
    cases hr.symm.trans hg
    exact hpr.open_
  · cases hr.symm.trans hg
    exact (lockFree_of_pollable hp).1

theorem rowsKept_polled
    (hp : Polled c env queue after leased batched batches) : RowsKept queue after := by
  have hbt : RowsKept queue batched := hp.made.invariant rowsKept_prune
    fun _ _ _ _ _ hb hi => hb.trans (rowsKept_batchInserted hi)
  refine hbt.trans ?_
  rw [hp.leases]
  refine rowsKept_updateWhere fun id row hr hm => ?_
  have ho := hp.open_of_leased (of_decide_eq_true hm) hr
  exact rowKept_of_open rfl rfl rfl ho ho

variable {W : Type} [DecidableEq W] {configs : W → WorkerConfig} {s next : WorkerSystem W}

variable {taskId : Nat} {task : TriggerTask W} {action : WorkerAction W}

theorem rowsKept_taskMove (hmv : TaskMove configs s taskId task action next) :
    RowsKept s.db.triggers next.db.triggers := by
  cases hmv with
  | failed hmk hf hm => exact rowsKept_failureMarked hm
  | deferred hp =>
    exact rowsKept_updateWhere fun _ _ _ _ => rowKept_of_unlocked rfl rfl rfl id rfl
  | beat hp hl hn =>
    refine rowsKept_updateWhere fun id row _ htr => ?_
    simp only [Bool.and_eq_true, beq_iff_eq] at htr
    exact rowKept_of_open rfl rfl rfl htr.1.2 htr.1.2
  | completed hp hh hf ht =>
    rw [WorkerSystem.marked, (completeRest_eq_some ht).1]
    exact (rowsKept_completeTrigger _ _ _ _).trans (rowsKept_completeMembers _ _ _ _)
  | rest hp hf ht =>
    rw [WorkerSystem.marked, (completeRest_eq_some ht).1]
    exact rowsKept_completeMembers _ _ _ _
  | _ => exact .refl _

theorem rowsKept_move (hm : WorkerMove configs s action next)
    (hc : ∀ w, action ≠ .promoteCommit w) :
    RowsKept s.db.triggers next.db.triggers := by
  cases hm with
  | enqueued hpy hf => exact rowsKept_put hf (plain_of_open rfl hpy)
  | promotion hm =>
    cases hm with
    | committed => exact absurd rfl (hc _)
    | _ => exact .refl _
  | polled hn hp hts =>
    rcases polled_of_pollAndDispatch hp with ⟨-, rfl, -⟩ | ⟨-, batched, batches, hpl⟩
    · exact .refl _
    · exact rowsKept_polled hpl
  | recovered hi hn => exact rowsKept_recover _ _ _
  | task ha ht hm => exact rowsKept_taskMove hm
  | _ => exact .refl _

theorem row_kept_move (hm : WorkerMove configs s action next)
    (hr : s.db.triggers.get id = some row) :
    ∃ row', next.db.triggers.get id = some row' ∧ RowKept row row' := by
  by_cases hc : ∀ w, action ≠ .promoteCommit w
  · exact (rowsKept_move hm hc).kept hr
  · push Not at hc
    obtain ⟨w, rfl⟩ := hc
    cases hm with
    | promotion hm =>
      cases hm with
      | committed hg hi =>
        exact ⟨row, get_insertFresh_of_some hi hr, .refl row⟩
    | task ha ht hm => cases hm with | failed hmk => cases hmk

/-- The row that the poll returned and the row in the queue name the same members
and the same re-evaluation row. -/
structure SameNames (polled row : TriggerRow) : Prop where
  reeval : row.payload.reevalRowId = polled.payload.reevalRowId
  members : row.payload.batchMemberTriggerIds = polled.payload.batchMemberTriggerIds

def TasksMatch (queue : TriggerQueue) (tasks : Table Nat (TriggerTask W)) : Prop :=
  ∀ taskId task, tasks.get taskId = some task → ∃ row,
    queue.get task.triggerId = some row ∧ SameNames task.row row

omit [DecidableEq W] in
theorem TasksMatch.put (hm : TasksMatch queue tasks) (ht : tasks.get taskId = some task)
    (htr : task'.triggerId = task.triggerId) (hr : task'.row = task.row) :
    TasksMatch queue (tasks.put taskId task') := by
  intro otherId other ho
  rw [get_put] at ho
  split at ho
  · cases ho
    rw [htr, hr]
    exact hm taskId task ht
  · exact hm otherId other ho

omit [DecidableEq W] in
theorem TasksMatch.deleteWhere (hm : TasksMatch queue tasks)
    (condition : Nat → TriggerTask W → Bool) : TasksMatch queue (tasks.deleteWhere condition) := by
  intro taskId task ht
  rw [get_deleteWhere, filter_eq_some_iff] at ht
  exact hm taskId task ht.1

theorem Polled.get_leased (hpl : Polled c env queue after leased batched batches)
    (hm : record ∈ leased) :
    after.get record.1 = some (record.2.leasedTo c.workerId env.now) := by
  have hb : batched.get record.1 = some record.2 := by
    rcases hpl.rows record hm with hbt | ⟨hr, -⟩
    · obtain ⟨memberIds, hp, hr⟩ := hpl.made.get_batch hbt
      exact hr
    · exact hr
  rw [hpl.leases, get_leaseTriggers, hb, map_some, if_pos (List.mem_map_of_mem hm)]

theorem tasksMatch_taskMove (hm : TasksMatch queue s.tasks) (ht : s.tasks.get taskId = some task)
    (hmv : TaskMove configs s taskId task action next) : TasksMatch queue next.tasks := by
  cases hmv with
  | thinking | beat | returned | unmatched => exact hm.put ht rfl rfl
  | _ => exact hm.deleteWhere _

theorem tasksMatch_move (hm : TasksMatch s.db.triggers s.tasks)
    (hmv : WorkerMove configs s action next) : TasksMatch next.db.triggers next.tasks := by
  -- The queue keeps what the tasks know, so only the tasks of the step are left.
  have hk : TasksMatch next.db.triggers s.tasks := by
    intro taskId task ht
    obtain ⟨row, hr, hn⟩ := hm taskId task ht
    obtain ⟨row', hr', hrw⟩ := row_kept_move hmv hr
    exact ⟨row', hr', hrw.reeval.trans hn.reeval, hrw.members.trans hn.members⟩
  cases hmv with
  | promotion hmv => cases hmv <;> exact hk
  | polled hnw hp hts =>
    rcases polled_of_pollAndDispatch hp with ⟨-, rfl, rfl⟩ | ⟨-, batched, batches, hpl⟩
    · cases hts
      exact hk
    · intro taskId task ht
      rcases get_dispatchTasks hts ht with ho | ⟨record, hrc, rfl⟩
      · exact hk taskId task ho
      · exact ⟨_, hpl.get_leased hrc, rfl, rfl⟩
  | crashed => exact hk.deleteWhere _
  | task ha ht hmv => exact tasksMatch_taskMove hk ht hmv
  | _ => exact hk

theorem tasksMatch_of_reach (hr : Reach (workerStep configs) allowed .fresh s) :
    TasksMatch s.db.triggers s.tasks := by
  refine hr.invariant (P := fun s => TasksMatch s.db.triggers s.tasks) ?_
    fun _ _ _ hm _ hs => tasksMatch_move hm (workerMove_of_workerStep hs)
  intro taskId task ht
  cases ht

theorem get_task_before (hr : s.db.triggers.get id = some row) (hd : row.completedAt ≠ none)
    (hmv : WorkerMove configs s action next) (ht : next.tasks.get taskId = some task)
    (hid : task.triggerId = id) : ∃ was, s.tasks.get taskId = some was ∧ was.triggerId = id := by
  cases hmv with
  | promotion hmv => cases hmv <;> exact ⟨task, ht, hid⟩
  | polled hnw hp hts =>
    rcases polled_of_pollAndDispatch hp with ⟨-, rfl, rfl⟩ | ⟨-, batched, batches, hpl⟩
    · cases hts
      exact ⟨task, ht, hid⟩
    · rcases get_dispatchTasks hts ht with ho | ⟨record, hrc, rfl⟩
      · exact ⟨task, ho, hid⟩
      · -- a poll leases what it finds open, and the row has been completed before it
        have hbt : RowsKept s.db.triggers batched := hpl.made.invariant rowsKept_prune
          fun _ _ _ _ _ hb hi => hb.trans (rowsKept_batchInserted hi)
        obtain ⟨row', hr', hk⟩ := hbt.kept hr
        have ho := hpl.open_of_leased (hid ▸ List.mem_map_of_mem hrc) hr'
        exact absurd ho (hk.completed hd)
  | crashed =>
    rw [get_deleteWhere, filter_eq_some_iff] at ht
    exact ⟨task, ht.1, hid⟩
  | task ha hg hmv =>
    cases hmv with
    | thinking | beat | returned | unmatched =>
      simp only [WorkerSystem.setPhase, get_put] at ht
      split at ht
      · next he =>
        subst he
        cases ht
        exact ⟨_, hg, hid⟩
      · exact ⟨task, ht, hid⟩
    | _ =>
      simp only [WorkerSystem.marked, get_remove] at ht
      split at ht
      · cases ht
      · exact ⟨task, ht, hid⟩
  | _ => exact ⟨task, ht, hid⟩

/-- Once a trigger is completed its row stays so, and it gets no new tasks. -/
theorem completed_for_good {later : WorkerSystem W}
    (hget : s.db.triggers.get id = some row) (hdone : row.completedAt ≠ none)
    (hlater : Reach (workerStep configs) anyStep s later) :
    (∃ row', later.db.triggers.get id = some row' ∧ row'.completedAt ≠ none) ∧
    ∀ taskId task, later.tasks.get taskId = some task → task.triggerId = id →
      ∃ was, s.tasks.get taskId = some was ∧ was.triggerId = id := by
  apply hlater.invariant
  · exact ⟨⟨row, hget, hdone⟩, fun _ task htask hid => ⟨task, htask, hid⟩⟩
  · rintro before action after ⟨⟨mid, hmid, hopen⟩, htasks⟩ - hstep
    have hmove := workerMove_of_workerStep hstep
    obtain ⟨row', hrow', hkept⟩ := row_kept_move hmove hmid
    refine ⟨⟨row', hrow', hkept.completed hopen⟩, fun taskId task htask hid => ?_⟩
    obtain ⟨mine, hmine, hmineId⟩ := get_task_before hmid hopen hmove htask hid
    exact htasks taskId mine hmine hmineId

theorem completed_for_good_polled : ∃ s later : WorkerSystem Bool,
    Reach (workerStep thinkWorkers) anyStep s later ∧
      ∀ taskId task, later.tasks.get taskId = some task → task.triggerId ≠ 1 := by
  have hrun : (runAll (workerStep thinkWorkers) .fresh
      [.enqueue 1 0 0 .t3 none none none {} none, .poll false (pollAt 0) 0, .think 0,
        .returned 0 .succeeded, .complete 0 1]).any fun s =>
          (s.db.triggers.get 1).any (·.completedAt.isSome) &&
            !s.tasks.any (fun _ task => task.triggerId == 1) &&
              (runAll (workerStep thinkWorkers) s [.wait 700, .poll true (pollAt 700) 1]).isSome := by
    decide +kernel
  obtain ⟨s, -, ht⟩ := (any_eq_true _ _).mp hrun
  simp only [Bool.and_eq_true, any_eq_true, Bool.not_eq_true'] at ht
  obtain ⟨⟨⟨row, hrow, hdone⟩, hnone⟩, hpoll⟩ := ht
  obtain ⟨later, hlater⟩ := isSome_iff_exists.mp hpoll
  have hgood := completed_for_good hrow (isSome_iff_ne_none.mp hdone) (reach_of_run hlater)
  refine ⟨s, later, reach_of_run hlater, fun taskId task htask hid => ?_⟩
  obtain ⟨was, hwas, hwasId⟩ := hgood.2 taskId task htask hid
  exact Bool.eq_false_iff.mp hnone ((any_iff _ _).mpr ⟨_, was, hwas, beq_iff_eq.mpr hwasId⟩)

end FyralisCore.Think
