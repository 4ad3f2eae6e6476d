import FyralisCore.Think.PollEffects
import FyralisCore.Think.WorkerRuns

/-! What a step of the workers can do, said once: a failure that marks its row,
the moves of a task, and the steps around them. -/
namespace FyralisCore.Think

open Relational Transition List Option Table

structure Stamped (target : Option Nat) (before after : ReevalQueue) : Prop where
  kept : ∀ id, before.get id = none ↔ after.get id = none
  rows : ∀ id reeval, after.get id = some reeval → ∃ old, before.get id = some old ∧
    (reeval = old ∨ target = some id ∧ reeval.processedAt ≠ none)
  stamped : ∀ id reeval, target = some id → after.get id = some reeval →
    reeval.processedAt ≠ none

variable {reevals : ReevalQueue} {target : Nat} {now : Rat} {after db : ThinkDb}

theorem Stamped.nothing {target : Option Nat}
    (ht : ∀ id reeval, target = some id → reevals.get id = some reeval →
      reeval.processedAt ≠ none) : Stamped target reevals reevals :=
  ⟨fun _ => Iff.rfl, fun _ reeval hg => ⟨reeval, hg, .inl rfl⟩, ht⟩

theorem Stamped.update (hc : ∀ reeval, (change reeval).processedAt ≠ none) :
    Stamped (some target) reevals (reevals.update target change) := by
  refine ⟨fun id => ?_, fun id reeval hg => ?_, fun id reeval ht hg => ?_⟩
  · rw [get_update]
    split <;> simp
  · rw [get_update] at hg
    split at hg
    · next hi =>
      obtain ⟨old, ho, rfl⟩ := map_eq_some_iff.mp hg
      exact ⟨old, ho, .inr ⟨congrArg some hi.symm, hc old⟩⟩
    · exact ⟨reeval, hg, .inl rfl⟩
  · cases ht
    rw [get_update, if_pos rfl] at hg
    obtain ⟨old, -, rfl⟩ := map_eq_some_iff.mp hg
    exact hc old

theorem stamped_stampReeval {after : ReevalQueue}
    (hs : stampReeval now target reevals = some after) :
    Stamped (some target) reevals after := by
  unfold stampReeval at hs
  split at hs
  · next row hr =>
    split at hs
    · split at hs
      · cases hs
      · cases hs
        exact .update fun _ => some_ne_none now
    · next hp =>
      cases hs
      refine .nothing fun id reeval ht hg => ?_
      cases ht
      exact Option.some.inj (hr.symm.trans hg) ▸ hp
  · next ha =>
    cases hs
    refine .nothing fun id reeval ht hg => ?_
    cases ht
    rw [ha] at hg
    cases hg

theorem completeRest_eq_some {triggerId : Nat}
    (ht : completeRest now triggerId payload db = some after) :
    after.triggers = completeMembers now payload.batchMemberTriggerIds triggerId db.triggers ∧
      Stamped payload.reevalRowId db.reevals after.reevals := by
  obtain ⟨reevals, hr, rfl⟩ := map_eq_some_iff.mp ht
  refine ⟨rfl, ?_⟩
  unfold stampPromoted at hr
  split at hr
  · next hn =>
    cases hr
    rw [hn]
    exact .nothing nofun
  · next target htg =>
    rw [htg]
    exact stamped_stampReeval hr

theorem stamped_deadLetterReeval
    (hl : deadLetterReeval now target attempts lastError db = some after) :
    after.triggers = db.triggers ∧ Stamped (some target) db.reevals after.reevals := by
  unfold deadLetterReeval at hl
  split at hl
  · next ha =>
    cases hl
    refine ⟨rfl, .nothing fun id reeval ht hg => ?_⟩
    cases ht
    rw [ha] at hg
    cases hg
  · dsimp only at hl
    split at hl
    · cases hl
    · cases hl
      exact ⟨rfl, .update fun _ => some_ne_none now⟩

/-- `_mark_trigger_failed` finds no row of its own, sends the row round again, or
dead-letters it. -/
inductive FailureMarked (config : WorkerConfig) (now : Rat) (triggerId : Nat)
    (failure : TriggerFailure) (db : ThinkDb) : ThinkDb → Prop where
  | lost : FailureMarked config now triggerId failure db db
  | retried {row : TriggerRow} (hrow : db.triggers.get triggerId = some row)
      (hopen : row.completedAt = none) (hheld : row.lockedBy = some config.workerId)
      (hretryable : isTerminal config failure row = false) :
      FailureMarked config now triggerId failure db { db with
        triggers := db.triggers.update triggerId (TriggerRow.retried config now failure) }
  | deadLettered {row : TriggerRow} {after : ThinkDb}
      (hrow : db.triggers.get triggerId = some row)
      (hopen : row.completedAt = none) (hheld : row.lockedBy = some config.workerId)
      (hterminal : isTerminal config failure row)
      (htriggers : after.triggers = releaseMembers now row.payload.batchMemberTriggerIds triggerId
        (db.triggers.update triggerId (TriggerRow.deadLettered now failure)))
      (hreevals : Stamped row.payload.reevalRowId db.reevals after.reevals) :
      FailureMarked config now triggerId failure db after

theorem failureMarked_of_markTriggerFailed {config : WorkerConfig} {triggerId : Nat}
    {failure : TriggerFailure}
    (hm : markTriggerFailed config now triggerId failure db = some after) :
    FailureMarked config now triggerId failure db after := by
  unfold markTriggerFailed at hm
  split at hm
  · cases hm
    exact .lost
  · next row hr =>
    split at hm
    · next hh =>
      split at hm
      · next hte =>
        split at hm
        · next hn =>
          cases hm
          refine .deadLettered hr hh.1 hh.2 hte rfl ?_
          rw [hn]
          exact .nothing nofun
        · next target ht =>
          obtain ⟨htr, hrv⟩ := stamped_deadLetterReeval hm
          exact .deadLettered hr hh.1 hh.2 hte htr (ht ▸ hrv)
      · next hrt =>
        cases hm
        exact .retried hr hh.1 hh.2 (Bool.eq_false_of_not_eq_true hrt)
    · cases hm
      exact .lost

variable {W : Type} [DecidableEq W]

inductive MarksFailure (config : W → WorkerConfig) (task : TriggerTask W) :
    WorkerAction W → Rat → TriggerFailure → Prop where
  | rejected {taskId : Nat} {now : Rat} (hphase : task.phase = .waiting) :
      MarksFailure config task (.rejectDepth taskId now) now
        (depthFailure (config task.worker) task.row.payload.cascadeDepth)
  | raised {taskId : Nat} {now : Rat} {failure : TriggerFailure} (hphase : task.phase = .running) :
      MarksFailure config task (.raised taskId now failure) now failure
  | failed {taskId : Nat} {now : Rat} {failure : TriggerFailure}
      (hphase : task.phase = .ended (.failed failure)) :
      MarksFailure config task (.fail taskId now) now failure

inductive TaskMove (config : W → WorkerConfig) (system : WorkerSystem W) (taskId : Nat)
    (task : TriggerTask W) : WorkerAction W → WorkerSystem W → Prop where
  | failed {action : WorkerAction W} {now : Rat} {failure : TriggerFailure} {db : ThinkDb}
      (hmarks : MarksFailure config task action now failure)
      (hfree : failureBlocked (config task.worker) failure system.promotions system.db.triggers
        task.triggerId = false)
      (hmark : FailureMarked (config task.worker) now task.triggerId failure system.db db) :
      TaskMove config system taskId task action (system.marked taskId db)
  | deferred {nextDay : Rat} (hphase : task.phase = .waiting) :
      TaskMove config system taskId task (.deferBudget taskId nextDay)
        (system.marked taskId { system.db with
          triggers := deferTriggerForBudget (config task.worker).workerId nextDay task.triggerId
            system.db.triggers })
  | thinking (hphase : task.phase = .waiting) :
      TaskMove config system taskId task (.think taskId) { system with
        tasks := system.tasks.put taskId { task with phase := .running, beatAt := system.clock } }
  | beat {now : Rat} (hphase : task.phase = .running) (hlater : task.beatAt ≤ now)
      (hnow : now ≤ system.clock) :
      TaskMove config system taskId task (.heartbeat taskId now)
        { system.setTriggers (heartbeatTrigger (config task.worker).workerId now task.triggerId
            system.db.triggers) with
          tasks := system.tasks.put taskId { task with renewedAt := now, beatAt := now } }
  | returned {outcome : RunOutcome} (hphase : task.phase = .running) :
      TaskMove config system taskId task (.returned taskId outcome)
        (system.setPhase taskId task (.ended outcome))
  | completed {now : Rat} {db : ThinkDb} (hphase : task.phase = .ended .succeeded)
      (hheld : completes (config task.worker).workerId task.triggerId system.db.triggers)
      (hfree : reevalBlocked system.promotions task.row.payload = false)
      (hrest : completeRest now task.triggerId task.row.payload { system.db with
        triggers := completeTrigger (config task.worker).workerId now task.triggerId
          system.db.triggers } = some db) :
      TaskMove config system taskId task (.complete taskId now) (system.marked taskId db)
  | unmatched {now : Rat} (hphase : task.phase = .ended .succeeded)
      (hlost : completes (config task.worker).workerId task.triggerId system.db.triggers = false) :
      TaskMove config system taskId task (.complete taskId now)
        (system.setPhase taskId task .unmatched)
  | rest {now : Rat} {db : ThinkDb} (hphase : task.phase = .unmatched)
      (hfree : reevalBlocked system.promotions task.row.payload = false)
      (hrest : completeRest now task.triggerId task.row.payload system.db = some db) :
      TaskMove config system taskId task (.completeRest taskId now) (system.marked taskId db)
  | abandoned : TaskMove config system taskId task (.abandon taskId)
      (system.marked taskId system.db)

variable {config : W → WorkerConfig} {system after : WorkerSystem W}

variable {taskId firstTask : Nat} {task : TriggerTask W} {action : WorkerAction W} {worker : W}
  {leased : List TriggerRecord} {tasks : Table Nat (TriggerTask W)}

theorem taskMove_of_failTask {failure : TriggerFailure}
    (hmk : MarksFailure config task action now failure)
    (hf : failTask (config task.worker) system taskId task now failure = some after) :
    TaskMove config system taskId task action after := by
  simp only [failTask, ite_none_left_eq_some, Bool.not_eq_true] at hf
  obtain ⟨db, hm, rfl⟩ := map_eq_some_iff.mp hf.2
  exact .failed hmk hf.1 (failureMarked_of_markTriggerFailed hm)

inductive PromotionMove (config : W → WorkerConfig) (system : WorkerSystem W) :
    WorkerAction W → WorkerSystem W → Prop where
  | locked {worker : W} {sees : Nat → Bool} {rows : List (Nat × ReevalRow)}
      (hclosed : system.promotions.get worker = none)
      (hrows : rows = pendingReevals (config worker)
        (fun rowId => sees rowId && !reevalLocked system.promotions rowId) system.db.reevals) :
      PromotionMove config system (.promoteLock worker sees) { system with
        promotions := system.promotions.put worker ⟨rows.map Prod.fst, rows, false, []⟩ }
  | inFlight {worker : W} {rowId : Nat} {reeval : ReevalRow} {locked : List Nat}
      {rest : List (Nat × ReevalRow)} {inserted : List TriggerRecord}
      (hget : system.promotions.get worker = some ⟨locked, (rowId, reeval) :: rest, false, inserted⟩) :
      PromotionMove config system (.promoteCheck worker) { system with
        promotions := system.promotions.put worker ⟨locked, rest, false, inserted⟩ }
  | absent {worker : W} {rowId : Nat} {reeval : ReevalRow} {locked : List Nat}
      {rest : List (Nat × ReevalRow)} {inserted : List TriggerRecord}
      (hget : system.promotions.get worker = some ⟨locked, (rowId, reeval) :: rest, false, inserted⟩)
      (habsent : promotedInFlight system.db.triggers
        ⟨locked, (rowId, reeval) :: rest, false, inserted⟩ rowId = false) :
      PromotionMove config system (.promoteCheck worker) { system with
        promotions := system.promotions.put worker
          ⟨locked, (rowId, reeval) :: rest, true, inserted⟩ }
  | inserted {worker : W} {rowId triggerId : Nat} {now : Rat} {reeval : ReevalRow}
      {locked : List Nat} {rest : List (Nat × ReevalRow)} {inserted : List TriggerRecord}
      (hget : system.promotions.get worker = some ⟨locked, (rowId, reeval) :: rest, true, inserted⟩) :
      PromotionMove config system (.promoteInsert worker triggerId now) { system with
        promotions := system.promotions.put worker
          ⟨locked, rest, false, inserted ++ [(triggerId, promotedRow now rowId reeval)]⟩ }
  | committed {worker : W} {locked : List Nat} {absent : Bool} {inserted : List TriggerRecord}
      {triggers : TriggerQueue}
      (hget : system.promotions.get worker = some ⟨locked, [], absent, inserted⟩)
      (hinsert : system.db.triggers.insertFresh inserted = some triggers) :
      PromotionMove config system (.promoteCommit worker)
        { system.setTriggers triggers with promotions := system.promotions.remove worker }
  | rolledBack {worker : W} : PromotionMove config system (.promoteRollback worker)
      { system with promotions := system.promotions.remove worker }

inductive WorkerMove (config : W → WorkerConfig) (system : WorkerSystem W) :
    WorkerAction W → WorkerSystem W → Prop where
  | waited {seconds : Rat} (hseconds : 0 ≤ seconds) :
      WorkerMove config system (.wait seconds) { system with clock := system.clock + seconds }
  | enqueued {triggerId : Nat} {now : Rat} {tenantId : Nat} {kind : TriggerKind}
      {subkind : Option TriggerSubkind} {observationId modelId : Option Nat}
      {payload : TriggerPayload} {scheduledFor : Option Rat}
      (hpayload : payload.reevalRowId = none)
      (hfresh : system.db.triggers.get triggerId = none) :
      WorkerMove config system
        (.enqueue triggerId now tenantId kind subkind observationId modelId payload scheduledFor)
        (system.setTriggers (system.db.triggers.put triggerId (newTriggerRow now tenantId kind
          subkind observationId modelId payload scheduledFor none)))
  | reevalEnqueued {rowId : Nat} {now : Rat} {tenantId modelId : Nat} {causeModelId : Option Nat}
      {causeKind : String} {reevals : ReevalQueue}
      (henqueue : enqueueModelReeval now rowId tenantId modelId causeModelId causeKind
        system.db.reevals = some reevals) :
      WorkerMove config system (.enqueueReeval rowId now tenantId modelId causeModelId causeKind)
        { system with db := { system.db with reevals := reevals } }
  | promotion {action : WorkerAction W} {after : WorkerSystem W}
      (hmove : PromotionMove config system action after) : WorkerMove config system action after
  | polled {worker : W} {env : PollEnv} {firstTask : Nat} {triggers : TriggerQueue}
      {leased : List TriggerRecord} {tasks : Table Nat (TriggerTask W)}
      (hnow : env.now ≤ system.clock)
      (hpoll : pollAndDispatch (config worker) env (inFlight system.tasks worker)
        system.db.triggers = some (triggers, leased))
      (htasks : dispatchTasks worker env.now leased firstTask system.tasks = some tasks) :
      WorkerMove config system (.poll worker env firstTask)
        { system.setTriggers triggers with tasks := tasks }
  | recovered {worker : W} {now : Rat} (hidle : inFlight system.tasks worker = 0)
      (hnow : now ≤ system.clock) :
      WorkerMove config system (.recover worker now)
        (system.setTriggers (recoverOrphanedTriggerLocks (config worker) now system.db.triggers))
  | crashed {worker : W} : WorkerMove config system (.crash worker) { system with
      tasks := system.tasks.deleteWhere fun _ task => decide (task.worker = worker)
      promotions := system.promotions.remove worker }
  | task {taskId : Nat} {task : TriggerTask W} {action : WorkerAction W} {after : WorkerSystem W}
      (haction : action.task? = some taskId) (htask : system.tasks.get taskId = some task)
      (hmove : TaskMove config system taskId task action after) :
      WorkerMove config system action after

omit [DecidableEq W] in
theorem get_dispatchTasks {after : Table Nat (TriggerTask W)}
    (hd : dispatchTasks worker now leased firstTask tasks = some after)
    (hg : after.get taskId = some task) : tasks.get taskId = some task ∨
      ∃ record ∈ leased, task = ⟨worker, record.1, record.2, .waiting, now, now⟩ := by
  induction leased generalizing firstTask tasks with
  | nil =>
    cases hd
    exact .inl hg
  | cons record rest ih =>
    simp only [dispatchTasks, ite_none_left_eq_some] at hd
    rcases ih hd.2 with hp | ⟨other, ho, ht⟩
    · rw [get_put] at hp
      split at hp
      · exact .inr ⟨record, .head _, (Option.some.inj hp).symm⟩
      · exact .inl hp
    · exact .inr ⟨other, mem_cons_of_mem _ ho, ht⟩

omit [DecidableEq W] in
theorem get_dispatchTasks_of_some {after : Table Nat (TriggerTask W)}
    (hd : dispatchTasks worker now leased firstTask tasks = some after)
    (hg : tasks.get taskId = some task) : after.get taskId = some task := by
  induction leased generalizing firstTask tasks with
  | nil =>
    cases hd
    exact hg
  | cons record rest ih =>
    simp only [dispatchTasks, ite_none_left_eq_some, Bool.not_eq_true,
      isSome_eq_false_iff, isNone_iff_eq_none] at hd
    refine ih hd.2 ?_
    rw [get_put_ne, hg]
    rintro rfl
    rw [hd.1] at hg
    cases hg

omit [DecidableEq W] in
theorem dispatchTasks_distinct {after : Table Nat (TriggerTask W)}
    (hd : dispatchTasks worker now leased firstTask tasks = some after)
    (hnd : (leased.map Prod.fst).Nodup) {otherId : Nat}
    (hnw : tasks.get taskId = none) (hother : tasks.get otherId = none)
    (htk : after.get taskId = some task) (ho : after.get otherId = some other)
    (htr : task.triggerId = other.triggerId) : taskId = otherId := by
  induction leased generalizing firstTask tasks with
  | nil =>
    cases hd
    rw [hnw] at htk
    cases htk
  | cons record rest ih =>
    simp only [dispatchTasks, ite_none_left_eq_some] at hd
    rw [map_cons, nodup_cons] at hnd
    -- The head's task carries the head's row, every other new task a row of the rest.
    have hr : ∀ {id found}, tasks.get id = none → after.get id = some found →
        id = firstTask ∧ found.triggerId = record.1 ∨
          id ≠ firstTask ∧ found.triggerId ∈ rest.map Prod.fst := by
      intro id found hn hf
      rcases get_dispatchTasks hd.2 hf with hp | ⟨polled, hpl, rfl⟩
      · rw [get_put] at hp
        split at hp
        · next hi =>
          cases hp
          exact .inl ⟨hi, rfl⟩
        · rw [hn] at hp
          cases hp
      · by_cases hi : id = firstTask
        · subst hi
          have hk := get_dispatchTasks_of_some hd.2 (get_put_self tasks id _)
          rw [hf] at hk
          exact .inl ⟨rfl, by rw [Option.some.inj hk]⟩
        · exact .inr ⟨hi, mem_map_of_mem hpl⟩
    rcases hr hnw htk with ⟨hi, hh⟩ | ⟨hne, ht⟩ <;> rcases hr hother ho with ⟨hi', hh'⟩ | ⟨hn', ht'⟩
    · exact hi.trans hi'.symm
    · exact absurd (hh ▸ htr ▸ ht') hnd.1
    · exact absurd (hh' ▸ htr ▸ ht) hnd.1
    · exact ih hd.2 hnd.2 ((get_put_ne tasks _ hne).trans hnw) ((get_put_ne tasks _ hn').trans hother)

theorem promotionMove_of_promotionStep (hs : promotionStep config system action = some after) :
    PromotionMove config system action after := by
  cases action
  case promoteRollback worker =>
    cases hs
    exact .rolledBack
  all_goals simp only [promotionStep] at hs
  case promoteLock worker sees =>
    split at hs
    · cases hs
    · next hc =>
      cases hs
      exact .locked hc rfl
  case promoteCheck worker =>
    split at hs
    · next locked rowId reeval rest inserted hg =>
      cases hs
      cases hf : promotedInFlight system.db.triggers
          ⟨locked, (rowId, reeval) :: rest, false, inserted⟩ rowId with
      | true => exact .inFlight hg
      | false => exact .absent hg hf
    · cases hs
  case promoteInsert worker triggerId now =>
    split at hs
    · next hg =>
      cases hs
      exact .inserted hg
    · cases hs
  case promoteCommit worker =>
    split at hs
    · next hg =>
      obtain ⟨triggers, hi, rfl⟩ := map_eq_some_iff.mp hs
      exact .committed hg hi
    · cases hs
  all_goals cases hs

theorem taskMove_of_taskStep (hac : action.task? = some taskId)
    (hs : taskStep config system taskId task action = some after) :
    TaskMove config system taskId task action after := by
  cases action <;> cases hac
  case abandon =>
    cases hs
    exact .abandoned
  all_goals simp only [taskStep] at hs
  case rejectDepth now =>
    split at hs
    · next hp =>
      exact taskMove_of_failTask (.rejected hp) (ite_none_right_eq_some.mp hs).2
    · cases hs
  case deferBudget nextDay =>
    split at hs
    · next hp =>
      obtain rfl := Option.some.inj (ite_none_right_eq_some.mp hs).2
      exact .deferred hp
    · cases hs
  case think =>
    split at hs
    · next hp =>
      obtain rfl := Option.some.inj (ite_none_right_eq_some.mp hs).2
      exact .thinking hp
    · cases hs
  case heartbeat now =>
    split at hs
    · next hp =>
      obtain ⟨⟨hl, hn⟩, ha⟩ := ite_none_right_eq_some.mp hs
      cases ha
      exact .beat hp hl hn
    · cases hs
  case raised now failure =>
    split at hs
    · next hp => exact taskMove_of_failTask (.raised hp) hs
    · cases hs
  case returned outcome =>
    split at hs
    · next hp =>
      cases hs
      exact .returned hp
    · cases hs
  case fail now =>
    split at hs
    · next hp => exact taskMove_of_failTask (.failed hp) hs
    · cases hs
  case complete now =>
    split at hs
    · next hp =>
      split at hs
      · next hh =>
        obtain ⟨hf, ht⟩ := ite_none_left_eq_some.mp hs
        obtain ⟨db, hd, rfl⟩ := map_eq_some_iff.mp ht
        exact .completed hp hh (Bool.eq_false_of_not_eq_true hf) hd
      · next hls =>
        cases hs
        exact .unmatched hp (Bool.eq_false_of_not_eq_true hls)
    · cases hs
  case completeRest now =>
    split at hs
    · next hp =>
      obtain ⟨hf, ht⟩ := ite_none_left_eq_some.mp hs
      obtain ⟨db, hd, rfl⟩ := map_eq_some_iff.mp ht
      exact .rest hp (Bool.eq_false_of_not_eq_true hf) hd
    · cases hs

theorem workerMove_of_workerStep (hs : workerStep config system action = some after) :
    WorkerMove config system action after := by
  unfold workerStep at hs
  cases hac : action.task? with
  | some taskId =>
    rw [hac] at hs
    obtain ⟨task, ht, hts⟩ := bind_eq_some_iff.mp hs
    exact .task hac ht (taskMove_of_taskStep hac hts)
  | none =>
    cases action with
    | wait seconds =>
      obtain ⟨hsc, ha⟩ := ite_none_right_eq_some.mp hs
      cases ha
      exact .waited hsc
    | enqueue triggerId now tenantId kind subkind observationId modelId payload scheduledFor =>
      obtain ⟨hpy, hin⟩ := ite_none_right_eq_some.mp hs
      obtain ⟨triggers, htr, rfl⟩ := map_eq_some_iff.mp hin
      simp only [insertTrigger, ite_none_left_eq_some, Bool.not_eq_true,
        isSome_eq_false_iff, isNone_iff_eq_none, Option.some.injEq] at htr
      obtain ⟨hf, rfl⟩ := htr
      exact .enqueued hpy hf
    | enqueueReeval rowId now tenantId modelId causeModelId causeKind =>
      obtain ⟨reevals, hr, rfl⟩ := map_eq_some_iff.mp hs
      exact .reevalEnqueued hr
    | poll worker env firstTask =>
      obtain ⟨hn, hp⟩ := ite_none_right_eq_some.mp hs
      obtain ⟨⟨triggers, leased⟩, hpl, hta⟩ := bind_eq_some_iff.mp hp
      obtain ⟨tasks, hd, ha⟩ := bind_eq_some_iff.mp hta
      cases ha
      exact .polled hn hpl hd
    | recover worker now =>
      obtain ⟨⟨hi, hn⟩, ha⟩ := ite_none_right_eq_some.mp hs
      cases ha
      exact .recovered hi hn
    | crash worker =>
      cases hs
      exact .crashed
    | promoteLock worker sees => exact .promotion (promotionMove_of_promotionStep hs)
    | promoteCheck worker => exact .promotion (promotionMove_of_promotionStep hs)
    | promoteInsert worker triggerId now => exact .promotion (promotionMove_of_promotionStep hs)
    | promoteCommit worker => exact .promotion (promotionMove_of_promotionStep hs)
    | promoteRollback worker => exact .promotion (promotionMove_of_promotionStep hs)
    | _ => cases hac

/-- A promotion looks at rows that it has locked, and inserts triggers for them. -/
structure Promotion.WellFormed (promotion : Promotion) : Prop where
  rows : ∀ record ∈ promotion.rows, record.1 ∈ promotion.locked
  inserted : ∀ record ∈ promotion.inserted, ∃ now rowId reeval,
    rowId ∈ promotion.locked ∧ record.2 = promotedRow now rowId reeval

theorem wellFormed_locked (rows : List (Nat × ReevalRow)) :
    Promotion.WellFormed ⟨rows.map Prod.fst, rows, false, []⟩ :=
  ⟨fun _ hm => mem_map_of_mem hm, fun _ hm => absurd hm not_mem_nil⟩

def WellPromoted (promotions : Table W Promotion) : Prop :=
  ∀ worker promotion, promotions.get worker = some promotion → promotion.WellFormed

theorem WellPromoted.put (hw : WellPromoted promotions)
    (worker : W) (hp : promotion.WellFormed) : WellPromoted (promotions.put worker promotion) := by
  intro other found hf
  rw [get_put] at hf
  split at hf
  · cases hf
    exact hp
  · exact hw other found hf

theorem WellPromoted.remove (hw : WellPromoted promotions)
    (worker : W) : WellPromoted (promotions.remove worker) := by
  intro other found hf
  rw [get_remove] at hf
  split at hf
  · cases hf
  · exact hw other found hf

theorem TaskMove.promotions_eq (hm : TaskMove config system taskId task action after) :
    after.promotions = system.promotions := by
  cases hm <;> rfl

theorem wellPromoted_move (hw : WellPromoted system.promotions)
    (hmv : WorkerMove config system action after) : WellPromoted after.promotions := by
  cases hmv with
  | promotion hmv =>
    cases hmv with
    | locked hc hr => exact hw.put _ (wellFormed_locked _)
    | inFlight hg =>
      have hp := hw _ _ hg
      exact hw.put _ ⟨fun record hm => hp.rows record (.tail _ hm), hp.inserted⟩
    | absent hg ha => exact hw.put _ ⟨(hw _ _ hg).rows, (hw _ _ hg).inserted⟩
    | @inserted worker rowId triggerId now reeval locked rest inserted hg =>
      have hp := hw _ _ hg
      refine hw.put _ ⟨fun record hm => hp.rows record (.tail _ hm), fun record hm => ?_⟩
      rcases mem_append.mp hm with ho | hn
      · exact hp.inserted record ho
      · obtain rfl := mem_singleton.mp hn
        exact ⟨now, rowId, reeval, hp.rows _ (.head _), rfl⟩
    | committed hg hi => exact hw.remove _
    | rolledBack => exact hw.remove _
  | crashed => exact hw.remove _
  | task hac ht hmv =>
    rw [hmv.promotions_eq]
    exact hw
  | _ => exact hw

theorem wellPromoted_of_reach
    (hr : Reach (workerStep config) allowed .fresh system) : WellPromoted system.promotions :=
  hr.invariant (P := fun system => WellPromoted system.promotions) nofun
    fun _ _ _ hw _ hs => wellPromoted_move hw (workerMove_of_workerStep hs)

end FyralisCore.Think
