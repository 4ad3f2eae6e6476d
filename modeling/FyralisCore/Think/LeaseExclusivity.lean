import Mathlib.Tactic.Linarith
import FyralisCore.Think.RowsKept

/-! Who runs `think()` for a row. A lease carries a worker id and a time; what keeps
a second run out is that the row is locked, not long ago, by the worker of the
first one. The invariant is about the tasks whose lease has not lapsed: each holds
its row, and no row has two of them. -/
namespace FyralisCore.Think

open Relational Transition Option Table

variable {W : Type}

/-- No two tasks run `think()` for the same row. -/
def ExclusiveRuns (tasks : Table Nat (TriggerTask W)) : Prop :=
  ∀ taskId otherId task other, tasks.get taskId = some task → tasks.get otherId = some other →
    task.phase = .running → other.phase = .running → task.triggerId = other.triggerId →
      taskId = otherId

def Fresh (config : W → WorkerConfig) (clock : Rat) (task : TriggerTask W) : Prop :=
  ∀ worker, clock ≤ task.renewedAt + (config worker).triggerLockTimeoutS

/-- The row is leased to the worker, as of some time from `since` on. -/
structure LeasedTo (workerId : String) (since : Rat) (row : TriggerRow) : Prop where
  holder : row.lockedBy = some workerId
  stamped : ∃ lockedAt, row.lockedAt = some lockedAt ∧ since ≤ lockedAt
  single : row.batchParentId = none

/-- Nobody else will run the row: it is completed, or leased to the worker. -/
def HeldFor (workerId : String) (since : Rat) (row : TriggerRow) : Prop :=
  row.completedAt ≠ none ∨ LeasedTo workerId since row

variable {config : W → WorkerConfig}

variable {clock now : Rat} {task : TriggerTask W} {workerId : String} {row : TriggerRow}
  {queue t : TriggerQueue} {memberIds : List Nat} {triggerId : Nat}

theorem Fresh.earlier (hf : Fresh config u task) (hl : clock ≤ u) : Fresh config clock task :=
  fun worker => hl.trans (hf worker)

theorem LeasedTo.not_lockFree (hls : LeasedTo workerId task.renewedAt row)
    (hf : Fresh config clock task) (hn : now ≤ clock) (worker : W) :
    lockFree (config worker) now row = false := by
  obtain ⟨lockedAt, hl, hs⟩ := hls.stamped
  have hle := hf worker
  simp only [lockFree, hls.holder, hl, any_some, Bool.or_eq_false_iff,
    decide_eq_false_iff_not, not_lt]
  exact ⟨rfl, by linarith⟩

def Held (config : W → WorkerConfig) (queue : TriggerQueue) (task : TriggerTask W) : Prop :=
  ∃ row, queue.get task.triggerId = some row ∧
    HeldFor (config task.worker).workerId task.renewedAt row

theorem Held.step (hh : Held config queue task) (hk : ∀ {id row}, queue.get id = some row →
      ∃ row', t.get id = some row' ∧ RowKept row row')
    (hl : ∀ row, queue.get task.triggerId = some row → row.completedAt = none →
      LeasedTo (config task.worker).workerId task.renewedAt row →
        ∃ row', t.get task.triggerId = some row' ∧
          HeldFor (config task.worker).workerId task.renewedAt row') : Held config t task := by
  obtain ⟨row, hr, hf⟩ := hh
  by_cases ho : row.completedAt = none
  · exact hl row hr ho (hf.resolve_left fun hd => hd ho)
  · obtain ⟨row', hr', hrw⟩ := hk hr
    exact ⟨row', hr', .inl (hrw.completed ho)⟩

theorem Held.same (hh : Held config queue task)
    (hs : ∀ id row, queue.get id = some row → t.get id = some row) :
    Held config t task := by
  obtain ⟨row, hr, hf⟩ := hh
  exact ⟨row, hs _ row hr, hf⟩

theorem get_updateWhere_of_false
    {change : Nat → TriggerRow → TriggerRow} {id : Nat} (hr : queue.get id = some row)
    (hf : condition id row = false) :
    (queue.updateWhere condition change).get id = some row := by
  rw [get_updateWhere, hr, map_some, Table.changed, if_neg]
  rw [hf]
  exact Bool.false_ne_true

theorem isMember_eq_false {id : Nat} (hl : LeasedTo workerId since row) :
    isMember memberIds triggerId id row = false := by
  simp [isMember, hl.single]

variable [DecidableEq W]

/-- While `think()` runs its heartbeat executes at least once per timeout. -/
def HeartbeatsOnTime (config : W → WorkerConfig) (system : WorkerSystem W) : WorkerAction W → Prop
  | .wait seconds => ∀ taskId task, system.tasks.get taskId = some task → task.phase = .running →
      ∀ worker, system.clock + seconds ≤ task.beatAt + (config worker).triggerLockTimeoutS
  | _ => True

/-- A task starts `think()` before its lease lapses and beats for the first time
before it lapses; and a task whose lease has lapsed gives its row back only when its
worker has no other task for the row. -/
def KeepsLeases (config : W → WorkerConfig) (system : WorkerSystem W) : WorkerAction W → Prop
  | .wait seconds => ∀ taskId task, system.tasks.get taskId = some task → task.phase = .running →
      task.renewedAt < task.beatAt → Fresh config (system.clock + seconds) task
  | .think taskId => ∀ task, system.tasks.get taskId = some task → Fresh config system.clock task
  | .deferBudget taskId _ | .fail taskId _ => ∀ task, system.tasks.get taskId = some task →
      Fresh config system.clock task ∨ ∀ otherId other, otherId ≠ taskId →
        system.tasks.get otherId = some other → other.worker = task.worker →
          other.triggerId ≠ task.triggerId
  | _ => True

variable {system next : WorkerSystem W}

structure LeaseInvariant (config : W → WorkerConfig) (system : WorkerSystem W) : Prop where
  times : ∀ {taskId task}, system.tasks.get taskId = some task →
    task.renewedAt ≤ task.beatAt ∧ task.renewedAt ≤ system.clock
  running : ∀ {taskId task}, system.tasks.get taskId = some task → task.phase = .running →
    Fresh config system.clock task
  held : ∀ {taskId task}, system.tasks.get taskId = some task → Fresh config system.clock task →
    Held config system.db.triggers task
  single : ∀ {taskId otherId task other}, system.tasks.get taskId = some task →
    system.tasks.get otherId = some other → task.triggerId = other.triggerId →
    Fresh config system.clock task → Fresh config system.clock other → taskId = otherId

theorem LeaseInvariant.exclusiveRuns (hi : LeaseInvariant config system) :
    ExclusiveRuns system.tasks :=
  fun _ _ _ _ ht ho hr hr' htr => hi.single ht ho htr (hi.running ht hr) (hi.running ho hr')

/-- A step that lets the clock stand, only drops tasks and spares the rows of the
rest. -/
theorem LeaseInvariant.drop (hi : LeaseInvariant config system) (hc : next.clock = system.clock)
    (hts : ∀ {taskId task}, next.tasks.get taskId = some task → system.tasks.get taskId = some task)
    (hh : ∀ {taskId task}, next.tasks.get taskId = some task →
      Fresh config system.clock task → Held config system.db.triggers task →
        Held config next.db.triggers task) : LeaseInvariant config next where
  times := by
    intro taskId task ht
    rw [hc]
    exact hi.times (hts ht)
  running := by
    intro taskId task ht hr
    rw [hc]
    exact hi.running (hts ht) hr
  held := by
    intro taskId task ht hf
    rw [hc] at hf
    exact hh ht hf (hi.held (hts ht) hf)
  single := by
    intro taskId otherId task other ht ho htr hf hf'
    rw [hc] at hf hf'
    exact hi.single (hts ht) (hts ho) htr hf hf'

/-- The task may give its row back: its lease stands, or its worker has no other task
for the row. -/
def MayGiveBack (config : W → WorkerConfig) (system : WorkerSystem W) (taskId : Nat)
    (task : TriggerTask W) : Prop :=
  Fresh config system.clock task ∨ ∀ otherId other, otherId ≠ taskId →
    system.tasks.get otherId = some other → other.worker = task.worker →
      other.triggerId ≠ task.triggerId

variable {taskId otherId : Nat} {task other : TriggerTask W} {action : WorkerAction W}

section

variable (hi : LeaseInvariant config system)
  (hid : Function.Injective fun worker => (config worker).workerId)
  (ht : system.tasks.get taskId = some task)

include hi hid ht

section

variable (ho : system.tasks.get otherId = some other) (hn : otherId ≠ taskId)
  (hf : Fresh config system.clock other)

include ho hn hf

theorem LeaseInvariant.ne_of_giveBack (hm : MayGiveBack config system taskId task)
    (hl : LeasedTo (config other.worker).workerId since row) (hh : row.lockedBy =
    some (config task.worker).workerId) : other.triggerId ≠ task.triggerId := by
  intro htr
  have hw : other.worker = task.worker := hid (Option.some.inj (hl.holder.symm.trans hh))
  rcases hm with hsd | hs
  · exact hn (hi.single ho ht htr hf hsd)
  · exact hs otherId other hn ho hw htr

theorem held_failureMarked (hh : Held config system.db.triggers other) {failure : TriggerFailure}
    {db : ThinkDb} (hmy : failure.forceTerminal ∨ MayGiveBack config system taskId task)
    (hm : FailureMarked (config task.worker) now task.triggerId failure system.db db) :
    Held config db.triggers other := by
  refine hh.step (rowsKept_failureMarked hm).kept fun row hr hop hl => ?_
  cases hm with
  | lost => exact ⟨row, hr, .inr hl⟩
  | @retried failed hfl _ hhd hrt =>
    refine ⟨row, get_updateWhere_of_false hr ?_, .inr hl⟩
    rw [beq_eq_false_iff_ne]
    rcases hmy with hfr | hmy
    · simp [isTerminal, hfr] at hrt
    · intro htrg
      rw [htrg, hfl] at hr
      cases hr
      exact hi.ne_of_giveBack hid ht ho hn hf hmy hl hhd htrg
  | @deadLettered failed _ hfl _ hhd hte htr hrv =>
    rw [htr]
    by_cases htrg : other.triggerId = task.triggerId
    · have hd : (system.db.triggers.update task.triggerId
          (TriggerRow.deadLettered now failure)).get other.triggerId =
            some (row.deadLettered now failure) := by
        rw [get_update, if_pos htrg, hr, map_some]
      refine ⟨_, get_updateWhere_of_false hd ?_, .inl (some_ne_none now)⟩
      simp [isMember, TriggerRow.deadLettered, TriggerRow.completed]
    · have hs : (system.db.triggers.update task.triggerId
          (TriggerRow.deadLettered now failure)).get other.triggerId = some row := by
        rw [get_update, if_neg htrg, hr]
      exact ⟨row, get_updateWhere_of_false hs (isMember_eq_false hl), .inr hl⟩

end

end

omit [DecidableEq W] in
theorem held_completed (hh : Held config queue other) :
    Held config (completeMembers now memberIds triggerId
      (completeTrigger workerId now triggerId queue)) other := by
  refine hh.step ((rowsKept_completeTrigger _ _ _ _).trans (rowsKept_completeMembers _ _ _ _)).kept
    fun row hr ho hl => ?_
  cases hm : (other.triggerId == triggerId && row.lockedBy == some workerId) with
  | false =>
    have hs : (completeTrigger workerId now triggerId queue).get other.triggerId = some row :=
      get_updateWhere_of_false hr hm
    exact ⟨row, get_updateWhere_of_false hs (isMember_eq_false hl), .inr hl⟩
  | true =>
    have hd : (completeTrigger workerId now triggerId queue).get other.triggerId =
        some { row.completed now with lastError := none } := by
      unfold completeTrigger
      rw [get_updateWhere, hr, map_some, Table.changed, if_pos hm]
    refine ⟨_, get_updateWhere_of_false hd ?_, .inl (some_ne_none now)⟩
    simp [isMember, TriggerRow.completed]

omit [DecidableEq W] in
theorem held_completeMembers (hh : Held config queue other) :
    Held config (completeMembers now memberIds triggerId queue) other :=
  hh.step (rowsKept_completeMembers _ _ _ _).kept fun row hr _ hl =>
    ⟨row, get_updateWhere_of_false hr (isMember_eq_false hl), .inr hl⟩

theorem mayGiveBack_of_marks (hi : LeaseInvariant config system)
    (hk : KeepsLeases config system action) (ha : action.task? = some taskId)
    (ht : system.tasks.get taskId = some task) {failure : TriggerFailure}
    (hm : MarksFailure config task action now failure) :
    failure.forceTerminal ∨ MayGiveBack config system taskId task := by
  cases hm with
  | rejected hp => exact .inl rfl
  | raised hp => exact .inr (.inl (hi.running ht hp))
  | failed hp =>
    cases ha
    exact .inr (hk task ht)

/-- A task that has beaten or returned, or a completion that goes on: the other tasks
are untouched, and their rows too. -/
theorem LeaseInvariant.put (hi : LeaseInvariant config system)
    (ht : system.tasks.get taskId = some task)
    (hn : next.clock = system.clock ∧ next.tasks = system.tasks.put taskId task')
    (htr : task'.triggerId = task.triggerId)
    (htm : task'.renewedAt ≤ task'.beatAt ∧ task'.renewedAt ≤ system.clock)
    (hfr : Fresh config system.clock task' → Fresh config system.clock task)
    (hr : task'.phase = .running → Fresh config system.clock task')
    (hh : Fresh config system.clock task' → Held config next.db.triggers task')
    (hothers : ∀ {otherId other}, otherId ≠ taskId → system.tasks.get otherId = some other →
      Fresh config system.clock other → Held config system.db.triggers other →
        Held config next.db.triggers other) : LeaseInvariant config next := by
  obtain ⟨hcl, hts⟩ := hn
  have hc : ∀ {id found}, next.tasks.get id = some found →
      id = taskId ∧ found = task' ∨ id ≠ taskId ∧ system.tasks.get id = some found := by
    intro id found hf
    rw [hts, get_put] at hf
    split at hf
    · next hid => exact .inl ⟨hid, (Option.some.inj hf).symm⟩
    · next hid => exact .inr ⟨hid, hf⟩
  refine ⟨fun hf => ?_, fun hf => ?_, fun hf => ?_, fun h1 h2 => ?_⟩
  · rw [hcl]
    rcases hc hf with ⟨-, rfl⟩ | ⟨-, ho⟩
    · exact htm
    · exact hi.times ho
  · rw [hcl]
    rcases hc hf with ⟨-, rfl⟩ | ⟨-, ho⟩
    · exact hr
    · exact hi.running ho
  · rw [hcl]
    rcases hc hf with ⟨-, rfl⟩ | ⟨hne, ho⟩
    · exact hh
    · exact fun hfn => hothers hne ho hfn (hi.held ho hfn)
  · rw [hcl]
    intro hs hfre hfrs
    rcases hc h1 with ⟨rfl, rfl⟩ | ⟨-, ho⟩ <;> rcases hc h2 with ⟨rfl, rfl⟩ | ⟨-, ho'⟩
    · rfl
    · exact hi.single ht ho' (htr ▸ hs) (hfr hfre) hfrs
    · exact hi.single ho ht (htr ▸ hs) hfre (hfr hfrs)
    · exact hi.single ho ho' hs hfre hfrs

omit [DecidableEq W] in
theorem held_heartbeat (hh : Held config queue task) (now : Rat) :
    Held config (heartbeatTrigger (config task.worker).workerId now task.triggerId queue)
      { task with renewedAt := now, beatAt := now } := by
  obtain ⟨row, hr, hf⟩ := hh
  unfold heartbeatTrigger
  rcases hf with hd | hl
  · refine ⟨row, get_updateWhere_of_false hr ?_, .inl hd⟩
    simp [hd]
  · by_cases ho : row.completedAt = none
    · refine ⟨{ row with lockedAt := some now }, ?_,
        .inr ⟨hl.holder, ⟨now, rfl, le_refl now⟩, hl.single⟩⟩
      rw [get_updateWhere, hr, map_some, Table.changed, if_pos]
      simp [ho, hl.holder]
    · refine ⟨row, get_updateWhere_of_false hr ?_, .inl ho⟩
      simp [ho]

theorem leaseInvariant_taskMove (hi : LeaseInvariant config system)
    (hid : Function.Injective fun worker => (config worker).workerId)
    (hkp : KeepsLeases config system action) (ha : action.task? = some taskId)
    (htk : system.tasks.get taskId = some task)
    (hmv : TaskMove config system taskId task action next) : LeaseInvariant config next := by
  have hrm : ∀ {id found}, (system.tasks.remove taskId).get id = some found →
      id ≠ taskId ∧ system.tasks.get id = some found := by
    intro id found hf
    rw [get_remove] at hf
    exact ite_none_left_eq_some.mp hf
  have hk := rowsKept_taskMove hmv
  have htm := hi.times htk
  have hhl : Fresh config system.clock task → Held config system.db.triggers task :=
    hi.held htk
  cases hmv with
  | failed hmk hfre hm =>
    refine hi.drop rfl (fun hg => (hrm hg).2) fun hg hfr hh => ?_
    obtain ⟨hne, ho⟩ := hrm hg
    exact held_failureMarked hi hid htk ho hne hfr hh (mayGiveBack_of_marks hi hkp ha htk hmk) hm
  | deferred hp =>
    refine hi.drop rfl (fun hg => (hrm hg).2) fun hg hfr hh => ?_
    obtain ⟨hne, ho⟩ := hrm hg
    refine hh.step hk.kept fun row hr _ hls => ⟨row, get_updateWhere_of_false hr ?_, .inr hls⟩
    rw [Bool.and_eq_false_iff, beq_eq_false_iff_ne, beq_eq_false_iff_ne, or_iff_not_imp_right,
      ne_eq, not_not]
    exact hi.ne_of_giveBack hid htk ho hne hfr (hkp task htk) hls
  | thinking hp =>
    exact hi.put htk ⟨rfl, rfl⟩ rfl ⟨htm.2, htm.2⟩ (fun hfr => hfr)
      (fun _ => hkp task htk) (fun hfr => hhl hfr) fun _ _ _ hh => hh
  | @beat now hp hl hn =>
    have hfr := hi.running htk hp
    refine hi.put htk ⟨rfl, rfl⟩ rfl ⟨le_refl now, hn⟩ (fun _ => hfr)
      (fun _ worker => ?_) (fun _ => held_heartbeat (hhl hfr) now) ?_
    · have hs := hfr worker
      linarith
    · intro otherId other hne ho hothers hh
      refine hh.step hk.kept fun row hr _ hls => ⟨row, get_updateWhere_of_false hr ?_, .inr hls⟩
      have htr : other.triggerId ≠ task.triggerId := fun htr =>
        hne (hi.single ho htk htr hothers hfr)
      simp [htr]
  | returned hp =>
    exact hi.put htk ⟨rfl, rfl⟩ rfl htm (fun hfr => hfr)
      nofun (fun hfr => hhl hfr) fun _ _ _ hh => hh
  | unmatched hp hlo =>
    exact hi.put htk ⟨rfl, rfl⟩ rfl htm (fun hfr => hfr)
      nofun (fun hfr => hhl hfr) fun _ _ _ hh => hh
  | completed hp hh hfre ht =>
    refine hi.drop rfl (fun hg => (hrm hg).2) fun hg hfr hh => ?_
    rw [WorkerSystem.marked, (completeRest_eq_some ht).1]
    exact held_completed hh
  | rest hp hfre ht =>
    refine hi.drop rfl (fun hg => (hrm hg).2) fun hg hfr hh => ?_
    rw [WorkerSystem.marked, (completeRest_eq_some ht).1]
    exact held_completeMembers hh
  | abandoned =>
    exact hi.drop rfl (fun hg => (hrm hg).2) fun _ _ hh => hh

variable {worker : W}

omit [DecidableEq W] in
theorem held_polled (hpl : Polled (config worker) env queue t leased batched batches)
    (hnw : env.now ≤ clock) (hf : Fresh config clock task) (hh : Held config queue task) :
    Held config t task ∧ task.triggerId ∉ leased.map Prod.fst := by
  have hp : Held config (pruneLowValueDownstreamRows (config worker) env queue) task := by
    refine hh.step rowsKept_prune.kept fun row hr _ hl => ?_
    obtain ⟨note, ha⟩ := get_pruneLowValueDownstreamRows (config worker) env hr
    refine ⟨_, ha, ?_⟩
    split
    · exact .inl (some_ne_none env.now)
    · exact .inr hl
  have hba : Held config batched task := by
    refine hpl.made.invariant (P := fun queue => Held config queue task) hp ?_
    intro before t batchId memberIds parent hb hi
    refine hb.step (rowsKept_batchInserted hi).kept fun row hr _ hl =>
      ⟨row, hi.row_same hr fun hbt => ?_, .inr hl⟩
    rw [Batchable, hl.not_lockFree hf hnw worker] at hbt
    cases hbt.1
  have hn : task.triggerId ∉ leased.map Prod.fst := by
    intro hm
    obtain ⟨record, hrc, ht⟩ := List.mem_map.mp hm
    rcases hpl.rows record hrc with hbtc | ⟨hg, hpo⟩
    · obtain ⟨row, hr, -⟩ := hp
      rw [← ht, fresh_of_mem_batches hpl.made hbtc] at hr
      cases hr
    · obtain ⟨row, hr, hfo⟩ := hba
      obtain ⟨ho, -, hfr⟩ := lockFree_of_pollable hpo
      rw [← ht, hg] at hr
      cases hr
      rcases hfo with hd | hl
      · exact hd ho
      · rw [hl.not_lockFree hf hnw worker] at hfr
        cases hfr
  refine ⟨?_, hn⟩
  obtain ⟨row, hr, hfo⟩ := hba
  refine ⟨row, ?_, hfo⟩
  rw [hpl.leases, get_leaseTriggers, hr, map_some, if_neg hn]

theorem leaseInvariant_polled (hi : LeaseInvariant config system) (hnw : env.now ≤ system.clock)
    (hpl : Polled (config worker) env system.db.triggers t leased batched batches)
    (hts : dispatchTasks worker env.now leased firstTask system.tasks = some tasks) :
    LeaseInvariant config { system.setTriggers t with tasks := tasks } := by
  have hc : ∀ {id found}, tasks.get id = some found → system.tasks.get id = some found ∨
      system.tasks.get id = none ∧ ∃ record ∈ leased,
        found = ⟨worker, record.1, record.2, .waiting, env.now, env.now⟩ := by
    intro id found hf
    cases ho : system.tasks.get id with
    | some old =>
      have hk := get_dispatchTasks_of_some hts ho
      rw [hf] at hk
      exact .inl hk.symm
    | none =>
      rcases get_dispatchTasks hts hf with hs | hne
      · rw [ho] at hs
        cases hs
      · exact .inr ⟨rfl, hne⟩
  -- What an older task holds is not among the leased rows.
  have ha : ∀ {id found}, system.tasks.get id = some found →
      Fresh config system.clock found → ∀ record ∈ leased, found.triggerId ≠ record.1 := by
    intro id found hf hfr record hr ht
    have hothers := (held_polled hpl hnw hfr (hi.held hf hfr)).2
    exact hothers (ht ▸ List.mem_map_of_mem hr)
  refine ⟨fun hf => ?_, fun hf => ?_, fun hf hfr => ?_, fun h1 h2 => ?_⟩
  · rcases hc hf with ho | ⟨-, record, hr, rfl⟩
    · exact hi.times ho
    · exact ⟨le_refl _, hnw⟩
  · rcases hc hf with ho | ⟨-, record, hr, rfl⟩
    · exact hi.running ho
    · exact nofun
  · rcases hc hf with ho | ⟨-, record, hr, rfl⟩
    · exact (held_polled hpl hnw hfr (hi.held ho hfr)).1
    · refine ⟨_, hpl.get_leased hr, .inr ⟨rfl, ⟨env.now, rfl, le_refl _⟩, ?_⟩⟩
      rcases hpl.rows record hr with hb | ⟨-, hp⟩
      · obtain ⟨memberIds, hpr, -⟩ := hpl.made.get_batch hb
        exact hpr.single
      · exact (lockFree_of_pollable hp).2.1
  · intro ht hfr hf'
    rcases hc h1 with ho | ⟨hn, record, hr, rfl⟩ <;>
      rcases hc h2 with ho' | ⟨hn', record', hr', rfl⟩
    · exact hi.single ho ho' ht hfr hf'
    · exact absurd ht (ha ho hfr record' hr')
    · exact absurd ht.symm (ha ho' hf' record hr)
    · -- With a negative timeout the two would be stale already.
      have htm : 0 ≤ (config worker).triggerLockTimeoutS := by
        have hsd := hfr worker
        dsimp only [WorkerSystem.setTriggers] at hsd
        linarith
      exact dispatchTasks_distinct hts (hpl.nodup htm) hn hn' h1 h2 ht

section

variable (hin : LeaseInvariant config system)
  (hid : Function.Injective fun worker => (config worker).workerId)

include hin hid

theorem leaseInvariant_recovered (hi : inFlight system.tasks worker = 0) (hnw : now ≤
    system.clock) : LeaseInvariant config
    (system.setTriggers (recoverOrphanedTriggerLocks (config worker) now system.db.triggers)) := by
  refine hin.drop rfl id fun {taskId task} ht hf hh => ?_
  refine hh.step (rowsKept_recover _ _ _).kept
    fun row hr _ hls => ⟨row, get_updateWhere_of_false hr ?_, .inr hls⟩
  have ho : task.worker ≠ worker := by
    intro hw
    have hn := (count_eq_zero_iff _ _).mp hi taskId task ht
    simp [hw] at hn
  have hhd : row.lockedBy ≠ some (config worker).workerId := by
    intro hs
    exact ho (hid (Option.some.inj (hls.holder.symm.trans hs)))
  obtain ⟨lockedAt, hl, -⟩ := hls.stamped
  have hsd := hls.not_lockFree hf hnw worker
  rw [lockFree, Bool.or_eq_false_iff, hl] at hsd
  have hne : (row.lockedBy == some (config worker).workerId) = false := by
    rwa [beq_eq_false_iff_ne]
  simp [hne, hl, hsd.2]

theorem leaseInvariant_move (hb : HeartbeatsOnTime config system action)
    (hk : KeepsLeases config system action) (hm : WorkerMove config system action next) :
    LeaseInvariant config next := by
  cases hm with
  | @waited seconds hs =>
    have hp : ∀ {task : TriggerTask W}, Fresh config (system.clock + seconds) task →
        Fresh config system.clock task := fun hf => hf.earlier (by linarith)
    refine ⟨fun ht => ?_, fun ht hrn worker => ?_, fun ht hf => hin.held ht (hp hf),
      fun ht ho htr hf hf' =>
        hin.single ht ho htr (hp hf) (hp hf')⟩
    · obtain ⟨hbt, hc⟩ := hin.times ht
      exact ⟨hbt, hc.trans (by simpa using hs)⟩
    · rcases lt_or_eq_of_le (hin.times ht).1 with hl | heq
      · exact hk _ _ ht hrn hl worker
      · rw [heq]
        exact hb _ _ ht hrn worker
  | enqueued hpy hf =>
    refine hin.drop rfl id fun _ _ hh => hh.same fun id row hr => ?_
    rw [WorkerSystem.setTriggers, get_put_ne, hr]
    rintro rfl
    rw [hf] at hr
    cases hr
  | reevalEnqueued he => exact hin.drop rfl id fun _ _ hh => hh
  | promotion hm =>
    cases hm with
    | committed hg hins =>
      exact hin.drop rfl id fun _ _ hh => hh.same fun _ _ hr =>
        get_insertFresh_of_some hins hr
    | _ => exact hin.drop rfl id fun _ _ hh => hh
  | polled hn hpo hts =>
    rcases polled_of_pollAndDispatch hpo with ⟨-, rfl, rfl⟩ | ⟨-, batched, batches, hpl⟩
    · cases hts
      exact hin.drop rfl id fun _ _ hh => hh
    · exact leaseInvariant_polled hin hn hpl hts
  | recovered hi hn => exact leaseInvariant_recovered hin hid hi hn
  | crashed =>
    refine hin.drop rfl (fun ht => ?_) fun _ _ hh => hh
    rw [get_deleteWhere, filter_eq_some_iff] at ht
    exact ht.1
  | task ha ht hm =>
    exact leaseInvariant_taskMove hin hid hk ha ht hm

end

theorem leaseInvariant_fresh : LeaseInvariant config .fresh := by
  have hn : ∀ taskId task, (WorkerSystem.fresh : WorkerSystem W).tasks.get taskId ≠ some task := by
    intro taskId task ht
    cases ht
  exact ⟨fun ht => absurd ht (hn _ _), fun ht => absurd ht (hn _ _),
    fun ht => absurd ht (hn _ _), fun ht => absurd ht (hn _ _)⟩

/-- With distinct worker ids and heartbeats on time, no two tasks run `think()` for one
row, as long as every run starts and beats under a lease that stands. -/
theorem think_exclusive (config : W → WorkerConfig) (system : WorkerSystem W)
    (hids : Function.Injective fun worker => (config worker).workerId)
    (hreach : Reach (workerStep config) (fun system action =>
      HeartbeatsOnTime config system action ∧ KeepsLeases config system action) .fresh system) :
    ExclusiveRuns system.tasks := by
  have hinvariant : LeaseInvariant config system := by
    refine hreach.invariant leaseInvariant_fresh ?_
    rintro before action next hinvariant ⟨hbeats, hkeeps⟩ hstep
    exact leaseInvariant_move hinvariant hids hbeats hkeeps (workerMove_of_workerStep hstep)
  exact hinvariant.exclusiveRuns

theorem injective_thinkWorkers : Function.Injective fun worker => (thinkWorkers worker).workerId := by
  intro first second
  cases first <;> cases second <;> simp [thinkWorkers]

def TaskPhase.isRunning : TaskPhase → Bool
  | .running => true
  | _ => false

theorem TaskPhase.isRunning_iff {phase : TaskPhase} : phase.isRunning ↔ phase = .running := by
  cases phase <;> simp [TaskPhase.isRunning]

/-- After the wait some task in `think()` would be past its timeout from the mark. -/
def overdue (mark : TriggerTask Bool → Rat) (system : WorkerSystem Bool) (seconds : Rat) : Bool :=
  system.tasks.any fun _ task => task.phase.isRunning &&
    decide (mark task + 600 < system.clock + seconds)

theorem le_of_not_overdue {mark : TriggerTask Bool → Rat} {system : WorkerSystem Bool}
    {seconds : Rat} (hn : overdue mark system seconds = false) {task : TriggerTask Bool}
    (ht : system.tasks.get taskId = some task) (hr : task.phase = .running) (worker : Bool) :
    system.clock + seconds ≤ mark task + (thinkWorkers worker).triggerLockTimeoutS := by
  have htm : (thinkWorkers worker).triggerLockTimeoutS = 600 := by cases worker <;> rfl
  rw [htm]
  by_contra hl
  have ho : overdue mark system seconds := by
    refine (any_iff _ _).mpr ⟨taskId, task, ht, ?_⟩
    simp [TaskPhase.isRunning_iff.mpr hr, not_le.mp hl]
  rw [hn] at ho
  cases ho

def beatsInTime (system : WorkerSystem Bool) : WorkerAction Bool → Bool
  | .wait seconds => !overdue (·.beatAt) system seconds
  | _ => true

theorem heartbeatsOnTime_of_beatsInTime (system : WorkerSystem Bool) (action : WorkerAction Bool)
    (hb : beatsInTime system action) : HeartbeatsOnTime thinkWorkers system action := by
  cases action with
  | wait seconds =>
    intro taskId task ht hr worker
    exact le_of_not_overdue (by simpa [beatsInTime] using hb) ht hr worker
  | _ => trivial

def leasesInTime (system : WorkerSystem Bool) : WorkerAction Bool → Bool
  | .wait seconds => !overdue (·.beatAt) system seconds && !overdue (·.renewedAt) system seconds
  | .think taskId => (system.tasks.get taskId).all fun task =>
      decide (system.clock ≤ task.renewedAt + 600)
  | .deferBudget _ _ | .fail _ _ => false
  | _ => true

theorem allowed_of_leasesInTime (system : WorkerSystem Bool) (action : WorkerAction Bool)
    (hl : leasesInTime system action) :
    HeartbeatsOnTime thinkWorkers system action ∧ KeepsLeases thinkWorkers system action := by
  cases action with
  | wait seconds =>
    simp only [leasesInTime, Bool.and_eq_true, Bool.not_eq_true'] at hl
    exact ⟨fun _ _ ht hr => le_of_not_overdue hl.1 ht hr,
      fun _ _ ht hr _ => le_of_not_overdue hl.2 ht hr⟩
  | think taskId =>
    refine ⟨trivial, fun task ht worker => ?_⟩
    have htm : (thinkWorkers worker).triggerLockTimeoutS = 600 := by cases worker <;> rfl
    rw [htm]
    simpa [leasesInTime, ht] using hl
  | deferBudget | fail => cases hl
  | _ => exact ⟨trivial, trivial⟩

def runsTrigger (system : WorkerSystem Bool) (taskId triggerId : Nat) : Bool :=
  (system.tasks.get taskId).any fun task =>
    task.phase.isRunning && task.triggerId == triggerId

theorem runs_of_runsTrigger {system : WorkerSystem Bool}
    (hr : runsTrigger system taskId triggerId) : ∃ task,
      system.tasks.get taskId = some task ∧ task.phase = .running ∧ task.triggerId = triggerId := by
  obtain ⟨task, ht, hrn⟩ := (any_eq_true _ _).mp hr
  obtain ⟨hp, htr⟩ := Bool.and_eq_true_iff.mp hrn
  exact ⟨task, ht, TaskPhase.isRunning_iff.mp hp, beq_iff_eq.mp htr⟩

def reviewTrigger (triggerId : Nat) (now : Rat) : WorkerAction Bool :=
  .enqueue triggerId now 0 .t3 none none none {} none

/-- A long run that beats keeps the second worker's poll from its row. -/
theorem think_exclusive_renewed : ∃ system : WorkerSystem Bool,
    (runsTrigger system 0 1 && decide (system.clock = 700)) ∧ ExclusiveRuns system.tasks := by
  have hrun : ((runChecked (workerStep thinkWorkers) leasesInTime .fresh
      [reviewTrigger 1 0, .poll false (pollAt 0) 0, .wait 200, .think 0, .wait 300,
        .heartbeat 0 500, .wait 200, .poll true (pollAt 700) 10]).any fun system =>
          runsTrigger system 0 1 && decide (system.clock = 700)) := by decide +kernel
  obtain ⟨system, hsystem, htrue⟩ := (any_eq_true _ _).mp hrun
  exact ⟨system, htrue, think_exclusive thinkWorkers system injective_thinkWorkers
    (reach_of_runChecked allowed_of_leasesInTime hsystem)⟩

/-- The triggers are leased to the first worker at 1, and the third one waits for the
tenant's only slot. At 661 its lease has lapsed and the second worker thinks about it; at
701 the slot is free, and the first worker does too. -/
theorem stale_task_runs_too : Function.Injective (fun worker => (thinkWorkers worker).workerId) ∧
    ∃ system : WorkerSystem Bool,
      Reach (workerStep thinkWorkers) (HeartbeatsOnTime thinkWorkers) .fresh system ∧
        ¬ExclusiveRuns system.tasks := by
  have hrun : ((runChecked (workerStep thinkWorkers) beatsInTime .fresh
      [reviewTrigger 1 0, reviewTrigger 2 (1 / 2), reviewTrigger 3 1, .wait 1,
        .poll false (pollAt 1) 0, .think 0, .wait 300, .heartbeat 0 301, .wait 100,
        .returned 0 .succeeded, .complete 0 401, .think 1, .wait 30, .heartbeat 1 431, .wait 230,
        .poll true (pollAt 661) 10, .think 10, .wait 40, .returned 1 .succeeded,
        .complete 1 701, .think 2]).any fun system =>
          runsTrigger system 2 3 && runsTrigger system 10 3) := by decide +kernel
  obtain ⟨system, hsystem, htrue⟩ := (any_eq_true _ _).mp hrun
  obtain ⟨hfirst, hsecond⟩ := Bool.and_eq_true_iff.mp htrue
  obtain ⟨task, htask, hrunning, htrigger⟩ := runs_of_runsTrigger hfirst
  obtain ⟨other, hother, hotherRunning, hotherTrigger⟩ := runs_of_runsTrigger hsecond
  refine ⟨injective_thinkWorkers, system,
    reach_of_runChecked heartbeatsOnTime_of_beatsInTime hsystem, fun hexclusive => ?_⟩
  have hsame := hexclusive 2 10 task other htask hother hrunning hotherRunning
    (htrigger.trans hotherTrigger.symm)
  cases hsame

end FyralisCore.Think
