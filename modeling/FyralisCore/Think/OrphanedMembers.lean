import FyralisCore.Lib.Grouping
import FyralisCore.Think.RowsKept

/-! Batches and their members over whole runs of the workers. The rows are read as
items of the grouping library: a batch row is a group, its members are the rows
that point at it, and completed is closed. -/
namespace FyralisCore.Think

open Relational Transition Grouping Option Table

def NoOrphanedMembers (queue : TriggerQueue) : Prop :=
  ∀ id row batchId, queue.get id = some row → row.completedAt = none →
    row.batchParentId = some batchId →
      ∃ parent, queue.get batchId = some parent ∧ parent.completedAt = none

def TriggerRow.item (row : TriggerRow) : Item Nat where
  closed := row.completedAt.isSome
  parent := row.batchParentId
  isGroup := row.payload.batch && row.triggerSubkind != some .eventArrival
  members := row.payload.batchMemberTriggerIds

def batchItems (queue : TriggerQueue) (id : Nat) : Option (Item Nat) :=
  (queue.get id).map TriggerRow.item

variable {queue : TriggerQueue} {id triggerId : Nat} {row : TriggerRow}
  {condition : Nat → TriggerRow → Bool} {change : Nat → TriggerRow → TriggerRow}
  {memberIds : List Nat} {now : Rat}

theorem batchItems_eq_some :
    batchItems queue id = some item ↔ ∃ row, queue.get id = some row ∧ row.item = item :=
  map_eq_some_iff

theorem batchItems_of_get (hr : queue.get id = some row) : batchItems queue id = some row.item := by
  rw [batchItems, hr, map_some]

theorem noOrphanedMembers_iff : NoOrphanedMembers queue ↔ Covered (batchItems queue) := by
  constructor
  · intro hl id item batchId hi ho hpr
    obtain ⟨row, hr, rfl⟩ := batchItems_eq_some.mp hi
    obtain ⟨parent, hg, hp⟩ :=
      hl id row batchId hr (isSome_eq_false_iff.mp ho |> isNone_iff_eq_none.mp) hpr
    exact ⟨parent.item, batchItems_of_get hg, by simp [TriggerRow.item, hp]⟩
  · intro hc id row batchId hr ho hpr
    obtain ⟨item, hi, hp⟩ := hc id row.item batchId (batchItems_of_get hr)
      (by simp [TriggerRow.item, ho]) hpr
    obtain ⟨parent, hg, rfl⟩ := batchItems_eq_some.mp hi
    exact ⟨parent, hg, by simpa [TriggerRow.item] using hp⟩

/-! ### The statements as steps of the items -/

/-- The row keeps its batch data, may leave its batch and may be completed. -/
structure BatchDataKept (row row' : TriggerRow) : Prop where
  isGroup : row'.item.isGroup = row.item.isGroup
  members : row'.item.members = row.item.members
  parent : row'.batchParentId = row.batchParentId ∨ row'.batchParentId = none
  completed : row.item.closed → row'.item.closed

theorem progress_updateWhere
    (hch : ∀ id row, condition id row → BatchDataKept row (change id row)) :
    Progress (batchItems queue) (batchItems (queue.updateWhere condition change)) where
  kept := by
    intro id item hi
    obtain ⟨row, hr, rfl⟩ := batchItems_eq_some.mp hi
    refine ⟨(Table.changed condition change id row).item, ?_, ?_⟩
    · rw [batchItems, get_updateWhere, hr]
      rfl
    · unfold Table.changed
      split
      · next ht =>
        obtain ⟨hg, hm, hp, hc⟩ := hch id row ht
        exact ⟨hg, hm, hp, hc⟩
      · exact ⟨rfl, rfl, .inl rfl, fun h => h⟩
  back := by
    intro id item' hi'
    rw [batchItems, get_updateWhere] at hi'
    cases hr : queue.get id with
    | none =>
      rw [hr] at hi'
      cases hi'
    | some row => exact ⟨row.item, batchItems_of_get hr⟩

theorem batchItems_updateWhere (hr : queue.get id = some row) :
    batchItems (queue.updateWhere condition change) id =
      some (if condition id row then change id row else row).item := by
  rw [batchItems, get_updateWhere, hr]
  rfl

theorem batchItems_updateWhere_same
    (hc : ∀ id row, condition id row → (change id row).item = row.item) :
    batchItems (queue.updateWhere condition change) = batchItems queue := by
  funext id
  cases hr : queue.get id with
  | none => simp [batchItems, get_updateWhere, hr]
  | some row =>
    rw [batchItems_updateWhere hr, batchItems_of_get hr]
    split
    · next ht => rw [hc id row ht]
    · rfl

/-- What the workers keep up between batches and members. -/
structure BatchesOk (queue : TriggerQueue) : Prop where
  listed : Listed (batchItems queue)
  covered : Covered (batchItems queue)

theorem batchesOk_of_same (ho : BatchesOk queue)
    (hs : batchItems after = batchItems queue) : BatchesOk after := by
  refine ⟨?_, ?_⟩
  · rw [hs]
    exact ho.listed
  · rw [hs]
    exact ho.covered

theorem BatchesOk.progress (ho : BatchesOk queue)
    (hp : Progress (batchItems queue) (batchItems after))
    (hc : ClosesWithMembers (batchItems queue) (batchItems after)) : BatchesOk after :=
  ⟨ho.listed.progress hp, ho.covered.progress ho.listed hp hc⟩

theorem BatchesOk.put (ho : BatchesOk queue) (hf : queue.get id = none)
    (hs : row.batchParentId = none) : BatchesOk (queue.put id row) := by
  have ha : Added (batchItems queue) (batchItems (queue.put id row)) id := by
    refine ⟨by rw [batchItems, hf, map_none], fun item hi => ?_, fun other hn => ?_⟩
    · rw [batchItems_of_get (get_put_self queue id row)] at hi
      cases hi
      exact hs
    · rw [batchItems, get_put_ne queue row hn]
      rfl
  exact ⟨ho.listed.added ha, ho.covered.added ha⟩

/-! ### Completing, dead-lettering and releasing -/

/-- The second statement reaches members only, and closes or frees each. -/
structure ReachesMembers (memberIds : List Nat) (triggerId : Nat)
    (change : Nat → TriggerRow → TriggerRow) : Prop where
  kept : ∀ id row, isMember memberIds triggerId id row → BatchDataKept row (change id row)
  left : ∀ id row, (change id row).completedAt ≠ none ∨ (change id row).batchParentId = none

theorem isMember_iff : isMember memberIds triggerId id row ↔
      id ∈ memberIds ∧ row.batchParentId = some triggerId ∧ row.completedAt = none := by
  simp [isMember, and_assoc]

theorem BatchesOk.members (hok : BatchesOk queue)
    (hch : ReachesMembers memberIds triggerId change) :
    BatchesOk (queue.updateWhere (isMember memberIds triggerId) change) := by
  refine hok.progress (progress_updateWhere hch.kept) ?_
  intro group e entry' he he' ho hc
  obtain ⟨row, hr, rfl⟩ := batchItems_eq_some.mp he
  rw [batchItems_updateWhere hr] at he'
  cases he'
  split at hc
  · next hm =>
    refine .inl ?_
    rw [show row.item.parent = some triggerId from (isMember_iff.mp hm).2.1]
    exact some_ne_none triggerId
  · rw [ho] at hc
    cases hc

theorem BatchesOk.close (hok : BatchesOk queue) {close : Nat → TriggerRow → TriggerRow}
    (hon : ∀ id row, condition id row → id = triggerId)
    (hc : ∀ id row, condition id row → BatchDataKept row (close id row))
    (hch : ReachesMembers memberIds triggerId change)
    (hmbr : ∀ row, queue.get triggerId = some row → row.payload.batchMemberTriggerIds = memberIds) :
    BatchesOk ((queue.updateWhere condition close).updateWhere (isMember memberIds triggerId) change) := by
  have ha : ∀ id row, queue.get id = some row → id ≠ triggerId →
      batchItems ((queue.updateWhere condition close).updateWhere (isMember memberIds triggerId)
        change) id =
      some (if isMember memberIds triggerId id row then change id row else row).item := by
    intro id row hr hn
    have h1 : (queue.updateWhere condition close).get id = some row := by
      rw [get_updateWhere, hr, map_some, Table.changed, if_neg fun ht => hn (hon id row ht)]
    exact batchItems_updateWhere h1
  refine hok.progress ((progress_updateWhere hc).trans (progress_updateWhere hch.kept)) ?_
  intro group e entry' he he' ho hcl
  by_cases hgrp : group = triggerId
  · refine .inr fun id item item' hi hi' hp => ?_
    -- Each member stands on the list, so the second statement reaches it.
    subst hgrp
    obtain ⟨listed, hg, his, hm⟩ := hok.listed.member hi hp
    cases he.symm.trans hg
    obtain ⟨groupRow, hgro, hgr⟩ := batchItems_eq_some.mp he
    rw [← hgr, show groupRow.item.members = memberIds from hmbr groupRow hgro] at hm
    obtain ⟨row, hr, rfl⟩ := batchItems_eq_some.mp hi
    have hn : id ≠ group := by
      rintro rfl
      cases he.symm.trans hi
      rw [hok.listed.single he his] at hp
      cases hp
    rw [ha id row hr hn] at hi'
    cases hi'
    cases hcp : row.completedAt with
    | none =>
      rw [if_pos (isMember_iff.mpr ⟨hm, hp, hcp⟩)]
      rcases hch.left id row with hd | hf
      · exact .inl (isSome_iff_ne_none.mpr hd)
      · exact .inr hf
    | some now =>
      rw [if_neg fun hmb => by simp [(isMember_iff.mp hmb).2.2] at hcp]
      exact .inl (by simp [TriggerRow.item, hcp])
  · refine .inl ?_
    obtain ⟨row, hr, rfl⟩ := batchItems_eq_some.mp he
    rw [ha group row hr hgrp] at he'
    cases he'
    split at hcl
    · next hmb =>
      rw [show row.item.parent = some triggerId from (isMember_iff.mp hmb).2.1]
      exact some_ne_none triggerId
    · rw [ho] at hcl
      cases hcl

theorem reachesMembers_completed (now : Rat) (memberIds : List Nat) (triggerId : Nat) :
    ReachesMembers memberIds triggerId fun _ row => { row.completed now with lastError := none } :=
  ⟨fun _ _ _ => ⟨rfl, rfl, .inl rfl, fun _ => rfl⟩, fun _ _ => .inl (some_ne_none now)⟩

theorem BatchesOk.complete (ho : BatchesOk queue) (hm : ∀ row, queue.get triggerId = some row →
      row.payload.batchMemberTriggerIds = memberIds) : BatchesOk
      (completeMembers now memberIds triggerId (completeTrigger workerId now triggerId queue)) := by
  refine ho.close (fun id row ht => ?_) (fun _ _ _ => ⟨rfl, rfl, .inl rfl, fun _ => rfl⟩)
    (reachesMembers_completed now memberIds triggerId) hm
  simp only [Bool.and_eq_true, beq_iff_eq] at ht
  exact ht.1

theorem BatchesOk.deadLetter (ho : BatchesOk queue) {failure : TriggerFailure}
    (hm : ∀ row, queue.get triggerId = some row → row.payload.batchMemberTriggerIds = memberIds) :
    BatchesOk (releaseMembers now memberIds triggerId
      (queue.update triggerId (TriggerRow.deadLettered now failure))) := by
  refine ho.close (fun id row ht => beq_iff_eq.mp ht)
    (fun _ _ _ => ⟨rfl, rfl, .inl rfl, fun _ => rfl⟩) ⟨fun _ _ _ => ?_, fun _ _ => .inr rfl⟩ hm
  exact ⟨rfl, rfl, .inr rfl, fun hc => hc⟩

theorem item_retried (config : WorkerConfig) (now : Rat) (failure : TriggerFailure)
    (row : TriggerRow) : (row.retried config now failure).item = row.item := by
  unfold TriggerRow.retried
  split <;> rfl

theorem BatchesOk.failureMarked {config : WorkerConfig} {failure : TriggerFailure}
    {db : ThinkDb} (hok : BatchesOk db.triggers)
    (hm : FailureMarked config now triggerId failure db after) : BatchesOk after.triggers := by
  cases hm with
  | lost => exact hok
  | retried =>
    exact batchesOk_of_same hok
      (batchItems_updateWhere_same fun _ row _ => item_retried config now failure row)
  | deadLettered hr ho hh ht htr hrv =>
    rw [htr]
    refine hok.deadLetter fun row hs => ?_
    cases hr.symm.trans hs
    rfl

def SparesBatches (config : WorkerConfig) (env : PollEnv) (queue : TriggerQueue) : Prop :=
  ∀ batchId parent, queue.get batchId = some parent → isPruned config env batchId parent →
    ∀ id member, queue.get id = some member → member.batchParentId = some batchId →
      member.completedAt ≠ none

variable {config : WorkerConfig} {env : PollEnv} {queue after : TriggerQueue}

theorem batchItems_prune (hr : queue.get id = some row) :
    batchItems (pruneLowValueDownstreamRows config env queue) id =
      some (if isPruned config env id row then { row.item with closed := true } else row.item) := by
  obtain ⟨note, ha⟩ := get_pruneLowValueDownstreamRows config env hr
  rw [batchItems_of_get ha]
  split <;> rfl

theorem BatchesOk.prune (hok : BatchesOk queue) (hs : SparesBatches config env queue) :
    BatchesOk (pruneLowValueDownstreamRows config env queue) := by
  refine hok.progress ⟨?_, ?_⟩ ?_
  · intro id item hi
    obtain ⟨row, hr, rfl⟩ := batchItems_eq_some.mp hi
    refine ⟨_, batchItems_prune hr, ?_⟩
    split
    · exact ⟨rfl, rfl, .inl rfl, fun _ => rfl⟩
    · exact ⟨rfl, rfl, .inl rfl, fun hc => hc⟩
  · intro id item' hi'
    obtain ⟨row', hr', -⟩ := batchItems_eq_some.mp hi'
    cases hr : queue.get id with
    | none =>
      rw [get_prune_eq_none_iff.mpr hr] at hr'
      cases hr'
    | some row => exact ⟨row.item, batchItems_of_get hr⟩
  · intro batchId e entry' he he' ho hc
    obtain ⟨parent, hpr, rfl⟩ := batchItems_eq_some.mp he
    rw [batchItems_prune hpr] at he'
    cases he'
    split at hc
    · next hp =>
      -- A pruned batch row has completed members only.
      refine .inr fun id item item' hi hi' hm => .inl ?_
      obtain ⟨member, hg, rfl⟩ := batchItems_eq_some.mp hi
      rw [batchItems_prune hg] at hi'
      cases hi'
      split
      · rfl
      · exact isSome_iff_ne_none.mpr (hs batchId parent hpr hp id member hg hm)
    · rw [ho] at hc
      cases hc

theorem grouped_of_batchInserted
    (hin : BatchInserted config now queue after batchId memberIds parent) :
    Grouped (batchItems queue) (batchItems after) batchId parent.item where
  fresh := by rw [batchItems, hin.fresh, map_none]
  get_group := batchItems_of_get hin.get_batch
  isGroup := by simp [TriggerRow.item, hin.parentOf.batch, hin.parentOf.subkind]
  opened := by simp [TriggerRow.item, hin.parentOf.open_]
  single := hin.parentOf.single
  plain := by
    intro id hm item hi
    obtain ⟨row, hr, rfl⟩ := batchItems_eq_some.mp hi
    obtain ⟨listed, hls, -, hp⟩ := hin.batchable id (hin.parentOf.members ▸ hm)
    cases hr.symm.trans hls
    rcases hp with hb | hs
    · simp [TriggerRow.item, hb]
    · simp [TriggerRow.item, hs]
  other := by
    intro id item hi
    obtain ⟨row, hr, rfl⟩ := batchItems_eq_some.mp hi
    have ha := hin.get_other id row hr
    split at ha
    · next hf =>
      have hl : parent.item.members = memberIds := hin.parentOf.members
      exact .inr ⟨hl ▸ hf.1, hf.2.2, batchItems_of_get ha⟩
    · exact .inl (batchItems_of_get ha)
  back := by
    intro id item' hn hi'
    obtain ⟨row', hr', -⟩ := batchItems_eq_some.mp hi'
    cases hr : queue.get id with
    | none =>
      rw [hin.get_none id hn hr] at hr'
      cases hr'
    | some row => exact ⟨row.item, batchItems_of_get hr⟩

theorem batchItems_lease (workerId : String) (now : Rat) (ids : List Nat) (queue : TriggerQueue) :
    batchItems (leaseTriggers workerId now ids queue) = batchItems queue :=
  batchItems_updateWhere_same fun _ _ _ => rfl

theorem BatchesOk.polled (ho : BatchesOk queue)
    (hp : Polled config env queue after leased batched batches)
    (hs : SparesBatches config env queue) : BatchesOk after := by
  have hbt : BatchesOk batched := by
    refine hp.made.invariant (ho.prune hs) fun _ _ _ _ _ hb hi => ?_
    have hg := grouped_of_batchInserted hi
    exact ⟨hb.listed.grouped hg, hb.covered.grouped hg⟩
  rw [hp.leases]
  exact batchesOk_of_same hbt (batchItems_lease _ _ _ _)

theorem sparesBatches_of_noOrphanedMembers
    (hpl : Polled config env queue after leased batched batches)
    (ha : NoOrphanedMembers after) : SparesBatches config env queue := by
  intro batchId parent hpa hpr id member hmb hp ho
  have hk : batchItems (pruneLowValueDownstreamRows config env queue) id = some member.item := by
    rw [batchItems_prune hmb, if_neg]
    intro hm
    have hsi := (prunable_of_isPruned hm).2
    rw [hp] at hsi
    cases hsi
  have hc : ∃ item, batchItems (pruneLowValueDownstreamRows config env queue) batchId =
      some item ∧ item.closed := by
    refine ⟨_, batchItems_prune hpa, ?_⟩
    rw [if_pos hpr]
  obtain ⟨hmm, e, he, hen⟩ := hpl.made.invariant
    (P := fun queue => batchItems queue id = some member.item ∧
      ∃ item, batchItems queue batchId = some item ∧ item.closed) ⟨hk, hc⟩ (by
      rintro before after newId memberIds newParent ⟨hb, item, hi, hit⟩ hin
      have hg := grouped_of_batchInserted hin
      refine ⟨?_, ?_⟩
      · rcases hg.other id _ hb with hs | ⟨-, hf, -⟩
        · exact hs
        · rw [show member.item.parent = some batchId from hp] at hf
          cases hf
      · rcases hg.other batchId _ hi with hs | ⟨-, -, hj⟩
        · exact ⟨item, hs, hit⟩
        · exact ⟨_, hj, hit⟩)
  rw [noOrphanedMembers_iff, hpl.leases, batchItems_lease] at ha
  obtain ⟨still, hstl, hst⟩ := ha id member.item batchId hmm (by simp [TriggerRow.item, ho]) hp
  cases he.symm.trans hstl
  rw [hen] at hst
  cases hst

variable {W : Type} [DecidableEq W]

/-- In a step that is a poll with a free slot, the prunes spare the batches. -/
def PrunesSpareBatches (config : W → WorkerConfig) (system : WorkerSystem W) : WorkerAction W → Prop
  | .poll worker env _ => inFlight system.tasks worker < (config worker).pollBatch →
      SparesBatches (config worker) env system.db.triggers
  | _ => True

variable {system : WorkerSystem W}

theorem batchesOk_taskMove {config : W → WorkerConfig}
    {task : TriggerTask W} {action : WorkerAction W} (ho : BatchesOk system.db.triggers)
    (hm : TasksMatch system.db.triggers system.tasks) (htk : system.tasks.get taskId = some task)
    (hmv : TaskMove config system taskId task action system') : BatchesOk system'.db.triggers := by
  have hmb : ∀ row, system.db.triggers.get task.triggerId = some row →
      row.payload.batchMemberTriggerIds = task.row.payload.batchMemberTriggerIds := by
    intro row hr
    obtain ⟨_, hs, hn⟩ := hm taskId task htk
    cases hr.symm.trans hs
    exact hn.members
  cases hmv with
  | failed hmk hf hmr => exact ho.failureMarked hmr
  | deferred hp =>
    exact batchesOk_of_same ho (batchItems_updateWhere_same fun _ _ _ => rfl)
  | beat hp hl hnw =>
    exact batchesOk_of_same ho (batchItems_updateWhere_same fun _ _ _ => rfl)
  | completed hp hh hf ht =>
    rw [WorkerSystem.marked, (completeRest_eq_some ht).1]
    exact ho.complete hmb
  | rest hp hf ht =>
    rw [WorkerSystem.marked, (completeRest_eq_some ht).1]
    exact ho.members (reachesMembers_completed _ _ _)
  | _ => exact ho

theorem batchesOk_move {config : W → WorkerConfig}
    {action : WorkerAction W} (ho : BatchesOk system.db.triggers)
    (hmt : TasksMatch system.db.triggers system.tasks)
    (hp : WellPromoted system.promotions) (hs : PrunesSpareBatches config system action)
    (hmv : WorkerMove config system action system') : BatchesOk system'.db.triggers := by
  cases hmv with
  | enqueued hpy hf => exact ho.put hf rfl
  | promotion hmv =>
    cases hmv with
    | committed hg hin =>
      refine insertFresh_invariant hin ho fun queue record hm hb hf => hb.put hf ?_
      obtain ⟨now, rowId, reeval, -, hr⟩ := (hp _ _ hg).inserted record hm
      rw [hr]
      rfl
    | _ => exact ho
  | polled hn hpo hts =>
    rcases polled_of_pollAndDispatch hpo with ⟨-, rfl, -⟩ | ⟨hsl, batched, batches, hpl⟩
    · exact ho
    · exact ho.polled hpl (hs hsl)
  | recovered hi hn =>
    exact batchesOk_of_same ho (batchItems_updateWhere_same fun _ _ _ => rfl)
  | task ha ht hmv => exact batchesOk_taskMove ho hmt ht hmv
  | _ => exact ho

theorem batchesOk_empty : BatchesOk ∅ := by
  have hn : ∀ id item, batchItems ∅ id ≠ some item := by
    intro id item hi
    cases hi
  exact ⟨⟨fun hi => absurd hi (hn _ _), fun hi => absurd hi (hn _ _)⟩,
    fun _ _ _ hi => absurd hi (hn _ _)⟩

theorem batchesOk_of_reach {config : W → WorkerConfig}
    (hr : Reach (workerStep config) (PrunesSpareBatches config) .fresh system) :
    BatchesOk system.db.triggers := by
  refine hr.invariant_of (P := fun system => BatchesOk system.db.triggers)
    (fun _ hpr => And.intro (tasksMatch_of_reach hpr) (wellPromoted_of_reach hpr))
    batchesOk_empty ?_
  rintro before action next ho ⟨hm, hp⟩ hsp hs
  exact batchesOk_move ho hm hp hsp (workerMove_of_workerStep hs)

/-- As long as the prunes spare the batches, no member is orphaned; the poll that
does not spare them orphans one. -/
theorem no_orphaned_members (config : W → WorkerConfig) (system : WorkerSystem W)
    (hreach : Reach (workerStep config) (PrunesSpareBatches config) .fresh system) :
    NoOrphanedMembers system.db.triggers ∧ ∀ worker env firstTask system',
        workerStep config system (.poll worker env firstTask) = some system' →
          (NoOrphanedMembers system'.db.triggers ↔
            PrunesSpareBatches config system (.poll worker env firstTask)) := by
  refine ⟨noOrphanedMembers_iff.mpr (batchesOk_of_reach hreach).covered, ?_⟩
  intro worker env firstTask system' hstep
  constructor
  · intro hafter hslots
    cases workerMove_of_workerStep hstep with
    | polled hnow hpoll htasks =>
      rcases polled_of_pollAndDispatch hpoll with ⟨hfull, -⟩ | ⟨-, batched, batches, hpolled⟩
      · exact absurd hslots (Nat.not_lt.mpr hfull)
      · exact sparesBatches_of_noOrphanedMembers hpolled hafter
    | promotion hmove => cases hmove
    | task haction htask hmove => cases hmove with | failed hmarks => cases hmarks
  · intro hspares
    have hnext := hreach.next hspares hstep
    exact noOrphanedMembers_iff.mpr (batchesOk_of_reach hnext).covered

def memberOf (parentOk : TriggerRow → Bool) (queue : TriggerQueue) (id batchId : Nat) : Bool :=
  ((queue.get id).any fun row => row.completedAt == none && row.batchParentId == some batchId) &&
    (queue.get batchId).any parentOk

def thinkWorker (_ : Unit) : WorkerConfig := { workerId := "think-1" }

def weakEdge (reviewStatus : String) : RelationshipCandidate where
  tenantId := 0
  candidateKind := "edge"
  reviewStatus := reviewStatus
  source := some "latent_topology"
  basis := none
  metadataTopology := false
  lifecycleOrigin := none
  judgmentLeverageScore := some 0
  impactScore := some 0
  actionabilityScore := some 0
  confidenceScore := some 0

def candidateTrigger (triggerId candidateId : Nat) (now : Rat) : WorkerAction Unit :=
  .enqueue triggerId now 0 .t4 (some .latentRelationshipCandidate) none none
    { relationshipCandidateId := some (some candidateId) } none

def twoWeakEdges (reviewStatus : String) : Snapshot where
  candidates := ((∅ : Table Nat RelationshipCandidate).put 1 (weakEdge reviewStatus)).put 2
    (weakEdge "contested")

def pollOfCandidates (now : Rat) (reviewStatus : String) : WorkerAction Unit :=
  .poll () { pollAt now with
    topologyPrune := twoWeakEdges reviewStatus
    edgeTypePrune := twoWeakEdges reviewStatus
    downstreamBatches := twoWeakEdges reviewStatus } 0

def twoCandidates : List (WorkerAction Unit) :=
  [candidateTrigger 1 1 0, candidateTrigger 2 2 1, .wait 100]

theorem no_orphaned_members_batched : ∃ system : WorkerSystem Unit,
    memberOf (fun parent => parent.completedAt == none) system.db.triggers 1 10 ∧
      NoOrphanedMembers system.db.triggers := by
  have hrun : ((runAll (workerStep thinkWorker) .fresh twoCandidates).any fun before =>
      !(before.db.triggers.any fun _ row => row.batchParentId.isSome) &&
        (workerStep thinkWorker before (pollOfCandidates 100 "contested")).any fun system =>
          memberOf (fun parent => parent.completedAt == none) system.db.triggers 1 10) := by
    decide +kernel
  obtain ⟨before, hbefore, htrue⟩ := any_eq_true _ _ |>.mp hrun
  obtain ⟨hsingle, hpoll⟩ := Bool.and_eq_true_iff.mp htrue
  obtain ⟨system, hsystem, hmember⟩ := any_eq_true _ _ |>.mp hpoll
  have hreach : Reach (workerStep thinkWorker) (PrunesSpareBatches thinkWorker) .fresh before :=
    reach_of_runAll .start (by simp [twoCandidates, candidateTrigger, PrunesSpareBatches]) hbefore
  have hspares : PrunesSpareBatches thinkWorker before (pollOfCandidates 100 "contested") := by
    intro _ batchId parent _ _ id member hget hpoints
    have hany : (before.db.triggers.any fun _ row => row.batchParentId.isSome) :=
      (any_iff _ _).mpr ⟨id, member, hget, by rw [hpoints]; rfl⟩
    rw [hany] at hsingle
    cases hsingle
  exact ⟨system, hmember, (no_orphaned_members thinkWorker system (hreach.next hspares hsystem)).1⟩

/-- Two candidates are batched; then the first one goes back to review, and the next
poll prunes their batch row from under them. -/
theorem pruned_batch_orphans_members : ∃ system : WorkerSystem Unit,
    Reach (workerStep thinkWorker) anyStep .fresh system ∧
      ¬NoOrphanedMembers system.db.triggers := by
  have hrun : ((runAll (workerStep thinkWorker) .fresh (twoCandidates ++
      [pollOfCandidates 100 "contested", pollOfCandidates 100 "needs_review"])).any fun system =>
        memberOf (fun parent => parent.completedAt != none) system.db.triggers 1 10) := by
    decide +kernel
  obtain ⟨system, hsystem, hmember⟩ := any_eq_true _ _ |>.mp hrun
  refine ⟨system, reach_of_run hsystem, fun hlive => ?_⟩
  obtain ⟨hrow, hparent⟩ := Bool.and_eq_true_iff.mp hmember
  obtain ⟨row, hget, hrow⟩ := any_eq_true _ _ |>.mp hrow
  obtain ⟨parent, hgetParent, hdone⟩ := any_eq_true _ _ |>.mp hparent
  simp only [Bool.and_eq_true, beq_iff_eq] at hrow
  obtain ⟨entry, hentry, hopen⟩ := hlive 1 row 10 hget hrow.1 hrow.2
  cases hgetParent.symm.trans hentry
  exact bne_iff_ne.mp hdone hopen

end FyralisCore.Think
