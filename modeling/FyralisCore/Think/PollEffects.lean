import FyralisCore.Think.TriggerPoll

/-! What one poll transaction does to the queue: rows are pruned, batch rows are
inserted one after another and adopt their members, and what the poll returns is
leased. -/
namespace FyralisCore.Think

open Relational List Option Table Prod

variable {config : WorkerConfig} {env : PollEnv} {queue after : TriggerQueue}

def isPruned (config : WorkerConfig) (env : PollEnv) (id : Nat) (row : TriggerRow) : Bool :=
  config.pruneLowValueDownstreamTriggers &&
    ((env.beliefPrune.sees id && prunesNonPrediction config env row) ||
      (env.topologyPrune.sees id && prunesLowValueTopology config env row) ||
      (env.missingModelPrune.sees id && prunesMissingModel config env row) ||
      (env.edgeTypePrune.sees id && prunesEdgeType config env row))

def TriggerRow.prunedWith (row : TriggerRow) (now : Rat) (note : AutoCompleted) : TriggerRow :=
  { row.completed now with payload := { row.payload with autoCompleted := some note } }

variable {row : TriggerRow} {id : Nat}

theorem not_prunable (hr : row.completedAt ≠ none ∨ row.batchParentId ≠ none) :
    prunable config kind subkind row = false := by
  unfold prunable
  rcases hr with hc | hm
  · simp [hc]
  · simp [hm]

theorem prunable_of_isPruned (hp : isPruned config env id row) :
    row.completedAt = none ∧ row.batchParentId = none := by
  by_contra ho
  rw [not_and_or] at ho
  simp [isPruned, prunesNonPrediction, prunesLowValueTopology, prunesMissingModel, prunesEdgeType,
    not_prunable ho] at hp

theorem get_pruneRows (now : Rat) (note : TriggerRow → AutoCompleted) (snapshot : Snapshot)
    (condition : TriggerRow → Bool) (queue : TriggerQueue) (id : Nat) :
    (pruneRows now note snapshot condition queue).get id = (queue.get id).map fun row =>
      if snapshot.sees id && condition row then row.prunedWith now (note row) else row := by
  unfold pruneRows
  rw [get_updateWhere]
  rfl

theorem prunedWith_stays (row : TriggerRow) (now : Rat) (note : AutoCompleted) :
    prunable config kind subkind (row.prunedWith now note) = false :=
  not_prunable (.inl (some_ne_none now))

variable (config env) in
theorem get_pruneLowValueDownstreamRows (hr : queue.get id = some row) :
    ∃ note, (pruneLowValueDownstreamRows config env queue).get id =
      some (if isPruned config env id row then row.prunedWith env.now note else row) := by
  unfold pruneLowValueDownstreamRows isPruned
  cases config.pruneLowValueDownstreamTriggers with
  | false => exact ⟨⟨"", "", []⟩, by simpa using hr⟩
  | true =>
    simp only [if_true, Bool.true_and, get_pruneRows, hr, map_some]
    -- The first statement that matches decides; the later ones pass over its row.
    by_cases h1 : (env.beliefPrune.sees id && prunesNonPrediction config env row)
    · refine ⟨⟨"non_prediction_belief_updated_noop", config.workerId, []⟩, ?_⟩
      simp only [h1, if_true, Bool.true_or]
      simp [prunesLowValueTopology, prunesMissingModel, prunesEdgeType, prunedWith_stays]
    · simp only [h1, if_false, Bool.false_or, Bool.false_eq_true]
      by_cases h2 : (env.topologyPrune.sees id && prunesLowValueTopology config env row)
      · refine ⟨⟨"low_value_topology_candidate_noop", config.workerId,
          candidateScores env.topologyPrune row⟩, ?_⟩
        simp only [h2, if_true, Bool.true_or]
        simp [prunesMissingModel, prunesEdgeType, prunedWith_stays]
      · simp only [h2, if_false, Bool.false_or, Bool.false_eq_true]
        by_cases ht : (env.missingModelPrune.sees id && prunesMissingModel config env row)
        · refine ⟨⟨"missing_model_belief_updated_noop", config.workerId, []⟩, ?_⟩
          simp only [ht, if_true, Bool.true_or]
          simp [prunesEdgeType, prunedWith_stays]
        · simp only [ht, if_false, Bool.false_or, Bool.false_eq_true]
          exact ⟨_, rfl⟩

theorem get_prune_eq_none_iff :
    (pruneLowValueDownstreamRows config env queue).get id = none ↔ queue.get id = none := by
  unfold pruneLowValueDownstreamRows
  split
  · simp [get_pruneRows, map_eq_none_iff]
  · rfl

/-- What makes a row fit for a batch and does not change while batches are made:
a free lock, and not being a batch itself. -/
def Batchable (config : WorkerConfig) (now : Rat) (row : TriggerRow) : Prop :=
  lockFree config now row ∧ (row.payload.batch = false ∨ row.triggerSubkind = some .eventArrival)

structure BatchParent (config : WorkerConfig) (now : Rat) (memberIds : List Nat)
    (parent : TriggerRow) : Prop where
  batch : parent.payload.batch
  members : parent.payload.batchMemberTriggerIds = memberIds
  subkind : parent.triggerSubkind ≠ some .eventArrival
  notReeval : parent.payload.reevalRowId = none
  open_ : parent.completedAt = none
  single : parent.batchParentId = none
  holder : parent.lockedBy = some config.workerId
  lockedAt : parent.lockedAt = some now

/-- One batch: its row is new, and its free members point at it. -/
structure BatchInserted (config : WorkerConfig) (now : Rat) (queue after : TriggerQueue)
    (batchId : Nat) (memberIds : List Nat) (parent : TriggerRow) : Prop where
  fresh : queue.get batchId = none
  parentOf : BatchParent config now memberIds parent
  batchable : ∀ id ∈ memberIds, ∃ row, queue.get id = some row ∧ Batchable config now row
  get_batch : after.get batchId = some parent
  get_other : ∀ id row, queue.get id = some row → after.get id = some
    (if id ∈ memberIds ∧ row.completedAt = none ∧ row.batchParentId = none then
      { row with batchParentId := some batchId } else row)
  get_none : ∀ id, id ≠ batchId → queue.get id = none → after.get id = none

inductive BatchesInserted (config : WorkerConfig) (now : Rat) (queue : TriggerQueue) :
    TriggerQueue → List TriggerRecord → Prop where
  | none : BatchesInserted config now queue queue []
  | insert {middle after : TriggerQueue} {batches : List TriggerRecord} {batchId : Nat}
      {memberIds : List Nat} {parent : TriggerRow} :
      BatchesInserted config now queue middle batches →
      BatchInserted config now middle after batchId memberIds parent →
      BatchesInserted config now queue after (batches ++ [(batchId, parent)])

variable {now : Rat}

theorem BatchesInserted.trans (h1 : BatchesInserted config now queue m first)
    (h2 : BatchesInserted config now m after second) :
    BatchesInserted config now queue after (first ++ second) := by
  induction h2 with
  | none => simpa using h1
  | insert _ hi ih =>
    rw [← append_assoc]
    exact ih.insert hi

variable {batches : List TriggerRecord} {batchId : Nat} {memberIds : List Nat} {parent : TriggerRow}
  {record : TriggerRecord}

theorem BatchesInserted.invariant {P : TriggerQueue → Prop}
    (hb : BatchesInserted config now queue after batches) (hs : P queue)
    (hin : ∀ before after batchId memberIds parent, P before →
      BatchInserted config now before after batchId memberIds parent → P after) : P after := by
  induction hb with
  | none => exact hs
  | insert _ hi ih => exact hin _ _ _ _ _ ih hi

theorem BatchInserted.row_kept (hi : BatchInserted config now queue after batchId memberIds parent)
    (hr : queue.get id = some row) :
    ∃ batchParentId, after.get id = some { row with batchParentId := batchParentId } := by
  rw [hi.get_other id row hr]
  split
  · exact ⟨_, rfl⟩
  · exact ⟨row.batchParentId, rfl⟩

theorem not_batchable_of_batchParent
    (hpr : BatchParent config now memberIds parent) : ¬Batchable config now parent := by
  rintro ⟨-, hp | hs⟩
  · rw [hpr.batch] at hp
    cases hp
  · exact hpr.subkind hs

theorem BatchInserted.row_same (hi : BatchInserted config now queue after batchId memberIds parent)
    (hr : queue.get id = some row) (hu : ¬Batchable config now row) :
    after.get id = some row := by
  rw [hi.get_other id row hr, if_neg]
  rintro ⟨hm, -⟩
  obtain ⟨same, hs, hb⟩ := hi.batchable id hm
  cases hr.symm.trans hs
  exact hu hb

section

variable (hbt : BatchesInserted config now queue after batches) (hm : record ∈ batches)

include hbt hm

theorem BatchesInserted.get_batch : ∃ memberIds, BatchParent config now memberIds record.2 ∧
    after.get record.1 = some record.2 := by
  induction hbt with
  | none => cases hm
  | @insert m after batches batchId memberIds parent _ hi ih =>
    rcases mem_append.mp hm with hb | hn
    · obtain ⟨memberIds, hp, hmd⟩ := ih hb
      exact ⟨memberIds, hp, hi.row_same hmd (not_batchable_of_batchParent hp)⟩
    · obtain rfl := mem_singleton.mp hn
      exact ⟨memberIds, hi.parentOf, hi.get_batch⟩

theorem fresh_of_mem_batches : queue.get record.1 = none := by
  induction hbt with
  | none => cases hm
  | @insert m after batches batchId memberIds parent hmd hi ih =>
    rcases mem_append.mp hm with hb | hn
    · exact ih hb
    · obtain rfl := mem_singleton.mp hn
      cases hg : queue.get batchId with
      | none => rfl
      | some row =>
        have hmi : ∃ row, m.get batchId = some row :=
          hmd.invariant (P := fun queue => ∃ row, queue.get batchId = some row) ⟨row, hg⟩
            fun _ _ _ _ _ hb hi =>
              hb.elim fun _ hr => ⟨_, (hi.row_kept hr).choose_spec⟩
        obtain ⟨_, hmi⟩ := hmi
        rw [hi.fresh] at hmi
        cases hmi

end

theorem BatchesInserted.nodup (hb : BatchesInserted config now queue after batches) :
    (batches.map fst).Nodup := by
  induction hb with
  | none => exact nodup_nil
  | @insert m after batches batchId memberIds parent hm hi ih =>
    rw [map_append, nodup_append]
    refine ⟨ih, nodup_singleton batchId, fun id hid other ho => ?_⟩
    obtain ⟨record, hr, rfl⟩ := mem_map.mp hid
    obtain rfl := mem_singleton.mp ho
    rintro hs
    obtain ⟨_, -, hg⟩ := hm.get_batch hr
    rw [hs, hi.fresh] at hg
    cases hg

theorem mem_selectForUpdate (hm : record ∈ selectForUpdate queue snapshot condition before limit) :
    queue.get record.1 = some record.2 ∧ condition record.2 := by
  have hs := (mem_insertionSort _).mp (mem_of_mem_take hm)
  obtain ⟨hr, hc⟩ := mem_filter.mp hs
  exact ⟨(mem_rows_iff queue record.1 record.2).mp hr, (Bool.and_eq_true_iff.mp hc).2⟩

theorem nodup_selectForUpdate (queue : TriggerQueue) (snapshot : Snapshot)
    (condition : TriggerRow → Bool) (before : TriggerRow → TriggerRow → Bool) (limit : Nat) :
    ((selectForUpdate queue snapshot condition before limit).map fst).Nodup := by
  have hs : (((queue.rows.filter fun record => snapshot.sees record.1 && condition record.2
      ).insertionSort fun first second => before first.2 second.2).map fst).Nodup :=
    ((perm_insertionSort _ _).map fst).nodup_iff.mpr
      (queue.nodup_primaryKeys.sublist (filter_sublist.map fst))
  exact hs.sublist ((take_sublist _ _).map fst)

theorem readyBatchMembers_subset
        (hr : readyBatchMembers records maxSize minSize windowS clock allowMaxSize
      fallbackByArrival = some members) : members ⊆ records := by
  have hs : records.insertionSort (fun first second => byEnqueuedAt first.2 second.2) ⊆
      records := fun record hm => (mem_insertionSort _).mp hm
  unfold readyBatchMembers at hr
  cases hl : records.insertionSort fun first second => byEnqueuedAt first.2 second.2 with
  | nil => simp [hl] at hr
  | cons oldest rest =>
    rw [hl] at hs
    simp only [hl, ite_none_right_eq_some, Option.some.injEq] at hr
    obtain ⟨-, rfl⟩ := hr
    intro record hm
    have ht := mem_of_mem_take hm
    split at ht
    · exact hs ht
    · exact hs (mem_of_mem_filter ht)

/-- The rules take the members of a group's next batch from the group. -/
def TakesMembers
    (membersOf : BatchRun → BatchGroup → List TriggerRecord → Option (List TriggerRecord)) : Prop :=
  ∀ run group records members, membersOf run group records = some members → members ⊆ records

theorem laneMembers_subset (rules : BatchRules) : TakesMembers (laneMembers rules) := by
  intro run group records members hm
  simp only [laneMembers, ite_none_left_eq_some] at hm
  exact List.Subset.trans (readyBatchMembers_subset hm.2) filter_sublist.subset

theorem arrivalMembers_subset (rules : BatchRules) : TakesMembers (arrivalMembers rules) := by
  intro run group records members hm
  simp only [arrivalMembers, ite_none_left_eq_some] at hm
  exact readyBatchMembers_subset hm.2

def GroupsOf (candidates : List TriggerRecord)
    (groups : List (BatchGroup × List TriggerRecord)) : Prop :=
  ∀ group ∈ groups, group.2 ⊆ candidates ∧
    ∃ record ∈ candidates, group.1.triggerSubkind = record.2.triggerSubkind

theorem groupsOf_batchGroups (lane : TriggerRow → Option String) (hr : records ⊆ candidates) :
    GroupsOf candidates (batchGroups lane records) := by
  intro group hg
  obtain ⟨key, hk, rfl⟩ := mem_map.mp ((mem_insertionSort _).mp hg)
  obtain ⟨record, hrc, rfl⟩ := mem_map.mp (mem_eraseDups.mp hk)
  exact ⟨List.Subset.trans filter_sublist.subset hr, record, hr hrc, rfl⟩

def WritesParents (config : WorkerConfig) (now : Rat) (rules : BatchRules)
    (candidates : List TriggerRecord) : Prop :=
  ∀ group members, (∃ record ∈ candidates, group.triggerSubkind = record.2.triggerSubkind) →
    BatchParent config now (members.map fst) (rules.parentRow group members)

def CandidatesFit (config : WorkerConfig) (now : Rat) (candidates : List TriggerRecord)
    (queue : TriggerQueue) : Prop :=
  ∀ record ∈ candidates, ∃ row, queue.get record.1 = some row ∧ Batchable config now row

theorem CandidatesFit.insert (hf : CandidatesFit config now candidates queue)
    (hi : BatchInserted config now queue after batchId memberIds parent) :
    CandidatesFit config now candidates after := by
  intro record hm
  obtain ⟨row, hr, hb⟩ := hf record hm
  obtain ⟨batchParentId, ha⟩ := hi.row_kept hr
  exact ⟨_, ha, hb⟩

/-- What a run of batches keeps up: the batches that it lists were made, and the
candidates stay fit. -/
structure RunOk (config : WorkerConfig) (now : Rat) (queue : TriggerQueue)
    (candidates : List TriggerRecord) (run : BatchRun) : Prop where
  made : BatchesInserted config now queue run.queue run.batches
  fit : CandidatesFit config now candidates run.queue

variable {rules : BatchRules} {uuid7 : Nat → Nat} {candidates : List TriggerRecord}
  {run next : BatchRun}

theorem batchInserted_insertBatchRow (hp : WritesParents config now rules candidates)
        (hg : ∃ record ∈ candidates, group.triggerSubkind = record.2.triggerSubkind)
    (hft : CandidatesFit config now candidates run.queue) (hmb : members ⊆ candidates)
    (hi : insertBatchRow rules uuid7 group members run = some next) :
    BatchInserted config now run.queue next.queue (uuid7 run.batches.length)
        (members.map fst) (rules.parentRow group members) ∧
      next.batches = run.batches ++
        [(uuid7 run.batches.length, rules.parentRow group members)] := by
  obtain ⟨queue, hq, rfl⟩ := map_eq_some_iff.mp hi
  simp only [insertTrigger, ite_none_left_eq_some, Bool.not_eq_true, isSome_eq_false_iff,
    isNone_iff_eq_none, Option.some.injEq] at hq
  obtain ⟨hf, rfl⟩ := hq
  have hb : ∀ id ∈ members.map fst,
      ∃ row, run.queue.get id = some row ∧ Batchable config now row := by
    intro id hid
    obtain ⟨record, hrc, rfl⟩ := mem_map.mp hid
    exact hft record (hmb hrc)
  have hnt : uuid7 run.batches.length ∉ members.map fst := by
    intro hm
    obtain ⟨row, hr, -⟩ := hb _ hm
    rw [hf] at hr
    cases hr
  refine ⟨⟨hf, hp group members hg, hb, ?_, ?_, ?_⟩, rfl⟩
  · simp only [adoptMembers, get_updateWhere, get_put_self, map_some]
    simp [Table.changed, hnt]
  · intro id row hr
    have hne : id ≠ uuid7 run.batches.length := by
      rintro rfl
      rw [hf] at hr
      cases hr
    simp only [adoptMembers, get_updateWhere, get_put_ne _ _ hne, hr,
      map_some, Table.changed, Bool.and_eq_true, decide_eq_true_eq, beq_iff_eq, and_assoc]
  · intro id hne hn
    simp [adoptMembers, get_updateWhere, get_put_ne _ _ hne, hn, map_none]

variable {slots : Nat}

theorem runOk_batchPass (hpr : WritesParents config now rules candidates)
    (htk : TakesMembers membersOf)
    (hg : GroupsOf candidates groups) (ho : RunOk config now queue candidates run)
    (hp : batchPass rules uuid7 slots membersOf groups run = some next) :
    RunOk config now queue candidates next := by
  induction groups generalizing run with
  | nil =>
    cases hp
    exact ho
  | cons group rest ih =>
    obtain ⟨hr, hk⟩ := hg _ (.head _)
    have ht : GroupsOf candidates rest := fun group hm => hg group (.tail _ hm)
    simp only [batchPass] at hp
    split at hp
    · cases hp
      exact ho
    · split at hp
      · exact ih ht ho hp
      · next members hmb =>
        obtain ⟨m, hmd, hn⟩ := bind_eq_some_iff.mp hp
        have hs : members ⊆ candidates := List.Subset.trans (htk _ _ _ _ hmb) hr
        obtain ⟨hi, hb⟩ := batchInserted_insertBatchRow hpr hk ho.fit hs hmd
        refine ih ht ⟨?_, ho.fit.insert hi⟩ hn
        rw [hb]
        exact ho.made.insert hi

theorem runOk_laneRounds (hp : WritesParents config now rules candidates)
    (hg : GroupsOf candidates groups) (ho : RunOk config now queue candidates run)
    (hr : laneRounds rules uuid7 slots groups passes run = some next) :
    RunOk config now queue candidates next := by
  induction passes generalizing run with
  | zero =>
    cases hr
    exact ho
  | succ passes ih =>
    simp only [laneRounds] at hr
    split at hr
    · cases hr
      exact ho
    · obtain ⟨m, hmd, hn⟩ := bind_eq_some_iff.mp hr
      have hm := runOk_batchPass hp (laneMembers_subset rules) hg ho hmd
      split at hn
      · cases hn
        exact hm
      · exact ih hm hn

theorem runOk_createBatchRows (hp : WritesParents config now rules candidates)
    (hf : CandidatesFit config now candidates queue)
    (hc : createBatchRows rules uuid7 slots candidates queue = some next) :
    RunOk config now queue candidates next := by
  obtain ⟨m, hmd, hn⟩ := bind_eq_some_iff.mp hc
  have hm := runOk_laneRounds hp (groupsOf_batchGroups _ (List.Subset.refl _)) ⟨.none, hf⟩ hmd
  split at hn
  · cases hn
    exact hm
  · exact runOk_batchPass hp (arrivalMembers_subset rules)
      (groupsOf_batchGroups _ filter_sublist.subset) hm hn

theorem candidatesFit_select (hc : ∀ row, condition row → Batchable config now row) :
    CandidatesFit config now (selectForUpdate queue snapshot condition byEnqueuedAt limit) queue := by
  intro record hm
  obtain ⟨hr, ht⟩ := mem_selectForUpdate hm
  exact ⟨record.2, hr, hc _ ht⟩

theorem batchable_of_isT1Candidate (row : TriggerRow)
    (hc : isT1Candidate config now row) : Batchable config now row := by
  simp only [isT1Candidate, awaitsBatch, Bool.and_eq_true, beq_iff_eq] at hc
  exact ⟨hc.1.1.1.1.1.1.2, .inr hc.1.2⟩

theorem batchable_of_isDownstreamCandidate (row : TriggerRow)
    (hc : isDownstreamCandidate config now row) :
    Batchable config now row ∧ row.triggerSubkind ≠ some .eventArrival := by
  simp only [isDownstreamCandidate, awaitsBatch, Bool.and_eq_true, Bool.not_eq_true', Bool.or_eq_true,
    beq_iff_eq] at hc
  refine ⟨⟨hc.1.1.1.1.1.2, .inl hc.1.2⟩, ?_⟩
  rcases hc.2 with ⟨⟨-, hs⟩, -⟩ | ⟨⟨-, hs⟩, -⟩ <;> simp [hs]

theorem batchesInserted_t1 (hc : createT1BatchRows config env slots queue = some next) :
    BatchesInserted config env.now queue next.queue next.batches := by
  unfold createT1BatchRows at hc
  split at hc
  · refine (runOk_createBatchRows ?_ (candidatesFit_select batchable_of_isT1Candidate) hc).made
    intro group members _
    exact ⟨rfl, rfl, by simp [t1BatchRules, t1ParentRow, newTriggerRow], rfl, rfl, rfl, rfl, rfl⟩
  · cases hc
    exact .none

theorem batchParent_downstreamParentRow (members : List TriggerRecord)
    (hs : group.triggerSubkind ≠ some .eventArrival) :
    BatchParent config env.now (members.map fst)
      (downstreamParentRow config env group members) := by
  have hp : (downstreamBatchPayload env.downstreamBatches group members).batch ∧
      (downstreamBatchPayload env.downstreamBatches group members).batchMemberTriggerIds =
        members.map fst ∧
      (downstreamBatchPayload env.downstreamBatches group members).reevalRowId = none := by
    unfold downstreamBatchPayload
    split <;> exact ⟨rfl, rfl, rfl⟩
  exact ⟨hp.1, hp.2.1, hs, hp.2.2, rfl, rfl, rfl, rfl⟩

theorem batchesInserted_downstream
    (hc : createDownstreamBatchRows config env slots queue = some next) :
    BatchesInserted config env.now queue next.queue next.batches := by
  unfold createDownstreamBatchRows at hc
  dsimp only at hc
  split at hc
  · refine (runOk_createBatchRows ?_ (candidatesFit_select fun row hr =>
      (batchable_of_isDownstreamCandidate row hr).1) hc).made
    rintro group members ⟨record, hrc, hg⟩
    refine batchParent_downstreamParentRow members ?_
    rw [hg]
    exact (batchable_of_isDownstreamCandidate _ (mem_selectForUpdate hrc).2).2
  · cases hc
    exact .none

theorem get_leaseTriggers (workerId : String) (now : Rat) (ids : List Nat) (queue : TriggerQueue)
    (id : Nat) : (leaseTriggers workerId now ids queue).get id =
      (queue.get id).map fun row => if id ∈ ids then row.leasedTo workerId now else row := by
  unfold leaseTriggers
  rw [get_updateWhere]
  congr 1
  funext row
  simp [Table.changed]

/-- The three parts of a poll that had a free slot: what it pruned, the batches it
made, and the rows it leased, which are its batches and pollable rows. -/
structure Polled (config : WorkerConfig) (env : PollEnv) (queue after : TriggerQueue)
    (leased : List TriggerRecord) (batched : TriggerQueue) (batches : List TriggerRecord) :
    Prop where
  made : BatchesInserted config env.now (pruneLowValueDownstreamRows config env queue) batched
    batches
  leases : after = leaseTriggers config.workerId env.now (leased.map fst) batched
  rows : ∀ record ∈ leased, record ∈ batches ∨
    batched.get record.1 = some record.2 ∧ pollable config env.now record.2
  nodup : 0 ≤ config.triggerLockTimeoutS → (leased.map fst).Nodup

theorem lockFree_of_pollable (hp : pollable config now row) :
    row.completedAt = none ∧ row.batchParentId = none ∧ lockFree config now row := by
  simp only [pollable, Bool.and_eq_true, beq_iff_eq] at hp
  exact ⟨hp.1.1.1.1.1.1, hp.1.1.1.1.1.2, hp.1.1.1.1.2⟩

theorem lockFree_batchParent (hp : BatchParent config now memberIds parent)
    (ht : 0 ≤ config.triggerLockTimeoutS) : lockFree config now parent = false := by
  simpa [lockFree, hp.holder, hp.lockedAt] using ht

theorem polled_of_pollAndDispatch {inFlight : Nat}
    (hp : pollAndDispatch config env inFlight queue = some (after, leased)) :
    (config.pollBatch ≤ inFlight ∧ after = queue ∧ leased = []) ∨ (inFlight < config.pollBatch ∧
        ∃ batched batches, Polled config env queue after leased batched batches) := by
  unfold pollAndDispatch at hp
  dsimp only at hp
  split at hp
  · next hf =>
    obtain ⟨rfl, rfl⟩ := mk.inj (Option.some.inj hp)
    exact .inl ⟨Nat.sub_eq_zero_iff_le.mp hf, rfl, rfl⟩
  · next hsl =>
    obtain ⟨t1, ht1, ht⟩ := bind_eq_some_iff.mp hp
    obtain ⟨downstream, hd, hl⟩ := bind_eq_some_iff.mp ht
    obtain ⟨rfl, rfl⟩ := mk.inj (Option.some.inj hl)
    refine .inr ⟨by omega, downstream.queue, t1.batches ++ downstream.batches,
      (batchesInserted_t1 ht1).trans (batchesInserted_downstream hd), rfl, ?_, ?_⟩
    · intro record hm
      rcases mem_append.mp hm with hb | hpl
      · exact .inl hb
      · exact .inr (mem_selectForUpdate hpl)
    · intro htm
      have hmd := (batchesInserted_t1 ht1).trans (batchesInserted_downstream hd)
      rw [map_append, nodup_append]
      refine ⟨hmd.nodup, nodup_selectForUpdate _ _ _ _ _, fun id hi other ho => ?_⟩
      -- A batch of this poll is leased already, so it is not polled again.
      obtain ⟨batch, hb, rfl⟩ := mem_map.mp hi
      obtain ⟨record, hrc, rfl⟩ := mem_map.mp ho
      intro hs
      obtain ⟨memberIds, hpr, hg⟩ := hmd.get_batch hb
      obtain ⟨hr, hpo⟩ := mem_selectForUpdate hrc
      rw [← hs, hg] at hr
      obtain hr := Option.some.inj hr
      have hfr := (lockFree_of_pollable hpo).2.2
      rw [← hr, lockFree_batchParent hpr htm] at hfr
      cases hfr

end FyralisCore.Think
