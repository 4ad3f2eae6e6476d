import FyralisCore.Ingestion.BatchWorker

/-! No stranded batch items. An item is settled, or a worker has it in hand: it is
claimed and not yet recorded, or its job is closed and its line not yet worked off.
What a worker has in hand lives in its process alone, and a closed job is never
polled again: so no process may die with an item in hand, and no job may be closed
over an item that nobody takes in hand. -/
namespace FyralisCore.Ingestion.Batch

open Relational Transition List Table

variable {Worker : Type} {config : BatchConfig} {state after : BatchState Worker} {worker : Worker}
  {id : Nat} {item : BatchItem}

def OpenJob (jobs : Table Nat BatchJob) (jobId : Nat) : Prop :=
  ∃ job, jobs.get jobId = some job ∧ job.status ∈ openStatuses

/-- Queued, completed, failed, or submitted under a job that is still polled. -/
def Settled (jobs : Table Nat BatchJob) (item : BatchItem) : Prop :=
  match item.status with
  | .queued | .completed | .failed => True
  | .submitted => ∃ jobId, item.jobId = some jobId ∧ OpenJob jobs jobId
  | .submitting => False

def NoneStranded (state : BatchState Worker) : Prop :=
  (∀ worker, state.phase worker = .idle) →
    ∀ id item, state.items.get id = some item → Settled state.jobs item

section

variable (config : BatchConfig)

def Reports (line : String) (item : BatchItem) : Prop :=
  (parseBatchOutputLine config.reader line).map Prod.fst = some item.customId

def Holds (phase : BatchPhase) (id : Nat) (item : BatchItem) : Prop :=
  match phase with
  | .loading remaining lines => id ∈ remaining ∨ id ∈ lines.map Prod.fst
  | .resetting lines _ | .recording lines _ _ => id ∈ lines.map Prod.fst
  | .reading outputFile _ => ∃ line ∈ outputLines config outputFile, Reports config line item
  | .applying lines _ => ∃ line ∈ lines, Reports config line item
  | .listing job _ => item.status = .submitted ∧ item.jobId = some job
  | .failing items _ => id ∈ items
  | .idle | .polling _ | .updating _ _ _ _ => False

def HeldByOther (state : BatchState Worker) (worker : Worker) (id : Nat) (item : BatchItem) :
    Prop :=
  ∃ other, other ≠ worker ∧ Holds config (state.phase other) id item

/-- The condition on the steps of a run. The provider answers a submission with a
status that is polled; a job is closed as completed only over items that its output file
reports, or that another worker has in hand; and no process dies with an unsettled item
in hand that no other has. -/
def BatchStands (state : BatchState Worker) : BatchAction Worker → Prop
  | .record worker _ => ∀ lines providerBatchId status,
      state.phase worker = .recording lines providerBatchId status → status ∈ openStatuses
  | .updateJob worker => ∀ job outputFile rest,
      state.phase worker = .updating job "completed" outputFile rest →
        ∀ id item, state.items.get id = some item → item.status = .submitted →
          item.jobId = some job → (∃ file, outputFile.filter (· ≠ "") = some file ∧
              ∃ line ∈ outputLines config file, Reports config line item) ∨
            HeldByOther config state worker id item
  | .crash worker => ∀ id item, state.items.get id = some item →
      Holds config (state.phase worker) id item →
        Settled state.jobs item ∨ HeldByOther config state worker id item
  | _ => True

def Covered (state : BatchState Worker) (id : Nat) (item : BatchItem) : Prop :=
  Settled state.jobs item ∨ ∃ worker, Holds config (state.phase worker) id item

end

structure BatchKept (config : BatchConfig) (state : BatchState Worker) : Prop where
  unique : ∀ id other row found, state.items.get id = some row →
    state.items.get other = some found → row.customId = found.customId → id = other
  covered : ∀ id item, state.items.get id = some item → Covered config state id item

theorem BatchKept.noneStranded (hk : BatchKept config state) : NoneStranded state := by
  intro hid id item hi
  rcases hk.covered id item hi with hs | ⟨worker, hh⟩
  · exact hs
  · rw [hid worker] at hh
    exact hh.elim

theorem settled_fail (jobs : Table Nat BatchJob) (item : BatchItem) : Settled jobs item.fail := trivial

theorem settled_complete (jobs : Table Nat BatchJob) (item : BatchItem) :
    Settled jobs item.complete := trivial

theorem settled_reset (jobs : Table Nat BatchJob) (limit : Nat) (item : BatchItem) :
    Settled jobs (item.reset limit) := by
  by_cases hl : limit ≤ item.attempts <;> simp [BatchItem.reset, Settled, hl]

theorem Settled.mono (hse : Settled jobs item)
    (ho : ∀ jobId, item.status = .submitted → item.jobId = some jobId → OpenJob jobs jobId →
      OpenJob u jobId) : Settled u item := by
  cases hs : item.status with
  | submitted =>
    simp only [Settled, hs] at hse ⊢
    obtain ⟨jobId, hj, hop⟩ := hse
    exact ⟨jobId, hj, ho jobId hs hj hop⟩
  | submitting => simp only [Settled, hs] at hse
  | queued | completed | failed => simp [Settled, hs]

section Steps

variable [DecidableEq Worker]

@[simp] theorem phase_enter_self (phase : BatchPhase) :
    (state.enter worker phase).phase worker = phase := Function.update_self ..

theorem phase_enter_ne (phase : BatchPhase) (hn : other ≠ worker) :
    (state.enter worker phase).phase other = state.phase other := Function.update_of_ne hn ..

variable {phase : BatchPhase} {items : Table Nat BatchItem} {jobId : Nat} {lines : List (Nat × Nat)}
  {status : String}

/-- A step of one worker: an item it changes is covered afterwards, and one that it had
in hand, or that was settled, still is. -/
theorem covered_of_step
    (hc : ∀ id item, state.items.get id = some item → Covered config state id item)
    (hp : ∀ other, after.phase other = (state.enter worker phase).phase other)
    (hit : ∀ id item, after.items.get id = some item →
      Settled after.jobs item ∨ Holds config phase id item ∨ state.items.get id = some item ∧
          (Settled state.jobs item → Covered config after id item) ∧
          (Holds config (state.phase worker) id item → Covered config after id item)) :
    ∀ id item, after.items.get id = some item → Covered config after id item := by
  intro id item hi
  rcases hit id item hi with hs | hh | ⟨hb, hk, hhn⟩
  · exact .inl hs
  · refine .inr ⟨worker, ?_⟩
    rwa [hp, phase_enter_self]
  · rcases hc id item hb with hs | ⟨other, hh⟩
    · exact hk hs
    · by_cases ho : other = worker
      · subst ho
        exact hhn hh
      · refine .inr ⟨other, ?_⟩
        rwa [hp, phase_enter_ne phase ho]

section

variable (hk : BatchKept config state)

include hk

theorem BatchKept.enter (hp : state.phase worker = before)
    (hhn : ∀ id item, state.items.get id = some item → Holds config before id item →
      Holds config phase id item) : BatchKept config (state.enter worker phase) where
  unique := hk.unique
  covered := covered_of_step hk.covered (fun _ => rfl) fun id item hi =>
    .inr (.inr ⟨hi, .inl, fun hh =>
      .inr ⟨worker, by rw [phase_enter_self]; exact hhn id item hi (hp ▸ hh)⟩⟩)

/-- A step that writes items: each is settled or in hand afterwards, or is not
written and stays in hand if it was. -/
theorem BatchKept.write (hrs : ∀ id item, items.get id = some item → ∃ row, state.items.get id =
    some row ∧ row.customId = item.customId ∧ ((row = item ∧
    (Holds config (state.phase worker) id item → Holds config phase id item)) ∨
    Settled state.jobs item ∨ Holds config phase id item)) : BatchKept config
    { state.enter worker phase with items } where
  unique id other row found hr hf hs := by
    obtain ⟨row, hr, hid, -⟩ := hrs id row hr
    obtain ⟨found, hf, ho, -⟩ := hrs other found hf
    exact hk.unique id other row found hr hf (hid.trans (hs.trans ho.symm))
  covered := covered_of_step hk.covered (fun _ => rfl) fun id item hi => by
    obtain ⟨row, hr, -, ⟨rfl, hhn⟩ | hse | hh⟩ := hrs id item hi
    · refine .inr (.inr ⟨hr, .inl, fun hh => .inr ⟨worker, ?_⟩⟩)
      rw [phase_enter_self]
      exact hhn hh
    · exact .inl hse
    · exact .inr (.inl hh)

theorem BatchKept.settle (hp : state.phase worker = before)
    (hs : ∀ item, Settled state.jobs (change item))
    (hc : ∀ item, (change item).customId = item.customId)
    (hh : ∀ id item, state.items.get id = some item → id ≠ target →
      Holds config before id item → Holds config phase id item) :
    BatchKept config { state.enter worker phase with
      items := state.items.update target change } := by
  apply hk.write
  intro id item hi
  rw [get_update] at hi
  split at hi
  · obtain ⟨row, hr, rfl⟩ := Option.map_eq_some_iff.mp hi
    exact ⟨row, hr, (hc row).symm, .inr (.inl (hs row))⟩
  · next hn => exact ⟨item, hi, rfl, .inl ⟨rfl, hp ▸ hh id item hi hn⟩⟩

end

omit [DecidableEq Worker] in
theorem get_updateItems (hi : (updateItems items ids change).get id = some item) :
    ∃ row, items.get id = some row ∧ (id ∈ ids ∧ item = change row ∨ id ∉ ids ∧ item = row) := by
  rw [updateItems, get_updateWhere] at hi
  obtain ⟨row, hr, rfl⟩ := Option.map_eq_some_iff.mp hi
  refine ⟨row, hr, ?_⟩
  by_cases hm : id ∈ ids <;> simp [Table.changed, hm]

omit [DecidableEq Worker] in
theorem get_markSubmitted (hi : (markSubmitted items jobId lines).get id = some item) :
    ∃ row, items.get id = some row ∧ row.customId = item.customId ∧
      (id ∈ lines.map Prod.fst ∧ item.status = .submitted ∧ item.jobId = some jobId ∨
        id ∉ lines.map Prod.fst ∧ item = row) := by
  induction lines generalizing items with
  | nil => exact ⟨item, hi, rfl, .inr ⟨not_mem_nil, rfl⟩⟩
  | cons line rest ih =>
    obtain ⟨row, hr, hc, ht⟩ := ih hi
    rw [get_update] at hr
    split at hr
    · next hl =>
      obtain ⟨before, hb, rfl⟩ := Option.map_eq_some_iff.mp hr
      refine ⟨before, hb, hc, .inl ⟨by simp [hl], ?_⟩⟩
      rcases ht with ⟨-, hm⟩ | ⟨-, rfl⟩
      · exact hm
      · exact ⟨rfl, rfl⟩
    · next hl =>
      refine ⟨row, hr, hc, ht.imp (fun hm => ⟨?_, hm.2⟩) fun hs => ⟨?_, hs.2⟩⟩
      · exact .tail _ hm.1
      · simpa [hl] using hs.1

omit [DecidableEq Worker] in
theorem itemByCustomId_eq_some (hf : itemByCustomId items customId = some id) :
    ∃ row, items.get id = some row ∧ row.customId = customId := by
  obtain ⟨e, he, rfl⟩ := Option.map_eq_some_iff.mp hf
  refine ⟨e.2, (mem_rows_iff _ _ _).mp (mem_of_find?_eq_some he), ?_⟩
  simpa using List.find?_some he

omit [DecidableEq Worker] in
theorem customId_ne_of_none (hn : itemByCustomId items customId = none)
    (hi : items.get id = some item) : item.customId ≠ customId := by
  have ha := List.find?_eq_none.mp (Option.map_eq_none_iff.mp hn) (id, item)
    ((mem_rows_iff _ _ _).mpr hi)
  simpa using ha

section

variable (hk : BatchKept config state)

include hk

theorem BatchKept.enqueue (hst : batchStep config state (.enqueue new tenantId observationId) =
    some after) : BatchKept config after := by
  dsimp only [batchStep] at hst
  split at hst
  · cases hst
    exact hk
  · obtain ⟨hfr, he⟩ := Option.ite_none_left_eq_some.mp hst
    cases he
    rw [not_or, any_iff] at hfr
    obtain ⟨-, hc⟩ := hfr
    have hd : ∀ id row, state.items.get id = some row →
        row.customId ≠ batchCustomId observationId :=
      fun id row hr hs => hc ⟨id, row, hr, decide_eq_true hs⟩
    refine ⟨fun id other row found hr hf hs => ?_, fun id item hi => ?_⟩
    · dsimp only at hr hf
      rw [get_put] at hr hf
      split at hr
      · next hid =>
        split at hf
        · next ho => exact hid.trans ho.symm
        · cases hr
          exact absurd hs.symm (hd other found hf)
      · split at hf
        · cases hf
          exact absurd hs (hd id row hr)
        · exact hk.unique id other row found hr hf hs
    · dsimp only at hi
      rw [get_put] at hi
      split at hi
      · cases hi
        exact .inl trivial
      · exact hk.covered id item hi

theorem BatchKept.claim (hid : state.phase worker = .idle) :
    BatchKept config { state.enter worker (.loading picked []) with
      items := updateItems state.items picked BatchItem.claim } := by
  apply hk.write
  intro id item hi
  obtain ⟨row, hr, ⟨hp, rfl⟩ | ⟨-, rfl⟩⟩ := get_updateItems hi
  · exact ⟨row, hr, rfl, .inr (.inr (.inl hp))⟩
  · refine ⟨item, hr, rfl, .inl ⟨rfl, fun hh => ?_⟩⟩
    rw [hid] at hh
    exact hh.elim

theorem BatchKept.reset (hp : state.phase worker = .resetting lines error) (limit : Nat) :
    BatchKept config { state.enter worker .idle with
      items := updateItems state.items (lines.map Prod.fst) (BatchItem.reset limit) } := by
  apply hk.write
  intro id item hi
  obtain ⟨row, hr, ⟨-, rfl⟩ | ⟨hn, rfl⟩⟩ := get_updateItems hi
  · exact ⟨row, hr, rfl, .inr (.inl (settled_reset _ _ _))⟩
  · refine ⟨item, hr, rfl, .inl ⟨rfl, fun hh => ?_⟩⟩
    rw [hp] at hh
    exact absurd hh hn

theorem BatchKept.mark (hp : state.phase worker = .recording lines providerBatchId status)
    (hop : OpenJob jobs jobId) (hj : ∀ other, OpenJob state.jobs other → OpenJob jobs other) :
    BatchKept config { state.enter worker .idle with
      items := markSubmitted state.items jobId lines
      jobs } where
  unique id other row found hr hf hs := by
    obtain ⟨row, hr, hid, -⟩ := get_markSubmitted hr
    obtain ⟨found, hf, ho, -⟩ := get_markSubmitted hf
    exact hk.unique id other row found hr hf (hid.trans (hs.trans ho.symm))
  covered := covered_of_step hk.covered (fun _ => rfl) fun id item hi => by
    obtain ⟨row, hr, -, ⟨-, hst, hjb⟩ | ⟨hn, rfl⟩⟩ := get_markSubmitted hi
    · left
      simp only [Settled, hst]
      exact ⟨jobId, hjb, hop⟩
    · refine .inr (.inr ⟨hr, fun hse => .inl ?_, fun hh => ?_⟩)
      · exact hse.mono fun other _ _ => hj other
      · rw [hp] at hh
        exact absurd hh hn

theorem BatchKept.record (hp : state.phase worker = .recording lines providerBatchId status)
    (hst : status ∈ openStatuses) (hs : state.record worker jobId lines providerBatchId status =
    some after) : BatchKept config after := by
  obtain ⟨-, hs⟩ := Option.ite_none_left_eq_some.mp hs
  split at hs
  · next existing hex =>
    cases hs
    obtain ⟨e, he, rfl⟩ := Option.map_eq_some_iff.mp hex
    have hj := (mem_rows_iff _ _ _).mp (mem_of_find?_eq_some he)
    refine hk.mark hp ?_ fun other ho => ?_
    · exact ⟨{ e.2 with status }, by rw [get_update, if_pos rfl, hj]; rfl, hst⟩
    · obtain ⟨job, hg, hop⟩ := ho
      unfold OpenJob
      rw [get_update]
      split
      · rw [hg]
        exact ⟨_, rfl, hst⟩
      · exact ⟨job, hg, hop⟩
  · obtain ⟨hf, heq⟩ := Option.ite_none_left_eq_some.mp hs
    cases heq
    refine hk.mark hp ⟨_, get_put_self .., hst⟩ fun other ho => ?_
    obtain ⟨job, hg, hop⟩ := ho
    refine ⟨job, ?_, hop⟩
    rw [get_put, if_neg, hg]
    rintro rfl
    rw [hg] at hf
    exact hf rfl

end

omit [DecidableEq Worker] in
theorem status_cases (hs : status ∈ jobStatuses) : status ∈ openStatuses ∨ status = "completed" ∨
      status ≠ "completed" ∧ status ∈ ["failed", "expired", "cancelled"] := by
  simp only [jobStatuses, openStatuses, mem_cons, not_mem_nil, or_false] at hs ⊢
  rcases hs with rfl | rfl | rfl | rfl | rfl | rfl | rfl | rfl | rfl <;> simp

section

variable (hk : BatchKept config state)

include hk

theorem BatchKept.updateJob (hp : state.phase worker = .updating job status outputFile rest)
    (hsd : BatchStands config state (.updateJob worker)) (hst : status ∈ jobStatuses) :
    BatchKept config { state.enter worker (afterUpdate job status outputFile rest) with
      jobs := state.jobs.update job fun row => { row with status } } where
  unique := hk.unique
  covered := covered_of_step hk.covered (fun _ => rfl) fun id item hi => by
    refine .inr (.inr ⟨hi, fun hse => ?_, fun hh => ?_⟩)
    · by_cases hours : item.status = .submitted ∧ item.jobId = some job
      · obtain ⟨hs, hjb⟩ := hours
        rcases status_cases hst with hop | rfl | ⟨hc, hf⟩
        · refine .inl (hse.mono fun jobId _ _ hj => ?_)
          obtain ⟨row, hr, hrw⟩ := hj
          unfold OpenJob
          rw [get_update]
          split
          · rw [hr]
            exact ⟨_, rfl, hop⟩
          · exact ⟨row, hr, hrw⟩
        · rcases hsd job outputFile rest hp id item hi hs hjb with
            ⟨file, hfl, hrp⟩ | ⟨other, ho, hh⟩
          · refine .inr ⟨worker, ?_⟩
            rw [phase_enter_self, afterUpdate, if_pos rfl, hfl]
            exact hrp
          · refine .inr ⟨other, ?_⟩
            rwa [phase_enter_ne _ ho]
        · refine .inr ⟨worker, ?_⟩
          rw [phase_enter_self, afterUpdate, if_neg hc, if_pos hf]
          exact ⟨hs, hjb⟩
      · refine .inl (hse.mono fun jobId hs hjb hj => ?_)
        obtain ⟨row, hr, hrw⟩ := hj
        refine ⟨row, ?_, hrw⟩
        rw [get_update, if_neg, hr]
        rintro rfl
        exact hours ⟨hs, hjb⟩
    · rw [hp] at hh
      exact hh.elim

theorem BatchKept.applyLine {line : String} {lines : List String} {rest : List Nat} {applied : Bool}
    (hp : state.phase worker = .applying (line :: lines) rest)
    (hst : batchStep config state (.applyLine worker applied) = some after) :
    BatchKept config after := by
  simp only [batchStep, hp] at hst
  split at hst
  · cases hst
  · next customId ha hpr =>
    have hln : ∀ item, Reports config line item → item.customId = customId := by
      intro item hrp
      rw [Reports, hpr] at hrp
      exact (Option.some.inj hrp).symm
    split at hst
    · next hn =>
      cases hst
      refine hk.enter hp fun id item hi ⟨found, hf, hrp⟩ => ?_
      rcases mem_cons.mp hf with rfl | hl
      · exact absurd (hln item hrp) (customId_ne_of_none hn hi)
      · exact ⟨found, hl, hrp⟩
    · next target ht =>
      cases hst
      obtain ⟨row, hr, hc⟩ := itemByCustomId_eq_some ht
      apply hk.settle hp
      · intro item
        split
        · exact settled_complete _ _
        · exact settled_fail _ _
      · intro item
        split <;> rfl
      · rintro id item hi hne ⟨found, hf, hrp⟩
        rcases mem_cons.mp hf with rfl | hl
        · have hs := (hln item hrp).trans hc.symm
          exact absurd (hk.unique id target item row hi hr hs) hne
        · exact ⟨found, hl, hrp⟩

theorem BatchKept.crash (hs : BatchStands config state (.crash worker)) : BatchKept config
    (state.enter worker .idle) where
  unique := hk.unique
  covered := covered_of_step hk.covered (fun _ => rfl) fun id item hi => by
    refine .inr (.inr ⟨hi, .inl, fun hh => ?_⟩)
    rcases hs id item hi hh with hse | ⟨other, ho, hhd⟩
    · exact .inl hse
    · refine .inr ⟨other, ?_⟩
      rwa [phase_enter_ne _ ho]

theorem BatchKept.step (hsd : BatchStands config state action) (hs : batchStep config state action =
    some after) : BatchKept config after := by
  cases action <;> dsimp only [batchStep] at hs
  case enqueue => exact hk.enqueue hs
  case claim worker picked =>
    split at hs
    · next hid =>
      obtain ⟨-, he⟩ := Option.ite_none_right_eq_some.mp hs
      cases he
      exact hk.claim hid
    · cases hs
  case load worker sourceChars =>
    split at hs
    · next id rest lines hp =>
      cases hs
      refine hk.settle hp (settled_fail _) (fun _ => rfl) fun other item _ hn hh => ?_
      exact hh.imp_left fun hm => (mem_cons.mp hm).resolve_left hn
    · next id rest lines chars hp =>
      cases hs
      refine hk.enter hp fun other item _ hh => ?_
      simp only [Holds, mem_cons, map_append, mem_append, map_cons,
        map_nil, not_mem_nil, or_false] at hh ⊢
      tauto
    · cases hs
  case submit worker r =>
    split at hs
    · next hp =>
      cases hs
      refine hk.enter hp fun other item _ hh => ?_
      exact hh.resolve_left not_mem_nil
    · next hp =>
      cases hs
      refine hk.enter hp fun other item _ hh => ?_
      exact hh.resolve_left not_mem_nil
    · cases hs
  case resetClaim worker =>
    split at hs
    · next hp =>
      cases hs
      exact hk.reset hp _
    · cases hs
  case record worker jobId =>
    split at hs
    · next hp => exact hk.record hp (hsd _ _ _ hp) hs
    · cases hs
  case selectJobs worker picked =>
    split at hs
    · next hid =>
      obtain ⟨-, he⟩ := Option.ite_none_right_eq_some.mp hs
      cases he
      exact hk.enter hid fun _ _ _ hh => hh
    · cases hs
  case retrieve worker status outputFile =>
    split at hs
    · next hp =>
      cases hs
      exact hk.enter hp fun _ _ _ hh => hh
    · cases hs
  case updateJob worker =>
    split at hs
    · next hp =>
      obtain ⟨hst, he⟩ := Option.ite_none_right_eq_some.mp hs
      cases he
      exact hk.updateJob hp hsd hst
    · cases hs
  case readFile worker =>
    split at hs
    · next hp =>
      cases hs
      exact hk.enter hp fun _ _ _ hh => hh
    · cases hs
  case applyLine worker applied =>
    cases hp : state.phase worker with
    | applying lines rest =>
      cases lines with
      | nil => simp [hp] at hs
      | cons line lines => exact hk.applyLine hp hs
    | _ => simp [hp] at hs
  case listItems worker =>
    split at hs
    · next hp =>
      cases hs
      refine hk.enter hp fun id item hi hh => ?_
      refine mem_map.mpr ⟨(id, item), mem_filter.mpr ⟨?_, ?_⟩, rfl⟩
      · exact (mem_rows_iff _ _ _).mpr hi
      · exact decide_eq_true ⟨hh.2, hh.1⟩
    · cases hs
  case failItem worker =>
    split at hs
    · next hp =>
      cases hs
      refine hk.settle hp (settled_fail _) (fun _ => rfl) fun other item _ hn hh => ?_
      exact (mem_cons.mp hh).resolve_left hn
    · cases hs
  case proceed worker =>
    split at hs
    · next hp =>
      cases hs
      exact hk.enter hp fun _ _ _ hh => by simp [Holds] at hh
    · next hp =>
      cases hs
      exact hk.enter hp fun _ _ _ hh => hh
    · next hp =>
      cases hs
      exact hk.enter hp fun _ _ _ hh => by simp [Holds] at hh
    · next hp =>
      cases hs
      exact hk.enter hp fun _ _ _ hh => by simp [Holds] at hh
    · cases hs
  case crash worker =>
    cases hs
    exact hk.crash hsd

end

/-- In every run that meets the condition, no item is stranded. -/
theorem none_stranded
    (hreach : Reach (batchStep config) (BatchStands config) ({} : BatchState Worker) state) :
    NoneStranded state := by
  have hkept : BatchKept config state := by
    apply hreach.invariant
    · constructor
      · intro _ _ _ _ hrow
        cases hrow
      · intro _ _ hitem
        cases hitem
    · exact fun _ _ _ hkept => hkept.step
  exact hkept.noneStranded

end Steps

def oneLine : BatchConfig where
  reader :=
    { loads := fun _ => some (.object [("custom_id", .string "summarization:5"),
        ("response", .object [("status_code", .number "200"),
          ("body", .object [("output_text", .string "short")])])])
      int := fun _ => some 200
      parsesSummary := fun _ => true }
  files file := if file = "done.jsonl" then ["line"] else []

def completedWith (outputFile : String) : List (BatchAction Unit) :=
  [.enqueue 0 7 5, .claim () [0], .load () (some 9000), .submit () (.ok ("batch_1", "validating")),
    .record () 0, .selectJobs () [0], .retrieve () "completed" (some outputFile), .updateJob (),
    .readFile ()]

def strandsNothing (config : BatchConfig) (state : BatchState Unit) : BatchAction Unit → Bool
  | .record () _ =>
    match state.phase () with
    | .recording _ _ status => openStatuses.contains status
    | _ => true
  | .updateJob () =>
    match state.phase () with
    | .updating _ _ outputFile _ => state.items.rows.all fun entry =>
        (outputFile.filter (· ≠ "")).any fun file => (outputLines config file).any fun line =>
          (parseBatchOutputLine config.reader line).map Prod.fst == some entry.2.customId
    | _ => true
  | .crash () => false
  | _ => true

theorem batchStands_of_strandsNothing {state : BatchState Unit}
    (hc : strandsNothing config state action) : BatchStands config state action := by
  cases action with
  | record worker jobId =>
    intro lines providerBatchId status hp
    simpa [strandsNothing, show state.phase () = _ from hp] using hc
  | updateJob worker =>
    intro job outputFile rest hp id item hi _ _
    simp only [strandsNothing, show state.phase () = _ from hp, all_eq_true] at hc
    have hr := hc (id, item) ((mem_rows_iff _ _ _).mpr hi)
    obtain ⟨file, hf, ha⟩ := (Option.any_eq_true _ _).mp hr
    obtain ⟨line, hl, hs⟩ := any_eq_true.mp ha
    exact .inl ⟨file, hf, line, hl, beq_iff_eq.mp hs⟩
  | crash worker => cases hc
  | _ => trivial

def isIdle (state : BatchState Unit) : Bool :=
  match state.phase () with
  | .idle => true
  | _ => false

theorem none_stranded_one_item : ∃ state : BatchState Unit,
    Reach (batchStep oneLine) (BatchStands oneLine) {} state ∧ isIdle state ∧
      (state.items.get 0).map BatchItem.status = some .completed ∧ NoneStranded state := by
  have hrun : (runChecked (batchStep oneLine) (strandsNothing oneLine) {}
      (completedWith "done.jsonl" ++ [.applyLine () true, .proceed (), .proceed ()])).any
        (fun state => isIdle state &&
          (state.items.get 0).map BatchItem.status == some .completed) := by
    decide +kernel
  obtain ⟨state, hstate, hcheck⟩ := (Option.any_eq_true _ _).mp hrun
  obtain ⟨hidle, hcompleted⟩ := Bool.and_eq_true_iff.mp hcheck
  have hreach : Reach (batchStep oneLine) (BatchStands oneLine) {} state :=
    reach_of_runChecked (fun _ _ => batchStands_of_strandsNothing) hstate
  exact ⟨state, hreach, hidle, beq_iff_eq.mp hcompleted, none_stranded hreach⟩

/-- The job is completed, and its output file omits the item. -/
theorem omitted_item_stranded : ¬ ∀ (config : BatchConfig) (state : BatchState Unit),
    Reach (batchStep config) anyStep {} state → NoneStranded state := by
  have hrun : (runAll (batchStep oneLine) {}
      (completedWith "partial.jsonl" ++ [.proceed (), .proceed ()])).any (fun state =>
        isIdle state && (state.items.get 0).any (fun item =>
          item.status == .submitted && item.jobId == some 0) &&
            (state.jobs.get 0).any fun job => !openStatuses.contains job.status) := by
    decide +kernel
  obtain ⟨state, hstate, hcheck⟩ := (Option.any_eq_true _ _).mp hrun
  simp only [Bool.and_eq_true, Option.any_eq_true, beq_iff_eq, Bool.not_eq_true',
    contains_eq_mem, decide_eq_false_iff_not] at hcheck
  obtain ⟨⟨hidle, item, hitem, hstatus, hjob⟩, job, hget, hclosed⟩ := hcheck
  intro hall
  have hphase : ∀ worker, state.phase worker = .idle := by
    rintro ⟨⟩
    unfold isIdle at hidle
    split at hidle
    · assumption
    · cases hidle
  have hsettled := hall oneLine state (reach_of_run hstate) hphase 0 item hitem
  simp only [Settled, hstatus] at hsettled
  obtain ⟨jobId, hsome, found, hfound, hopen⟩ := hsettled
  cases hjob.symm.trans hsome
  cases hget.symm.trans hfound
  exact hclosed hopen

end FyralisCore.Ingestion.Batch
