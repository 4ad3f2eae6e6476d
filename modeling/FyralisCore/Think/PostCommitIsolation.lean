import FyralisCore.Think.PostCommit

/-! What a batch of post-commit actions leaves in the queue: when the outcome of
each handler is recorded on its own row, and when one handler takes the records
of the whole batch with it. -/
namespace FyralisCore.Think.PostCommit

open Relational Connection Table List Session

variable {W : Type} {dispatchers : Dispatchers W} {now : Rat} {actions before current : Table Nat ActionRow}

/-- Each handler that ran has its outcome on the row of its action. -/
structure Isolated (before after : Table Nat ActionRow)
    (dispatched : List (PendingAction × Except Raised Unit)) : Prop where
  succeeded : ∀ action, (action, .ok ()) ∈ dispatched →
    ∃ row, after.get action.id = some row ∧ row.processedAt.isSome
  failed : ∀ action raised, (action, .error raised) ∈ dispatched →
    ∃ row afterRow, before.get action.id = some row ∧ after.get action.id = some afterRow ∧
      (afterRow.attempts = row.attempts + 1 ∨
        (maxAttempts ≤ row.attempts + 1 ∧ afterRow.deadLetteredAt.isSome))

/-- The bookkeeping statements accept the outcome: no other row of the action was
processed at this time, the exception is one that the loop catches, and its text
can be stored. -/
def recordable (now : Rat) (actions : Table Nat ActionRow) (id : Nat) : Except Raised Unit → Bool
  | .ok () => !processedTwice actions now id
  | .error (.exit _) => false
  | .error (.exception typeName message) => storable (clip (errorText typeName message))

/-- Each handler, run after the ones before it, leaves the transaction open and an
outcome that can be recorded. -/
def KeepsTransaction (dispatchers : Dispatchers W) (now : Rat) (actions : Table Nat ActionRow) :
    W → List PendingAction → Prop
  | _, [] => True
  | others, action :: rest =>
    let (outcome, conn) := dispatchAction dispatchers action { state := others }
    conn.aborted = false ∧ recordable now actions action.id outcome ∧
      KeepsTransaction dispatchers now actions conn.state rest

def PostCommitDedup (actions : Table Nat ActionRow) : Prop :=
  ∀ id row other otherRow, actions.get id = some row → actions.get other = some otherRow →
    otherRow.sameAction row → otherRow.processedAt = row.processedAt → other = id

def ActionRow.settled (now : Rat) (row : ActionRow) : Except Raised Unit → ActionRow
  | .ok () => row.processed now
  | .error (.exit _) => row
  | .error (.exception typeName message) =>
    let error := errorText typeName message
    let retried := row.retried now error
    if maxAttempts ≤ row.attempts + 1 then
      retried.deadLettered now ("exceeded max attempts (" ++ toString maxAttempts ++ "): " ++ error)
    else retried

theorem storable_clip_append (h1 : storable first)
    (ht : storable (clip rest)) : storable (clip (first ++ rest)) := by
  simp only [storable, clip, String.toList_ofList, String.toList_append, decide_eq_true_eq]
    at h1 ht ⊢
  rw [take_append]
  intro hm
  rcases mem_append.mp hm with hm | hm
  · exact h1 (mem_of_mem_take hm)
  · exact ht (take_subset_take_left _ (Nat.sub_le _ _) hm)

variable {error : String} {id : Nat} {outcome : Except Raised Unit} {row : ActionRow}
  {action : PendingAction}

theorem storable_deadLetter (he : storable (clip error)) :
    storable (clip ("exceeded max attempts (" ++ toString maxAttempts ++ "): " ++ error)) :=
  storable_clip_append (by decide) he

/-- The outcome is on the action's row and the other rows are as they were. -/
structure SettledAt (now : Rat) (id : Nat) (outcome : Except Raised Unit)
    (actions after : Table Nat ActionRow) : Prop where
  self : after.get id = (actions.get id).map fun row => row.settled now outcome
  others : ∀ other ≠ id, after.get other = actions.get other

theorem settledAt_update
    (hc : ∀ row, actions.get id = some row → change row = row.settled now outcome) :
    SettledAt now id outcome actions (actions.update id change) where
  self := by
    rw [get_update, if_pos rfl]
    cases hr : actions.get id with
    | none => rfl
    | some row => exact congrArg some (hc row hr)
  others other ho := by rw [get_update, if_neg ho]

theorem bookkeeping_aborted (action : PendingAction) (stats : WorkerStats)
    (outcome : Except Raised Unit) (db : QueueDb W) :
    ∃ error conn, bookkeeping now action stats outcome { state := db, aborted := true } =
      (.error error, conn) := by
  rcases outcome with ⟨typeName, message⟩ | typeName | _
  · exact ⟨_, _, rfl⟩
  · exact ⟨_, _, rfl⟩
  · exact ⟨_, _, rfl⟩

theorem incrementAttempts_stored (others : W) (hr : actions.get id = some row)
    (ht : storable (clip error)) :
    incrementAttempts now id error { state := { actions, others } } = (.ok (row.attempts + 1),
        { state := { actions := actions.update id (ActionRow.retried now error), others } }) := by
  unfold incrementAttempts
  refine (bind_of_ok (statement_of_ok (congrArg _ (congrArg _ hr)))).trans ?_
  exact bind_of_ok (statement_of_ok (if_pos ht))

theorem incrementAttempts_refused (others : W) (hr : actions.get id = some row)
    (ht : ¬ storable (clip error)) :
    incrementAttempts now id error { state := { actions, others } } =
      (.error characterNotInRepertoire, { state := { actions, others }, aborted := true }) := by
  unfold incrementAttempts
  refine (bind_of_ok (statement_of_ok (congrArg _ (congrArg _ hr)))).trans ?_
  exact bind_of_error (statement_of_error (if_neg ht))

theorem bookkeeping_refused (stats : WorkerStats) (others : W)
    (hr : actions.get action.id = some row)
    (hrf : recordable now actions action.id outcome = false) :
    ∃ error conn, bookkeeping now action stats outcome { state := { actions, others } } =
      (.error error, conn) := by
  rcases outcome with ⟨typeName, message⟩ | typeName | _
  · have htx : ¬ storable (clip (errorText typeName message)) := ne_true_of_eq_false hrf
    have hi : incrementAttempts now _ _ _ = _ := incrementAttempts_refused others hr htx
    exact ⟨_, _, bind_of_error (bind_of_error hi)⟩
  · exact ⟨_, _, rfl⟩
  · have ht : processedTwice actions now action.id := by
      simpa [recordable] using hrf
    exact ⟨_, _, bind_of_error (statement_of_error (if_pos ht))⟩

/-- The except branch leaves the failure on the row, and the row in the dead
letter state once its attempts are used up. -/
theorem recordFailure_stored (others : W) (hr : actions.get id = some row)
    (ht : storable (clip (errorText typeName message))) :
    ∃ t, SettledAt now id (.error (.exception typeName message)) actions t ∧
      recordFailure now id (errorText typeName message) { state := { actions, others } } =
        (.ok (row.attempts + 1), { state := { actions := t, others } }) := by
  have hi : incrementAttempts now _ _ _ = _ := incrementAttempts_stored others hr ht
  by_cases hl : maxAttempts ≤ row.attempts + 1
  · refine ⟨(actions.update id (ActionRow.retried now (errorText typeName message))).update id
      (ActionRow.deadLettered now ("exceeded max attempts (" ++ toString maxAttempts ++ "): " ++
        errorText typeName message)), ⟨?_, fun other ho => ?_⟩, ?_⟩
    · simp [get_update, hr, Option.map_some, ActionRow.settled, if_pos hl]
    · simp [get_update, if_neg ho]
    · refine (bind_of_ok hi).trans ?_
      rw [if_pos hl]
      exact bind_of_ok (statement_of_ok (if_pos (storable_deadLetter ht)))
  · refine ⟨actions.update id (ActionRow.retried now (errorText typeName message)),
      settledAt_update fun found hf => ?_, ?_⟩
    · cases hr.symm.trans hf
      simp [ActionRow.settled, if_neg hl]
    · refine (bind_of_ok hi).trans ?_
      rw [if_neg hl]
      rfl

theorem bookkeeping_recorded (stats : WorkerStats) (others : W)
    (hr : actions.get action.id = some row)
    (hrc : recordable now actions action.id outcome) :
    ∃ settledStats t, SettledAt now action.id outcome actions t ∧
      bookkeeping now action stats outcome { state := { actions, others } } =
        (.ok settledStats, { state := { actions := t, others } }) := by
  rcases outcome with ⟨typeName, message⟩ | typeName | _
  · obtain ⟨t, hs, hrcd⟩ := recordFailure_stored others hr hrc
    by_cases hl : maxAttempts ≤ row.attempts + 1
    · refine ⟨{ stats with deadLettered := stats.deadLettered + 1 }, t, hs,
        (bind_of_ok hrcd).trans ?_⟩
      rw [if_pos hl]
      rfl
    · refine ⟨{ stats with failed := stats.failed + 1 }, t, hs, (bind_of_ok hrcd).trans ?_⟩
      rw [if_neg hl]
      rfl
  · cases hrc
  · have ho : ¬ processedTwice actions now action.id := by
      simpa [recordable] using hrc
    exact ⟨_, _, settledAt_update fun _ _ => rfl, bind_of_ok (statement_of_ok (if_neg ho))⟩

/-- Rows that a poll can lease: still pending, each once. -/
structure Leased (actions : Table Nat ActionRow) (batch : List PendingAction) : Prop where
  nodup : (batch.map PendingAction.id).Nodup
  due : ∀ action ∈ batch, ∃ row, actions.get action.id = some row ∧ row.processedAt = none ∧
    row.deadLetteredAt = none

/-- Between two passes of the loop: each outcome so far is on its row, no other
row has changed, and the actions that remain have not been reached. -/
structure Progress (now : Rat) (before current : Table Nat ActionRow)
    (dispatched : List (PendingAction × Except Raised Unit)) (remaining : List PendingAction) :
    Prop where
  leased : Leased before remaining
  settled : ∀ entry ∈ dispatched,
    current.get entry.1.id = (before.get entry.1.id).map fun row => row.settled now entry.2
  caught : ∀ entry ∈ dispatched, ∀ typeName, entry.2 ≠ .error (.exit typeName)
  wasDue : ∀ entry ∈ dispatched, ∃ row, before.get entry.1.id = some row ∧
    row.processedAt = none
  kept : ∀ id, (∀ entry ∈ dispatched, entry.1.id ≠ id) → current.get id = before.get id
  fresh : ∀ action ∈ remaining, ∀ entry ∈ dispatched, entry.1.id ≠ action.id

theorem processedTwice_iff :
    processedTwice actions now id ↔ ∃ row other otherRow, actions.get id = some row ∧
      actions.get other = some otherRow ∧ other ≠ id ∧ otherRow.sameAction row ∧
        otherRow.processedAt = some now := by
  simp only [processedTwice, Option.any_eq_true, any_iff, Bool.and_eq_true,
    decide_eq_true_eq, and_assoc]
  constructor
  · rintro ⟨row, hr, other, otherRow, ho, hn, hs, hp⟩
    exact ⟨row, other, otherRow, hr, ho, hn, hs, hp⟩
  · rintro ⟨row, other, otherRow, hr, ho, hn, hs, hp⟩
    exact ⟨row, hr, other, otherRow, ho, hn, hs, hp⟩

theorem ActionRow.settled_sameAction (row other : ActionRow) (outcome : Except Raised Unit) :
    (row.settled now outcome).sameAction other = row.sameAction other := by
  rcases outcome with ⟨typeName, message⟩ | typeName | _
  · unfold ActionRow.settled
    dsimp only
    split <;> rfl
  · rfl
  · rfl

section

variable {dispatched : List (PendingAction × Except Raised Unit)} {action : PendingAction}
  {remaining : List PendingAction}

theorem Progress.head_row (hpr : Progress now before current dispatched (action :: remaining)) :
    ∃ row, current.get action.id = some row ∧ before.get action.id = some row ∧
      row.processedAt = none := by
  obtain ⟨row, hr, hp, -⟩ := hpr.leased.due action (.head _)
  refine ⟨row, ?_, hr, hp⟩
  rw [hpr.kept action.id (hpr.fresh action (.head _)), hr]

/-- The rows of this batch are not rows of the same action, so whether an outcome
can be recorded is decided by the table before the batch. -/
theorem Progress.recordable_eq (hu : PostCommitDedup before)
    (hprg : Progress now before current dispatched (action :: remaining))
    (outcome : Except Raised Unit) :
    recordable now current action.id outcome = recordable now before action.id outcome := by
  obtain ⟨row, hc, hb, hp⟩ := hprg.head_row
  rcases outcome with ⟨typeName, message⟩ | typeName | _
  · rfl
  · rfl
  · refine congrArg not (Bool.eq_iff_iff.mpr ?_)
    rw [processedTwice_iff, processedTwice_iff]
    simp only [hc, hb, Option.some.injEq, exists_and_left, exists_eq_left']
    refine exists_congr fun other => ?_
    by_cases hd : ∀ e ∈ dispatched, e.1.id ≠ other
    · rw [hprg.kept other hd]
    · push Not at hd
      obtain ⟨e, he, rfl⟩ := hd
      obtain ⟨entryRow, hent, hen⟩ := hprg.wasDue e he
      rw [hprg.settled e he, hent]
      constructor
      · rintro ⟨settledRow, hse, hn, hs, -⟩
        cases hse
        rw [ActionRow.settled_sameAction] at hs
        exact absurd (hu _ _ _ _ hb hent hs (hen.trans hp.symm)) hn
      · rintro ⟨otherRow, ho, -, -, hpr⟩
        cases ho
        rw [hen] at hpr
        cases hpr

variable {outcome : Except Raised Unit}

theorem Progress.next (hpr : Progress now before current dispatched (action :: remaining))
    (hcg : ∀ typeName, outcome ≠ .error (.exit typeName))
    (hs : SettledAt now action.id outcome current t) :
    Progress now before t ((action, outcome) :: dispatched) remaining := by
  obtain ⟨row, hc, hb, hp⟩ := hpr.head_row
  have hnd := hpr.leased.nodup
  rw [map_cons, nodup_cons] at hnd
  have hf := hpr.fresh action (.head _)
  constructor
  · exact ⟨hnd.2, fun other ho => hpr.leased.due other (.tail _ ho)⟩
  · intro e he
    rcases mem_cons.mp he with rfl | he
    · rw [hs.self, hc, hb]
    · rw [hs.others e.1.id (hf e he), hpr.settled e he]
  · intro e he
    rcases mem_cons.mp he with rfl | he
    · exact hcg
    · exact hpr.caught e he
  · intro e he
    rcases mem_cons.mp he with rfl | he
    · exact ⟨row, hb, hp⟩
    · exact hpr.wasDue e he
  · intro id hn
    have hne : id ≠ action.id := fun heq => hn (action, outcome) (.head _) heq.symm
    rw [hs.others id hne]
    exact hpr.kept id fun e he => hn e (.tail _ he)
  · intro other ho e he
    rcases mem_cons.mp he with rfl | he
    · intro heq
      exact hnd.1 (heq ▸ mem_map_of_mem ho)
    · exact hpr.fresh other (.tail _ ho) e he

theorem processAction_kept (stats : WorkerStats) (hu : PostCommitDedup before)
    (hp : Progress now before current dispatched (action :: remaining))
    (hd : dispatchAction dispatchers action { state := others } = (outcome, conn))
    (ho : conn.aborted = false) (hr : recordable now before action.id outcome) :
    ∃ settledStats t, Progress now before t ((action, outcome) :: dispatched) remaining ∧
      processAction dispatchers now action
          { conn := { state := { actions := current, others } }, stats, dispatched } =
        (.ok (), { conn := { state := { actions := t, others := conn.state } },
                   stats := settledStats, dispatched := (action, outcome) :: dispatched }) := by
  obtain ⟨row, hc, -⟩ := hp.head_row
  rw [← hp.recordable_eq hu] at hr
  obtain ⟨settledStats, t, hs, hb⟩ :=
    bookkeeping_recorded stats conn.state hc hr
  have hcg : ∀ typeName, outcome ≠ .error (.exit typeName) := by
    rintro typeName rfl
    cases hr
  refine ⟨settledStats, t, hp.next hcg hs, ?_⟩
  unfold processAction onOthers within
  simp [hd, ho, hb]

theorem processAction_broken (stats : WorkerStats) (huq : PostCommitDedup before)
    (hp : Progress now before current dispatched (action :: remaining))
    (hd : dispatchAction dispatchers action { state := others } = (outcome, conn))
    (hbr : ¬ (conn.aborted = false ∧ recordable now before action.id outcome)) :
    ∃ error batch, processAction dispatchers now action
        { conn := { state := { actions := current, others } }, stats, dispatched } =
          (.error error, batch) ∧ batch.dispatched = (action, outcome) :: dispatched := by
  obtain ⟨row, hc, -⟩ := hp.head_row
  have hrf : ∃ error t, bookkeeping now action stats outcome
      { state := { actions := current, others := conn.state }, aborted := conn.aborted } =
        (.error error, t) := by
    cases ha : conn.aborted with
    | true => exact bookkeeping_aborted action stats outcome _
    | false =>
      have hu : recordable now current action.id outcome = false := by
        rw [hp.recordable_eq huq]
        exact Bool.eq_false_iff.mpr fun hr => hbr ⟨ha, hr⟩
      exact bookkeeping_refused stats conn.state hc hu
  obtain ⟨error, t, hb⟩ := hrf
  refine ⟨error, { conn := t, stats, dispatched := (action, outcome) :: dispatched }, ?_, rfl⟩
  unfold processAction onOthers within
  simp [hd, hb]

end

variable {batch : List PendingAction} {dispatched : List (PendingAction × Except Raised Unit)}

section

variable (stats : WorkerStats) (hu : PostCommitDedup before)
  (hpr : Progress now before current dispatched batch)

include hu hpr

theorem processActions_kept (hk : KeepsTransaction dispatchers now before others batch) :
    ∃ t last, processActions dispatchers now batch
        { conn := { state := { actions := current, others } }, stats, dispatched } =
          (.ok (), last) ∧ last.conn.aborted = false ∧ last.conn.state.actions = t ∧
            Progress now before t last.dispatched [] := by
  induction batch generalizing current others dispatched stats with
  | nil => exact ⟨current, _, rfl, rfl, rfl, hpr⟩
  | cons action rest ih =>
    obtain ⟨ho, hr, ht⟩ := hk
    obtain ⟨settledStats, t, hn, hp⟩ := processAction_kept stats hu hpr rfl ho hr
    obtain ⟨final, last, hlp, hl⟩ := ih settledStats hn ht
    refine ⟨final, last, ?_, hl⟩
    unfold processActions
    rw [hp]
    exact hlp

theorem processActions_broken (hb : ¬ KeepsTransaction dispatchers now before others batch) :
    ∃ error last, processActions dispatchers now batch
        { conn := { state := { actions := current, others } }, stats, dispatched } =
          (.error error, last) ∧
            ∃ action ∈ batch, ∃ outcome, (action, outcome) ∈ last.dispatched := by
  induction batch generalizing current others dispatched stats with
  | nil => exact absurd trivial hb
  | cons action rest ih =>
    rcases hd : dispatchAction dispatchers action { state := others } with ⟨outcome, conn⟩
    by_cases hk : conn.aborted = false ∧ recordable now before action.id outcome
    · obtain ⟨settledStats, t, hn, hp⟩ := processAction_kept stats hu hpr hd hk.1 hk.2
      have ht : ¬ KeepsTransaction dispatchers now before conn.state rest := by
        intro ht
        refine hb ?_
        unfold KeepsTransaction
        rw [hd]
        exact ⟨hk.1, hk.2, ht⟩
      obtain ⟨error, last, hlp, found, hf, he⟩ := ih settledStats hn ht
      refine ⟨error, last, ?_, found, mem_cons_of_mem _ hf, he⟩
      unfold processActions
      rw [hp]
      exact hlp
    · obtain ⟨error, last, hp, hl⟩ := processAction_broken stats hu hpr hd hk
      refine ⟨error, last, ?_, action, .head _, outcome, hl ▸ mem_cons_self⟩
      unfold processActions
      rw [hp]

end

theorem leased_fetchPendingActions (locked : Nat → Bool) (limit : Nat) (tenantId : Option Nat) :
    Leased actions (fetchPendingActions now locked limit tenantId actions) := by
  have hs : ∀ e ∈ (((actions.rows.filter fun e =>
      e.2.isDue now tenantId && !locked e.1).insertionSort fun first second =>
        first.2.scheduledAt ≤ second.2.scheduledAt).take limit),
      e ∈ actions.rows ∧ e.2.isDue now tenantId := by
    intro e he
    have hsr := (mem_insertionSort _).mp (mem_of_mem_take he)
    have hf := mem_filter.mp hsr
    exact ⟨hf.1, (Bool.and_eq_true_iff.mp hf.2).1⟩
  constructor
  · unfold fetchPendingActions
    rw [map_map]
    refine List.Nodup.sublist ((take_sublist _ _).map _) ?_
    refine ((perm_insertionSort _ _).map _).nodup_iff.mpr ?_
    exact actions.nodup_primaryKeys.sublist (filter_sublist.map _)
  · intro action ha
    obtain ⟨⟨id, row⟩, he, rfl⟩ := mem_map.mp ha
    obtain ⟨hr, hd⟩ := hs _ he
    simp only [ActionRow.isDue, Bool.and_eq_true, Option.isNone_iff_eq_none] at hd
    exact ⟨row, (actions.mem_rows_iff _ _).mp hr, hd.1.1.2, hd.1.2⟩

theorem ActionRow.settled_exception (row : ActionRow) (typeName message : String) :
    (row.settled now (.error (.exception typeName message))).attempts = row.attempts + 1 := by
  unfold ActionRow.settled
  dsimp only
  split <;> rfl

theorem Progress.isolated
    (hp : Progress now before t dispatched []) : Isolated before t dispatched := by
  constructor
  · intro action he
    obtain ⟨row, hr, -⟩ := hp.wasDue _ he
    have hs := hp.settled _ he
    rw [hr] at hs
    exact ⟨_, hs, rfl⟩
  · intro action raised he
    obtain ⟨row, hr, -⟩ := hp.wasDue _ he
    have hs := hp.settled _ he
    rw [hr] at hs
    rcases raised with ⟨typeName, message⟩ | typeName
    · exact ⟨row, _, hr, hs, .inl (row.settled_exception typeName message)⟩
    · exact absurd rfl (hp.caught _ he typeName)

theorem not_isolated_of_unchanged (hl : Leased before batch) (hac : action ∈ batch)
    (he : (action, outcome) ∈ dispatched) : ¬ Isolated before before dispatched := by
  intro hi
  obtain ⟨row, hr, hp, hal⟩ := hl.due action hac
  rcases outcome with raised | _
  · obtain ⟨found, t, hf, ha, hfl⟩ := hi.failed action raised he
    cases hr.symm.trans hf
    cases hr.symm.trans ha
    rcases hfl with hat | ⟨-, hd⟩
    · omega
    · rw [hal] at hd
      cases hd
  · obtain ⟨t, ha, hpr⟩ := hi.succeeded action he
    cases hr.symm.trans ha
    rw [hp] at hpr
    cases hpr

theorem processBatch_of_loop (hl : processActions dispatchers now
      (fetchPendingActions now locked limit tenantId db.actions)
      { conn := { state := db }, stats := { stats with iterations := stats.iterations + 1 } } =
        (result, last)) : processBatch dispatchers now locked limit tenantId stats db =
      { result, db := last.conn.ended db result, stats := last.stats,
        dispatched := last.dispatched } := by
  unfold processBatch
  simp [hl]

/-- After a call every handler that ran has its outcome recorded, just when each
of them has kept the shared transaction open and its outcome storable. -/
theorem process_batch_isolated_iff {db : QueueDb W} (dispatchers : Dispatchers W) (now : Rat)
    (locked : Nat → Bool) (limit : Nat) (tenantId : Option Nat) (stats : WorkerStats)
    (hunique : PostCommitDedup db.actions) :
    Isolated db.actions (processBatch dispatchers now locked limit tenantId stats db).db.actions
        (processBatch dispatchers now locked limit tenantId stats db).dispatched ↔
      KeepsTransaction dispatchers now db.actions db.others
        (fetchPendingActions now locked limit tenantId db.actions) := by
  have hleased : Leased db.actions (fetchPendingActions now locked limit tenantId db.actions) :=
    leased_fetchPendingActions locked limit tenantId
  have hstart : Progress now db.actions db.actions []
      (fetchPendingActions now locked limit tenantId db.actions) :=
    ⟨hleased, by simp, by simp, by simp, fun _ _ => rfl, by simp⟩
  constructor
  · intro hisolated
    by_contra hbroken
    obtain ⟨error, last, hloop, action, haction, outcome, hentry⟩ :=
      processActions_broken { stats with iterations := stats.iterations + 1 } hunique hstart hbroken
    rw [processBatch_of_loop hloop] at hisolated
    exact not_isolated_of_unchanged hleased haction hentry hisolated
  · intro hkeeps
    obtain ⟨after, last, hloop, hopen, rfl, hdone⟩ :=
      processActions_kept { stats with iterations := stats.iterations + 1 } hunique hstart hkeeps
    rw [processBatch_of_loop hloop]
    simp only [Conn.ended, hopen]
    exact hdone.isolated

def twoActions : QueueDb Unit where
  actions := ((∅ : Table Nat ActionRow).put 1
    { tenantId := 0, triggerId := 7, actionKind := .broadcastRealtime, actionPayload := .null,
      createdAt := 0, scheduledAt := 0 }).put 2
    { tenantId := 0, triggerId := 7, actionKind := .discoverModelEdges, actionPayload := .null,
      createdAt := 0, scheduledAt := 1 }
  others := ()

/-- Every handler returns, but a statement of the edge discovery fails. -/
def failingDiscovery : Dispatchers Unit
  | .discoverModelEdges => some fun _ _ _ =>
    .statement inFailedTransaction fun _ => .error (.exception "UndefinedTableError" "")
  | _ => some fun _ _ _ => pure ()

theorem postCommitDedup_twoActions : PostCommitDedup twoActions.actions := by
  intro id row other otherRow hr ho hs _
  have hi := (twoActions.actions.mem_rows_iff id row).mpr hr
  have hoth := (twoActions.actions.mem_rows_iff other otherRow).mpr ho
  have hrs : twoActions.actions.rows.map (fun e => (e.1, e.2.actionKind)) =
      [(2, .discoverModelEdges), (1, .broadcastRealtime)] := by decide +kernel
  have hk : otherRow.actionKind = row.actionKind := by
    simpa [ActionRow.sameAction] using (Bool.and_eq_true_iff.mp hs).2
  have hm := mem_map_of_mem (f := fun e => (e.1, e.2.actionKind)) hi
  have hother := mem_map_of_mem (f := fun e => (e.1, e.2.actionKind)) hoth
  rw [hrs] at hm hother
  simp only [mem_cons, Prod.mk.injEq, not_mem_nil, or_false] at hm hother
  rcases hm with ⟨rfl, h1⟩ | ⟨rfl, h1⟩ <;> rcases hother with ⟨rfl, h2⟩ | ⟨rfl, h2⟩ <;>
      first | rfl | exact absurd (h2.symm.trans (hk.trans h1)) (by decide)

/-- Every handler returns, but the edge discovery raises before any statement. -/
def raisingDiscovery : Dispatchers Unit
  | .discoverModelEdges => some fun _ _ _ => .raise (.exception "ValueError" "no edges")
  | _ => some fun _ _ _ => pure ()

theorem process_batch_isolated_iff_raised :
    let batch := processBatch raisingDiscovery 5 (fun _ => false) 10 none {} twoActions
    Isolated twoActions.actions batch.db.actions batch.dispatched ∧
      batch.dispatched.map (fun entry => (entry.1.id, entry.2.isOk)) = [(2, false), (1, true)] := by
  refine ⟨(process_batch_isolated_iff raisingDiscovery 5 (fun _ => false) 10 none {}
    postCommitDedup_twoActions).mpr ?_, by decide +kernel⟩
  have hbatch : (fetchPendingActions 5 (fun _ => false) 10 none twoActions.actions).map
      (fun action => (action.id, action.actionKind)) =
        [(1, .broadcastRealtime), (2, .discoverModelEdges)] := by
    decide +kernel
  obtain ⟨first, rest, hcons, hfirst, hrest⟩ := map_eq_cons_iff.mp hbatch
  obtain ⟨second, none, rfl, hsecond, hnone⟩ := map_eq_cons_iff.mp hrest
  obtain rfl := map_eq_nil_iff.mp hnone
  obtain ⟨hid, hkind⟩ := Prod.mk.inj hfirst
  obtain ⟨hotherId, hotherKind⟩ := Prod.mk.inj hsecond
  rw [hcons]
  simp only [KeepsTransaction, dispatchAction, hid, hkind, hotherId, hotherKind]
  have hreturned : recordable 5 twoActions.actions 1 (.ok ()) := by decide +kernel
  have hraised : recordable 5 twoActions.actions 2
      (.error (.exception "ValueError" "no edges")) := by decide +kernel
  exact ⟨rfl, hreturned, rfl, hraised, trivial⟩

/-- The broadcast has run and is left pending, to run again. -/
theorem failed_statement_discards_batch :
    ¬ ∀ (W : Type) (db : QueueDb W) (dispatchers : Dispatchers W) (now : Rat)
        (locked : Nat → Bool) (limit : Nat) (tenantId : Option Nat) (stats : WorkerStats),
      PostCommitDedup db.actions → Isolated db.actions
          (processBatch dispatchers now locked limit tenantId stats db).db.actions
          (processBatch dispatchers now locked limit tenantId stats db).dispatched := by
  intro hall
  have hisolated := hall Unit twoActions failingDiscovery 5 (fun _ => false) 10 none {}
    postCommitDedup_twoActions
  have hmem : (1, true) ∈ (processBatch failingDiscovery 5 (fun _ => false) 10 none {}
      twoActions).dispatched.map (fun entry => (entry.1.id, entry.2.isOk)) := by
    decide
  obtain ⟨⟨action, outcome⟩, hentry, hfields⟩ := mem_map.mp hmem
  obtain ⟨hid, hok⟩ := Prod.mk.inj hfields
  rcases outcome with _ | _
  · cases hok
  · obtain ⟨row, hrow, hprocessed⟩ := hisolated.succeeded action hentry
    have hpending : ((processBatch failingDiscovery 5 (fun _ => false) 10 none {}
        twoActions).db.actions.get 1).map ActionRow.processedAt = some none := by decide +kernel
    have hid : action.id = 1 := hid
    rw [← hid, hrow] at hpending
    rw [Option.some.inj hpending] at hprocessed
    cases hprocessed

end FyralisCore.Think.PostCommit
