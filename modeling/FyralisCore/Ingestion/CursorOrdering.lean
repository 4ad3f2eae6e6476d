import FyralisCore.Ingestion.ShardFetch

/-! The cursor/data ordering of the shard fetch loop: a page counts as published
once each of its records is acknowledged, and the invariant ties every loop that
is past its load to a position whose earlier pages are all published. -/
namespace FyralisCore.Ingestion

open Transition List Function IngestState

variable {Cursor Body Loop Proc : Type}

def cursorAt (fetcher : Option Cursor → FetchResult Cursor Body) : Nat → Option Cursor
  | 0 => none
  | n + 1 => (fetcher (cursorAt fetcher n)).nextCursor

/-- The page of `cursor` comes before `position` is first reached. -/
def PageBefore (fetcher : Option Cursor → FetchResult Cursor Body)
    (position cursor : Option Cursor) : Prop :=
  ∃ n, cursorAt fetcher n = cursor ∧ ∀ k ≤ n, cursorAt fetcher k ≠ position

/-- The page of `cursor` comes no later than the first end of data. -/
def PageOfShard (fetcher : Option Cursor → FetchResult Cursor Body)
    (cursor : Option Cursor) : Prop :=
  ∃ n, cursorAt fetcher n = cursor ∧ ∀ k < n, (fetcher (cursorAt fetcher k)).endOfData = false

variable (deployment : Deployment Cursor Body Loop Proc) (acked : List KafkaMessage)

def RecordAcked (cursor : Option Cursor) (record : FetchedRecord Body) : Prop :=
  ∃ now, deployment.message cursor record now ∈ acked

def PageAcked (cursor : Option Cursor) : Prop :=
  ∀ record ∈ (deployment.fetcher cursor).records, RecordAcked deployment acked cursor record

/-- What N1 asks of the persisted state: the pages before its cursor are
acknowledged, and at the end of data all pages of the shard. -/
def CursorOrdered (state : IngestState Cursor Body Loop Proc) : Prop :=
  ∀ data, state.row = some data → (∀ cursor, PageBefore deployment.fetcher data.cursor cursor →
      PageAcked deployment state.acked cursor) ∧
    (data.endOfData = some true → ∀ cursor, PageOfShard deployment.fetcher cursor →
      PageAcked deployment state.acked cursor)

/-- Every page of the first `count` is acknowledged, and `cursor` follows them. -/
structure Reached (cursor : Option Cursor) (count : Nat) : Prop where
  cursor_eq : cursorAt deployment.fetcher count = cursor
  acked : ∀ k < count, PageAcked deployment acked (cursorAt deployment.fetcher k)

/-- Every record of the page is acknowledged or has a message on its way. -/
def OnItsWay (pending : List KafkaMessage) (cursor : Option Cursor) : Prop :=
  ∀ record ∈ (deployment.fetcher cursor).records, RecordAcked deployment acked cursor record ∨
    ∃ now, deployment.message cursor record now ∈ pending

def PhaseOk (queue : List KafkaMessage) : Phase Cursor Body → Prop
  | .fetchPage current => ∃ count, Reached deployment acked (cursorOf current) count
  | .writeMessages current result => result = deployment.fetcher (cursorOf current) ∧
      ∃ count, Reached deployment acked (cursorOf current) count
  | .publish current result unsent => result = deployment.fetcher (cursorOf current) ∧
      (∃ count, Reached deployment acked (cursorOf current) count) ∧
      OnItsWay deployment acked (queue ++ unsent) (cursorOf current)
  | .flush current result => result = deployment.fetcher (cursorOf current) ∧
      (∃ count, Reached deployment acked (cursorOf current) count) ∧
      OnItsWay deployment acked queue (cursorOf current)
  | .advance current result => result = deployment.fetcher (cursorOf current) ∧
      (∃ count, Reached deployment acked (cursorOf current) count) ∧
      PageAcked deployment acked (cursorOf current)
  | _ => True

def RowOk (row : Option (StateData Cursor)) : Prop :=
  ∀ data, row = some data → ∃ count, Reached deployment acked data.cursor count ∧
    (data.endOfData = some true →
      ∃ k < count, (deployment.fetcher (cursorAt deployment.fetcher k)).endOfData)

structure PublishedFirst (state : IngestState Cursor Body Loop Proc) : Prop where
  row : RowOk deployment state.acked state.row
  phase : ∀ loop, PhaseOk deployment state.acked (state.queue (deployment.process loop))
    (state.loops loop).phase

variable {deployment acked} {acked' : List KafkaMessage}

variable {cursor : Option Cursor} {count : Nat} {row : Option (StateData Cursor)}

theorem PageAcked.mono (hp : PageAcked deployment acked cursor)
    (ha : acked ⊆ acked') : PageAcked deployment acked' cursor := by
  intro record hr
  obtain ⟨now, hm⟩ := hp record hr
  exact ⟨now, ha hm⟩

theorem Reached.mono (hr : Reached deployment acked cursor count) (ha : acked ⊆ acked') :
    Reached deployment acked' cursor count :=
  ⟨hr.cursor_eq, fun k hk => (hr.acked k hk).mono ha⟩

theorem Reached.start : Reached deployment acked none 0 :=
  ⟨rfl, fun k hk => absurd hk (Nat.not_lt_zero k)⟩

theorem Reached.next (hr : Reached deployment acked cursor count)
    (hp : PageAcked deployment acked cursor) :
    Reached deployment acked (deployment.fetcher cursor).nextCursor (count + 1) where
  cursor_eq := by rw [cursorAt, hr.cursor_eq]
  acked := by
    intro k hk
    rcases Nat.lt_succ_iff_lt_or_eq.mp hk with hl | rfl
    · exact hr.acked k hl
    · rw [hr.cursor_eq]
      exact hp

theorem OnItsWay.mono (hw : OnItsWay deployment acked pending cursor) (ha : acked ⊆ acked')
    (hp : ∀ message ∈ pending, message ∈ acked' ∨ message ∈ pending') :
    OnItsWay deployment acked' pending' cursor := by
  intro record hr
  rcases hw record hr with ⟨now, hm⟩ | ⟨now, hm⟩
  · exact .inl ⟨now, ha hm⟩
  · exact (hp _ hm).imp (fun h => ⟨now, h⟩) fun h => ⟨now, h⟩

/-- Acknowledgements and a queue that loses only acknowledged messages are no
news to a loop. -/
theorem PhaseOk.mono (hp : PhaseOk deployment acked q phase) (ha : acked ⊆ acked')
    (hq : ∀ message ∈ q, message ∈ acked' ∨ message ∈ queue') :
    PhaseOk deployment acked' queue' phase := by
  have hr : ∀ cursor, (∃ count, Reached deployment acked cursor count) →
      ∃ count, Reached deployment acked' cursor count :=
    fun _ ⟨count, hc⟩ => ⟨count, hc.mono ha⟩
  cases phase with
  | fetchPage current => exact hr _ hp
  | writeMessages current r => exact ⟨hp.1, hr _ hp.2⟩
  | publish current r unsent =>
    refine ⟨hp.1, hr _ hp.2.1, hp.2.2.mono ha fun message hm => ?_⟩
    rw [mem_append] at hm ⊢
    rcases hm with hqd | hu
    · exact (hq message hqd).imp id Or.inl
    · exact .inr (.inr hu)
  | flush current r =>
    exact ⟨hp.1, hr _ hp.2.1, hp.2.2.mono ha hq⟩
  | advance current r =>
    exact ⟨hp.1, hr _ hp.2.1, hp.2.2.mono ha⟩
  | idle => trivial
  | ensureState => trivial
  | persistInitial => trivial
  | loadCursor => trivial

theorem RowOk.mono (hr : RowOk deployment acked row)
    (ha : acked ⊆ acked') : RowOk deployment acked' row := by
  intro data hd
  obtain ⟨count, hrc, he⟩ := hr data hd
  exact ⟨count, hrc.mono ha, he⟩

theorem RowOk.initial : RowOk deployment acked (some initialStateData) := by
  rintro _ ⟨⟩
  exact ⟨0, Reached.start, nofun⟩

theorem RowOk.reached (hr : RowOk deployment acked row) :
    ∃ count, Reached deployment acked (cursorOf row) count := by
  cases hd : row with
  | none => exact ⟨0, Reached.start⟩
  | some data =>
    obtain ⟨count, hrc, -⟩ := hr data hd
    exact ⟨count, hrc⟩

theorem RowOk.advance (hr : Reached deployment acked (cursorOf current) count)
    (hp : PageAcked deployment acked (cursorOf current)) : RowOk deployment acked
      (some (newStateData current (deployment.fetcher (cursorOf current)) recordsFetched)) := by
  rintro _ ⟨⟩
  refine ⟨count + 1, hr.next hp, fun he => ⟨count, Nat.lt_succ_self count, ?_⟩⟩
  rw [hr.cursor_eq]
  exact Option.some.inj he

theorem RowOk.cursorOrdered
    (hr : RowOk deployment state.acked state.row) : CursorOrdered deployment state := by
  intro data hdt
  obtain ⟨count, hrc, he⟩ := hr data hdt
  constructor
  · rintro _ ⟨n, rfl, hb⟩
    refine hrc.acked n (Nat.lt_of_not_le fun hle => ?_)
    exact hb count hle hrc.cursor_eq
  · rintro hd _ ⟨n, rfl, ho⟩
    obtain ⟨k, hk, hl⟩ := he hd
    refine hrc.acked n (Nat.lt_of_le_of_lt (Nat.le_of_not_lt fun hlt => ?_) hk)
    rw [ho k hlt] at hl
    cases hl

variable {state after : IngestState Cursor Body Loop Proc}

theorem PublishedFirst.withRow (h1 : PublishedFirst deployment state)
    (hr : RowOk deployment state.acked row) : PublishedFirst deployment { state with row := row } :=
  ⟨hr, h1.phase⟩

theorem onItsWay_write (cursor : Option Cursor) (q : List KafkaMessage) (writtenAt : Nat → Nat) :
    OnItsWay deployment acked (q ++ (deployment.fetcher cursor).records.mapIdx fun i record =>
      deployment.message cursor record (writtenAt i)) cursor := by
  intro record hr
  obtain ⟨i, hi, rfl⟩ := getElem_of_mem hr
  refine .inr ⟨writtenAt i, mem_append_right _ ?_⟩
  exact mem_mapIdx.mpr ⟨i, hi, rfl⟩

def publishing : Phase Cursor Body → Option (Option Cursor × List KafkaMessage)
  | .publish current _ unsent => some (cursorOf current, unsent)
  | .flush current _ => some (cursorOf current, [])
  | _ => none

section

variable (deployment : Deployment Cursor Body Loop Proc) (state : IngestState Cursor Body Loop Proc)

/-- The failing delivery costs no loop of the process a record of its page: the
record is acknowledged, or another message of it is queued or still to be sent. -/
def DeliveryHarmless (process : Proc) (position : Nat) : Prop :=
  ∀ loop cursor unsent, deployment.process loop = process →
    publishing (state.loops loop).phase = some (cursor, unsent) →
      ∀ record ∈ (deployment.fetcher cursor).records, ∀ now,
        (state.queue process)[position]? = some (deployment.message cursor record now) →
          RecordAcked deployment state.acked cursor record ∨
            ∃ again, deployment.message cursor record again ∈
              (state.queue process).eraseIdx position ++ unsent

def DeliveriesKept : IngestAction Loop Proc → Prop
  | .deliveryFails process position => DeliveryHarmless deployment state process position
  | _ => True

end

theorem OnItsWay.eraseIdx (hw : OnItsWay deployment acked (q ++ unsent) cursor)
    (hat : q[position]? = some message)
    (hk : ∀ record ∈ (deployment.fetcher cursor).records, ∀ now,
      q[position]? = some (deployment.message cursor record now) →
        RecordAcked deployment acked cursor record ∨
          ∃ again, deployment.message cursor record again ∈ q.eraseIdx position ++ unsent) :
    OnItsWay deployment acked (q.eraseIdx position ++ unsent) cursor := by
  intro record hr
  rcases hw record hr with ha | ⟨now, hm⟩
  · exact .inl ha
  · rcases mem_append.mp hm with hq | hu
    · rcases mem_eraseIdx_of_mem hat hq with rfl | hl
      · exact hk record hr now hat
      · exact .inr ⟨now, mem_append_left _ hl⟩
    · exact .inr ⟨now, mem_append_right _ hu⟩

section

variable [DecidableEq Loop]

@[simp] theorem counted_phase (state : IngestState Cursor Body Loop Proc) (loop other : Loop)
    (recordsFetched : Nat) :
    ((state.counted loop recordsFetched).loops other).phase = (state.loops other).phase := by
  unfold counted
  by_cases ho : other = loop
  · subst ho
    simp
  · simp [update_of_ne ho]

theorem PublishedFirst.enter (h1 : PublishedFirst deployment state) {loop : Loop}
    {phase : Phase Cursor Body}
    (hp : PhaseOk deployment state.acked (state.queue (deployment.process loop)) phase) :
    PublishedFirst deployment (state.enter loop phase) where
  row := h1.row
  phase := by
    intro other
    unfold IngestState.enter
    by_cases ho : other = loop
    · subst ho
      simpa using hp
    · simpa [update_of_ne ho] using h1.phase other

theorem PublishedFirst.counted (h1 : PublishedFirst deployment state) (loop : Loop)
    (recordsFetched : Nat) : PublishedFirst deployment (state.counted loop recordsFetched) where
  row := h1.row
  phase := by
    intro other
    rw [counted_phase]
    exact h1.phase other

end

section

variable [DecidableEq Proc]

theorem PublishedFirst.enqueue (h1 : PublishedFirst deployment state) (process : Proc)
    (message : KafkaMessage) : PublishedFirst deployment (state.enqueue process message) where
  row := h1.row
  phase := by
    intro loop
    refine (h1.phase loop).mono (List.Subset.refl _) fun other hm => .inr ?_
    simp only [IngestState.enqueue]
    by_cases hp : deployment.process loop = process
    · subst hp
      rw [update_self]
      exact mem_append_left _ hm
    · rwa [update_of_ne hp]

theorem PublishedFirst.acknowledge (h1 : PublishedFirst deployment state)
        (ha : (state.queue process)[position]? = some message) : PublishedFirst deployment
      { state.dequeue process position with acked := state.acked ++ [message] } where
  row := h1.row.mono (subset_append_left _ _)
  phase := by
    intro loop
    refine (h1.phase loop).mono (subset_append_left _ _) fun other hm => ?_
    simp only [dequeue, mem_append, mem_singleton]
    by_cases hp : deployment.process loop = process
    · subst hp
      rw [update_self]
      exact (mem_eraseIdx_of_mem ha hm).imp .inr id
    · rw [update_of_ne hp]
      exact .inr hm

theorem PublishedFirst.crash (h1 : PublishedFirst deployment state) (process : Proc) :
    PublishedFirst deployment { state with
      queue := Function.update state.queue process []
      loops := fun loop =>
        if deployment.process loop = process then ⟨.idle, 0⟩ else state.loops loop } where
  row := h1.row
  phase := by
    intro loop
    by_cases hp : deployment.process loop = process
    · simp only [hp, if_true]
      trivial
    · simp only [hp, if_false, update_of_ne hp]
      exact h1.phase loop

theorem PublishedFirst.deliveryFails (h1 : PublishedFirst deployment state)
        (ha : (state.queue process)[position]? = some message)
    (hh : DeliveryHarmless deployment state process position) :
    PublishedFirst deployment (state.dequeue process position) where
  row := h1.row
  phase := by
    intro loop
    have hp := h1.phase loop
    simp only [dequeue]
    by_cases hpr : deployment.process loop = process
    · rw [hpr] at hp
      rw [hpr, update_self]
      have hlp := hh loop
      cases hl : (state.loops loop).phase with
      | publish current r unsent =>
        rw [hl] at hp
        exact ⟨hp.1, hp.2.1, hp.2.2.eraseIdx ha (hlp _ unsent hpr (by rw [hl]; rfl))⟩
      | flush current r =>
        rw [hl] at hp
        refine ⟨hp.1, hp.2.1, ?_⟩
        have hw := OnItsWay.eraseIdx (by simpa using hp.2.2) ha (hlp _ [] hpr (by rw [hl]; rfl))
        simpa using hw
      -- The other phases do not look at the queue.
      | fetchPage _ => rw [hl] at hp; exact hp
      | writeMessages _ _ => rw [hl] at hp; exact hp
      | advance _ _ => rw [hl] at hp; exact hp
      | idle => trivial
      | ensureState => trivial
      | persistInitial => trivial
      | loadCursor => trivial
    · rwa [update_of_ne hpr]

end

section Runs

variable [DecidableEq Loop] [DecidableEq Proc]

theorem publishedFirst_step (h1 : PublishedFirst deployment state)
    (hk : DeliveriesKept deployment state action)
    (hs : ingestStep deployment state action = some after) : PublishedFirst deployment after := by
  cases action
  case giveUp loop =>
    cases hs
    exact h1.enter trivial
  case acknowledge process position =>
    obtain ⟨message, hat, rfl⟩ := Option.map_eq_some_iff.mp hs
    exact h1.acknowledge hat
  case deliveryFails process position =>
    obtain ⟨message, hat, rfl⟩ := Option.map_eq_some_iff.mp hs
    exact h1.deliveryFails hat hk
  case otherProduce process message =>
    cases hs
    exact h1.enqueue process message
  case crash process =>
    cases hs
    exact h1.crash process
  all_goals simp only [ingestStep] at hs
  case claim loop =>
    split at hs
    · cases hs
      exact ((h1.withRow RowOk.initial).counted loop 0).enter trivial
    · cases hs
  case resume loop =>
    split at hs
    · cases hs
      exact (h1.counted loop 0).enter trivial
    · cases hs
  case ensure loop =>
    split at hs
    · cases hs
      exact h1.enter trivial
    · cases hs
      exact (h1.counted loop _).enter trivial
    · cases hs
  case bootstrap loop =>
    split at hs
    · cases hs
      exact (h1.withRow RowOk.initial).enter trivial
    · cases hs
  case load loop =>
    split at hs
    · cases hs
      exact h1.enter h1.row.reached
    · cases hs
  case fetch loop =>
    split at hs
    · next current hp =>
      cases hs
      have hrc := h1.phase loop
      rw [hp] at hrc
      exact (h1.counted loop _).enter ⟨rfl, hrc⟩
    · cases hs
  case write loop writtenAt =>
    split at hs
    · next current r hp =>
      cases hs
      have hl := h1.phase loop
      rw [hp] at hl
      obtain ⟨rfl, hrc⟩ := hl
      exact h1.enter ⟨rfl, hrc, onItsWay_write _ _ writtenAt⟩
    · cases hs
  case produce loop =>
    split at hs
    · next current r message unsent hp =>
      cases hs
      have hl := h1.phase loop
      rw [hp] at hl
      obtain ⟨hrs, hrc, hw⟩ := hl
      refine (h1.enqueue _ message).enter ⟨hrs, hrc, ?_⟩
      simpa [enqueue] using hw
    · next current r hp =>
      cases hs
      have hl := h1.phase loop
      rw [hp] at hl
      obtain ⟨hrs, hrc, hw⟩ := hl
      exact h1.enter ⟨hrs, hrc, by simpa using hw⟩
    · cases hs
  case flush loop =>
    split at hs
    · next current r hp =>
      have hl := h1.phase loop
      rw [hp] at hl
      obtain ⟨hrs, hrc, hw⟩ := hl
      split at hs
      · cases hs
        exact h1.enter trivial
      · next he =>
        cases hs
        -- Nothing is left in the queue, so the whole page is acknowledged.
        have hn : state.queue (deployment.process loop) = [] :=
          eq_nil_of_length_eq_zero (Nat.eq_zero_of_not_pos he)
        refine h1.enter ⟨hrs, hrc, fun record hrcd => ?_⟩
        rcases hw record hrcd with ha | ⟨now, hm⟩
        · exact ha
        · rw [hn] at hm
          cases hm
    · cases hs
  case update loop =>
    split at hs
    · next current r old hp hr =>
      cases hs
      have hl := h1.phase loop
      rw [hp] at hl
      obtain ⟨rfl, ⟨count, hrc⟩, hpg⟩ := hl
      refine (h1.withRow (RowOk.advance hrc hpg)).enter ?_
      split <;> trivial
    · cases hs
      exact h1.enter trivial
    · cases hs

def IngestState.fresh : IngestState Cursor Body Loop Proc :=
  ⟨none, fun _ => [], [], fun _ => ⟨.idle, 0⟩⟩

/-- Along every interleaving of loops, broker and crashes in which no delivery
fails for good while a loop counts on it, the persisted cursor never runs ahead
of the acknowledged pages. -/
theorem cursor_after_pages {state : IngestState Cursor Body Loop Proc}
    (hreach : Reach (ingestStep deployment) (DeliveriesKept deployment) .fresh state) :
    CursorOrdered deployment state := by
  have hfirst : PublishedFirst deployment state := by
    refine hreach.invariant ⟨nofun, fun loop => trivial⟩ ?_
    intro _ action _ hfirst hkept hstep
    exact publishedFirst_step hfirst hkept hstep
  exact hfirst.row.cursorOrdered

end Runs

def twoPages : Deployment Nat String Bool Bool where
  tier := ⟨"dev", fun blob => blob.record, fun _ => "2026-01", fun envelope => envelope.contentHash⟩
  ctx := ⟨1, 7, "slack"⟩
  fetcher := fun cursor =>
    match cursor with
    | none => ⟨[⟨"first", none⟩], some 1, false⟩
    | some _ => ⟨[⟨"second", none⟩], none, true⟩
  process := id

/-- The second loop takes the shard over while the first still waits to advance;
the first one's late update does not run ahead. -/
def lateUpdate : List (IngestAction Bool Bool) :=
  [.claim false, .ensure false, .load false, .fetch false, .write false fun _ => 0,
    .produce false, .produce false, .acknowledge false 0, .flush false,
    .resume true, .ensure true, .load true, .fetch true, .write true fun _ => 5,
    .produce true, .produce true, .acknowledge true 0, .flush true, .update true,
    .load true, .fetch true, .update false]

theorem cursor_after_pages_lateUpdate :
    ∃ state, runAll (ingestStep twoPages) .fresh lateUpdate = some state ∧
      state.row = some ⟨some 1, 1, some 1, some false⟩ ∧ CursorOrdered twoPages state := by
  obtain ⟨state, hrun⟩ : ∃ state, runAll (ingestStep twoPages) .fresh lateUpdate = some state :=
    ⟨_, rfl⟩
  have hkept : ∀ action ∈ lateUpdate, ∀ state, DeliveriesKept twoPages state action := by
    intro action haction _
    simp only [lateUpdate, mem_cons, not_mem_nil, or_false] at haction
    rcases haction with rfl | rfl | rfl | rfl | rfl | rfl | rfl | rfl | rfl | rfl | rfl | rfl |
      rfl | rfl | rfl | rfl | rfl | rfl | rfl | rfl | rfl | rfl <;> trivial
  refine ⟨state, hrun, ?_, cursor_after_pages (reach_of_runAll Reach.start hkept hrun)⟩
  cases hrun
  rfl

def refusedMessage : List (IngestAction Bool Bool) :=
  [.claim false, .ensure false, .load false, .fetch false, .write false fun _ => 0,
    .produce false, .produce false, .deliveryFails false 0, .flush false, .update false]

/-- A message that fails for good leaves the queue, so the flush returns 0 and
the cursor moves past a record that the broker never acknowledged. -/
theorem failed_delivery_advances : ∃ state, Reach (ingestStep twoPages) anyStep .fresh state ∧
      state.row = some ⟨some 1, 1, some 1, some false⟩ ∧ state.acked = [] ∧
      ¬ CursorOrdered twoPages state := by
  obtain ⟨state, hrun⟩ : ∃ state, runAll (ingestStep twoPages) .fresh refusedMessage = some state :=
    ⟨_, rfl⟩
  have hreach : Reach (ingestStep twoPages) anyStep .fresh state :=
    reach_of_run hrun
  cases hrun
  refine ⟨_, hreach, rfl, rfl, fun hordered => ?_⟩
  have hfirst := (hordered _ rfl).1 none ⟨0, rfl, fun k hk => by
    obtain rfl := Nat.le_zero.mp hk
    nofun⟩
  obtain ⟨now, hmem⟩ := hfirst ⟨"first", none⟩ (.head _)
  cases hmem

end FyralisCore.Ingestion
