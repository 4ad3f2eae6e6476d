import FyralisCore.Ingestion.ShardExecution

/-! The end of a shard as its row, its completion signal and its progress event
tell it. The UPDATE and the signal are one transaction and always agree; the
event is published whether or not the UPDATE has moved the row. -/
namespace FyralisCore.Ingestion

open Transition Option Function

variable {Cursor Body Replica : Type} {leaseTimeout : Nat} {db db' : ShardDb Cursor}
  {exec exec' : Execution Cursor Body} {move : Move Cursor Body}

def ShardStatus.state : ShardStatus → ShardState
  | .done => .done
  | .failed => .failed

/-- Every completion signal carries the status of the terminal row; a shard that
was re-shared was done. -/
def SignalsAgree (db : ShardDb Cursor) : Prop :=
  ∀ data ∈ db.completed, db.shard.state = data.status.state ∨
    data.status = .done ∧ db.shard.state = .reconciliationResharded

/-- Only an execution whose UPDATE moved the row has published the event. -/
def PublishedByMover (db : ShardDb Cursor) : Prop :=
  ∀ event ∈ db.published, event.movedRow

def TerminatesOpen (world : ShardWorld Cursor Body Replica) : ShardAction Cursor Body Replica → Prop
  | .move replica move => move = .terminate →
      ((world.execs replica).phase = .terminating .done → world.db.shard.state.isOpen)
  | .elapse _ | .rollUp | .reshard => True

/-- What holds of the tables in every run: the row is open until the signal is there. -/
structure Signalled (db : ShardDb Cursor) : Prop where
  opened : db.shard.state.isOpen ↔ db.completed = []
  agree : SignalsAgree db

def PhaseSignalled (db : ShardDb Cursor) : ExecutionPhase Cursor Body → Prop
  | .replaying _ => db.completed ≠ []
  | _ => True

def PhaseMoved : ExecutionPhase Cursor Body → Prop
  | .publishing movedRow => movedRow
  | _ => True

theorem markShard_of_closed
    (hc : shard.state.isOpen = false) : markShard unspecified shard ending = shard := by
  cases ending <;> simp [markShard, hc]

theorem state_markShard_of_open (ho : shard.state.isOpen) :
    (markShard unspecified shard ending).state = ending.data.status.state := by
  cases ending <;> simp [markShard, ho, Ending.data, ShardStatus.state]

@[simp] theorem isOpen_state (status : ShardStatus) : status.state.isOpen = false := by
  cases status <;> rfl

theorem emitCompleted_of_ne_nil (he : db.completed ≠ []) : db.emitCompleted data = db := by
  simp [ShardDb.emitCompleted, he]

/-- The first terminal transition writes the row and the signal, a later one
nothing. -/
theorem Signalled.terminate (hs : Signalled db) (ending : Ending) :
    Signalled (db.terminate ending) ∧ (db.terminate ending).completed ≠ [] := by
  cases ho : db.shard.state.isOpen with
  | true =>
    have hn : db.completed = [] := hs.opened.mp ho
    have hst : (markShard "<unknown>" db.shard ending).state = ending.data.status.state :=
      state_markShard_of_open ho
    have ha : db.terminate ending =
        { db with shard := markShard "<unknown>" db.shard ending, completed := [ending.data] } := by
      simp [ShardDb.terminate, ShardDb.emitCompleted, hn]
    rw [ha]
    refine ⟨⟨?_, ?_⟩, List.cons_ne_nil _ _⟩
    · simp [hst]
    · intro data hd
      rw [List.mem_singleton.mp hd]
      exact .inl hst
  | false =>
    have he : db.completed ≠ [] := by
      intro hn
      rw [hs.opened.mpr hn] at ho
      cases ho
    rw [ShardDb.terminate, markShard_of_closed ho, emitCompleted_of_ne_nil he]
    exact ⟨hs, he⟩

theorem Signalled.moved (hsg : Signalled db) (hp : PhaseSignalled db exec.phase)
    (hm : db.move leaseTimeout exec move = some (db', exec')) :
    Signalled db' ∧ (db.completed ≠ [] → db'.completed ≠ []) := by
  cases move <;> simp only [ShardDb.move] at hm
  case terminate =>
    split at hm
    · cases hm
      exact ⟨(hsg.terminate _).1, fun _ => (hsg.terminate _).2⟩
    · cases hm
      exact ⟨(hsg.terminate _).1, fun _ => (hsg.terminate _).2⟩
    · cases hm
  case replay =>
    split at hm
    · next status hr =>
      rw [hr] at hp
      cases hm
      rw [emitCompleted_of_ne_nil hp]
      exact ⟨hsg, id⟩
    · cases hm
  case claim | refresh =>
    obtain ⟨ho, ha⟩ := hsg
    refine ⟨⟨?_, ?_⟩, ?_⟩ <;>
      grind [ShardDb.persistInitial, ShardState.isOpen, SignalsAgree, ShardStatus.state]
  all_goals
    have hs : db'.shard = db.shard ∧ db'.completed = db.completed := by
      grind [ShardDb.persistInitial]
    obtain ⟨ho, ha⟩ := hsg
    rw [hs.2]
    refine ⟨⟨?_, ?_⟩, id⟩
    · rw [hs.1, hs.2]
      exact ho
    · rw [SignalsAgree, hs.1, hs.2]
      exact ha

theorem PhaseSignalled.mono (hp : PhaseSignalled db phase)
    (hk : db.completed ≠ [] → db'.completed ≠ []) : PhaseSignalled db' phase := by
  cases phase with
  | replaying status => exact hk hp
  | idle | claiming | orphaned | loadInstall | ensureState | persistInitial | loadCursor
  | fetchPage | writePage | advance | terminating | publishing => trivial

theorem PhaseSignalled.moved (hs : Signalled db)
    (hm : db.move leaseTimeout exec move = some (db', exec')) :
    PhaseSignalled db' exec'.phase := by
  cases move <;> simp only [ShardDb.move] at hm
  case receive =>
    split at hm
    · cases hm
      have he := hs.opened
      cases hst : db.shard.state <;> simp_all [PhaseSignalled, ShardState.isOpen]
    · cases hm
  all_goals
    grind [PhaseSignalled, Execution.enter]

theorem published_of_move (hpb : PublishedByMover db) (hp : PhaseMoved exec.phase)
    (h1 : move = .terminate → exec.phase = .terminating .done → db.shard.state.isOpen)
    (hm : db.move leaseTimeout exec move = some (db', exec')) :
    PublishedByMover db' ∧ PhaseMoved exec'.phase := by
  cases move <;>
    · simp only [ShardDb.move] at hm
      grind [PublishedByMover, PhaseMoved, Execution.enter, ShardDb.persistInitial,
        ShardDb.emitCompleted, ShardDb.terminate]

section

variable [DecidableEq Replica] {world world' : ShardWorld Cursor Body Replica} {now : Nat}

structure Terminated (world : ShardWorld Cursor Body Replica) : Prop where
  signalled : Signalled world.db
  phase : ∀ replica, PhaseSignalled world.db (world.execs replica).phase

theorem terminated_step (ht : Terminated world)
    (hs : shardStep leaseTimeout world action = some world') : Terminated world' := by
  obtain ⟨hsg, hp⟩ := ht
  cases action with
  | move replica move =>
    obtain ⟨⟨db', exec'⟩, hm, rfl⟩ := map_eq_some_iff.mp hs
    obtain ⟨ha, hk⟩ := hsg.moved (hp replica) hm
    refine ⟨ha, fun other => ?_⟩
    change PhaseSignalled db' (Function.update world.execs replica exec' other).phase
    by_cases ho : other = replica
    · subst ho
      rw [update_self]
      exact PhaseSignalled.moved hsg hm
    · rw [update_of_ne ho]
      exact (hp other).mono hk
  | elapse duration =>
    cases hs
    exact ⟨⟨hsg.opened, hsg.agree⟩, hp⟩
  | rollUp =>
    obtain ⟨db', hr, rfl⟩ := map_eq_some_iff.mp hs
    obtain ⟨data, hdt, rfl⟩ := map_eq_some_iff.mp hr
    have hc : world.db.shard.state.isOpen = false := by
      rw [Bool.eq_false_iff]
      intro hop
      rw [hsg.opened.mp hop] at hdt
      cases hdt
    simp only [markShard_of_closed hc]
    exact ⟨hsg, hp⟩
  | reshard =>
    obtain ⟨hd, he⟩ := ite_none_right_eq_some.mp hs
    cases he
    obtain ⟨hop, hag⟩ := hsg
    rw [hd] at hop
    refine ⟨⟨hop, ?_⟩, hp⟩
    intro data hdt
    have hstt := hag data hdt
    cases hst : data.status <;> simp_all [ShardStatus.state]

theorem signalsAgree_of_reach (hr : Reach (shardStep leaseTimeout) anyStep
      ({ db := { now } } : ShardWorld Cursor Body Replica) world) : SignalsAgree world.db := by
  have ht : Terminated world := by
    apply hr.invariant
    · exact ⟨⟨by simp [ShardState.isOpen], fun _ hd => by cases hd⟩, fun _ => trivial⟩
    · exact fun s action t ht _ hs => terminated_step ht hs
  exact ht.signalled.agree

theorem published_step (hpb : PublishedByMover world.db)
    (hp : ∀ replica, PhaseMoved (world.execs replica).phase) (hop : TerminatesOpen world action)
    (hs : shardStep leaseTimeout world action = some world') :
    PublishedByMover world'.db ∧ ∀ replica, PhaseMoved (world'.execs replica).phase := by
  cases action with
  | move replica move =>
    obtain ⟨⟨db', exec'⟩, hmv, rfl⟩ := map_eq_some_iff.mp hs
    obtain ⟨ha, hm⟩ := published_of_move hpb (hp replica) hop hmv
    refine ⟨ha, fun other => ?_⟩
    change PhaseMoved (Function.update world.execs replica exec' other).phase
    by_cases ho : other = replica
    · rwa [ho, update_self]
    · rw [update_of_ne ho]
      exact hp other
  | elapse duration =>
    cases hs
    exact ⟨hpb, hp⟩
  | rollUp =>
    obtain ⟨db', hr, rfl⟩ := map_eq_some_iff.mp hs
    obtain ⟨data, -, rfl⟩ := map_eq_some_iff.mp hr
    exact ⟨hpb, hp⟩
  | reshard =>
    obtain ⟨-, he⟩ := ite_none_right_eq_some.mp hs
    cases he
    exact ⟨hpb, hp⟩

/-- In the runs in which no execution terminates a shard as done that is closed
already, row, signal and event agree. -/
theorem terminal_agreement (hreach : Reach (shardStep leaseTimeout) TerminatesOpen
      ({ db := { now } } : ShardWorld Cursor Body Replica) world) :
    SignalsAgree world.db ∧ PublishedByMover world.db := by
  have hpublished : PublishedByMover world.db ∧
      ∀ replica, PhaseMoved (world.execs replica).phase := by
    apply hreach.invariant
    · exact ⟨(fun _ hevent => by cases hevent), fun _ => trivial⟩
    · exact fun s action t hpublished hopen hstep =>
        published_step hpublished.1 hpublished.2 hopen hstep
  exact ⟨signalsAgree_of_reach (hreach.mono fun _ _ _ => trivial), hpublished.1⟩

end

private def lastPage : FetchResult Unit Unit := ⟨[⟨(), none⟩], none, true⟩

private def fetchLastPage (replica : Nat) : List (ShardAction Unit Unit Nat) :=
  [.move replica (.loadInstall true), .move replica .ensure, .move replica .load,
    .move replica (.fetch lastPage), .move replica .write, .move replica .advance]

private def findsOpen (world : ShardWorld Unit Unit Nat) : ShardAction Unit Unit Nat → Bool
  | .move _ .terminate => world.db.shard.state.isOpen
  | _ => true

private def oneOwner : List (ShardAction Unit Unit Nat) :=
  [.move 0 .receive, .move 0 .claim] ++ fetchLastPage 0 ++ [.move 0 .terminate, .move 0 .publish]

theorem terminal_agreement_one_owner : ∃ world : ShardWorld Unit Unit Nat,
    runAll (shardStep 30) {} oneOwner = some world ∧ world.db.published = [⟨1, true⟩] ∧
      SignalsAgree world.db ∧ PublishedByMover world.db := by
  have hcheck : ∀ world action, findsOpen world action → TerminatesOpen world action := by
    intro world action hopen
    cases action with
    | move replica move =>
      intro hterminate _
      subst hterminate
      exact hopen
    | elapse | rollUp | reshard => trivial
  have hrun : ∃ world, runChecked (shardStep 30) findsOpen {} oneOwner = some world ∧
      runAll (shardStep 30) {} oneOwner = some world ∧ world.db.published = [⟨1, true⟩] :=
    ⟨_, rfl, rfl, rfl⟩
  obtain ⟨world, hchecked, hworld, hpublished⟩ := hrun
  have hreach : Reach (shardStep 30) TerminatesOpen {} world :=
    reach_of_runChecked hcheck hchecked
  exact ⟨world, hworld, hpublished, terminal_agreement hreach⟩

/-- The first replica is slow after its last page; the second one takes over and
fails the shard, and the first one publishes all the same. -/
private def slowOwner : List (ShardAction Unit Unit Nat) :=
  [.move 0 .receive, .move 0 .claim] ++ fetchLastPage 0 ++
    [.elapse 31, .move 1 .scan, .move 1 .refresh, .move 1 (.raise "401"), .move 1 .terminate,
      .move 0 .terminate, .move 0 .publish]

theorem published_of_failed_shard : ¬ ∀ world : ShardWorld Unit Unit Nat,
    Reach (shardStep 30) anyStep {} world → SignalsAgree world.db ∧ PublishedByMover world.db := by
  intro hagree
  have hrun : ∃ world : ShardWorld Unit Unit Nat,
      runAll (shardStep 30) {} slowOwner = some world ∧ world.db.shard.state = .failed ∧
        world.db.published = [⟨1, false⟩] := ⟨_, rfl, rfl, rfl⟩
  obtain ⟨world, hworld, -, hpublished⟩ := hrun
  have hreach : Reach (shardStep 30) anyStep {} world :=
    reach_of_run hworld
  have hmoved := (hagree world hreach).2 ⟨1, false⟩ (by rw [hpublished]; exact .head _)
  cases hmoved

end FyralisCore.Ingestion
