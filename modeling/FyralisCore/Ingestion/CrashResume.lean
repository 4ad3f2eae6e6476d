import FyralisCore.Ingestion.CursorOrdering
import FyralisCore.Ingestion.ShardExecution

/-! What a shard counts when its owners crash and others resume. The count is
stored with the cursor, so no page is lost or counted twice on the way; but the
stored end of data is never read, and a resume after the last page goes on from
the cursor behind it. -/
namespace FyralisCore.Ingestion

open Transition Option Function

variable {Cursor Body Replica : Type} {leaseTimeout now : Nat}
  {fetcher : Option Cursor → FetchResult Cursor Body} {db db' : ShardDb Cursor}
  {exec exec' : Execution Cursor Body} {move : Move Cursor Body}

def pageAt (fetcher : Option Cursor → FetchResult Cursor Body) (n : Nat) :
    FetchResult Cursor Body :=
  fetcher (cursorAt fetcher n)

def recordsBefore (fetcher : Option Cursor → FetchResult Cursor Body) : Nat → Nat
  | 0 => 0
  | n + 1 => recordsBefore fetcher n + (pageAt fetcher n).records.length

section

variable (fetcher : Option Cursor → FetchResult Cursor Body)

/-- Owners follow one another: an execution starts once the one before it has
crashed, parked or come to its end, and each page is what the fetcher returns. -/
def Sequential (world : ShardWorld Cursor Body Replica) : ShardAction Cursor Body Replica → Prop
  | .move replica move =>
    (move = .receive ∨ move = .scan → ∀ other, other ≠ replica →
      (world.execs other).phase = .idle) ∧
    ∀ result current, move = .fetch result → (world.execs replica).phase = .fetchPage current →
      result = fetcher (cursorOf current)
  | .elapse _ | .rollUp | .reshard => True

def CountAtEnd (count : Nat) : Prop :=
  ∃ n, (pageAt fetcher n).endOfData ∧ count = recordsBefore fetcher (n + 1)

def RowCounted (db : ShardDb Cursor) : Prop :=
  ∀ row, db.workflow = some row → ∃ n, row.stateData.cursor = cursorAt fetcher n ∧
    row.stateData.recordsFetched.getD 0 = recordsBefore fetcher n

def PhaseCounted (db : ShardDb Cursor) (count : Nat) : ExecutionPhase Cursor Body → Prop
  | .claiming | .orphaned | .loadInstall | .ensureState | .persistInitial => count = 0
  | .loadCursor => ∃ n row, db.workflow = some row ∧ row.stateData.cursor = cursorAt fetcher n ∧
      count = recordsBefore fetcher n
  | .fetchPage current => ∃ n, cursorOf current = cursorAt fetcher n ∧
      count = recordsBefore fetcher n
  | .writePage _ result | .advance _ result => ∃ n, result = pageAt fetcher n ∧
      count = recordsBefore fetcher (n + 1)
  | .terminating .done | .publishing _ => CountAtEnd fetcher count
  | .idle | .replaying _ | .terminating (.failed _) => True

def EventsCounted (db : ShardDb Cursor) : Prop :=
  ∀ event ∈ db.published, CountAtEnd fetcher event.observationCount

end

theorem rowCounted_initial : RowCounted fetcher db.persistInitial := by
  intro row hr
  cases hr
  exact ⟨0, rfl, rfl⟩

section

variable (hr : RowCounted fetcher db) (hp : PhaseCounted fetcher db exec.recordsFetched exec.phase)

include hr hp

theorem rowCounted_of_move (hm : db.move leaseTimeout exec move = some (db', exec')) :
    RowCounted fetcher db' := by
  cases move <;> simp only [ShardDb.move] at hm
  case advance =>
    split at hm
    · next current r row had hw =>
      cases hm
      rw [had] at hp
      obtain ⟨n, rfl, hc⟩ := hp
      intro t ha
      cases ha
      exact ⟨n + 1, rfl, hc⟩
    · cases hm
  case claim =>
    split at hm
    · split at hm
      · cases hm
        exact rowCounted_initial
      · cases hm
        exact hr
    · cases hm
  case bootstrap =>
    split at hm
    · cases hm
      exact rowCounted_initial
    · cases hm
  all_goals
    have hs : db'.workflow = db.workflow := by
      grind [ShardDb.emitCompleted, ShardDb.terminate]
    rw [RowCounted, hs]
    exact hr

theorem phaseCounted_of_move (hf : ∀ r current, move = .fetch r → exec.phase = .fetchPage current →
    r = fetcher (cursorOf current)) (hm : db.move leaseTimeout exec move = some (db', exec')) :
    PhaseCounted fetcher db' exec'.recordsFetched exec'.phase := by
  cases move <;> simp only [ShardDb.move] at hm
  case ensure =>
    split at hm
    · next he _ =>
      rw [he] at hp
      cases hm
      exact hp
    · next row _ hwr =>
      cases hm
      obtain ⟨n, hc, hcn⟩ := hr row hwr
      exact ⟨n, row, hwr, hc, hcn⟩
    · cases hm
  case bootstrap =>
    split at hm
    · next hb =>
      rw [hb] at hp
      cases hm
      exact ⟨0, _, rfl, rfl, hp⟩
    · cases hm
  case load =>
    split at hm
    · next hl =>
      rw [hl] at hp
      cases hm
      obtain ⟨n, row, hwr, hc, hcn⟩ := hp
      refine ⟨n, ?_, hcn⟩
      rw [hwr]
      exact hc
    · cases hm
  case fetch r =>
    split at hm
    · next current hpa =>
      have hrs := hf r current rfl hpa
      rw [hpa] at hp
      cases hm
      obtain ⟨n, hc, hcn⟩ := hp
      have hpg : r = pageAt fetcher n := by rw [hrs, hc, pageAt]
      refine ⟨n, hpg, ?_⟩
      rw [recordsBefore, ← hcn, hpg]
    · cases hm
  case write =>
    split at hm
    · next hw =>
      rw [hw] at hp
      cases hm
      exact hp
    · cases hm
  case advance =>
    split at hm
    · next current r row ha _ =>
      rw [ha] at hp
      cases hm
      obtain ⟨n, rfl, hcn⟩ := hp
      cases hen : (pageAt fetcher n).endOfData with
      | true => exact ⟨n, hen, hcn⟩
      | false => exact ⟨n + 1, _, rfl, rfl, hcn⟩
    · cases hm
  case terminate =>
    split at hm
    · next hd =>
      rw [hd] at hp
      cases hm
      exact hp
    · cases hm
      trivial
    · cases hm
  all_goals
    grind [PhaseCounted, Execution.enter]

end

theorem eventsCounted_of_move (he : EventsCounted fetcher db)
    (hp : PhaseCounted fetcher db exec.recordsFetched exec.phase)
    (hm : db.move leaseTimeout exec move = some (db', exec')) : EventsCounted fetcher db' := by
  cases move <;> simp only [ShardDb.move] at hm
  case publish =>
    split at hm
    · next hpb =>
      rw [hpb] at hp
      cases hm
      intro event hev
      rcases List.mem_append.mp hev with ho | hn
      · exact he event ho
      · rw [List.mem_singleton.mp hn]
        exact hp
    · cases hm
  all_goals
    have hs : db'.published = db.published := by
      grind [ShardDb.emitCompleted, ShardDb.terminate, ShardDb.persistInitial]
    rw [EventsCounted, hs]
    exact he

section Runs

variable [DecidableEq Replica] {world world' : ShardWorld Cursor Body Replica}

structure Counted (fetcher : Option Cursor → FetchResult Cursor Body)
    (world : ShardWorld Cursor Body Replica) : Prop where
  one : ∀ replica other, (world.execs replica).phase ≠ .idle → (world.execs other).phase ≠ .idle →
    replica = other
  row : RowCounted fetcher world.db
  phase : ∀ replica, PhaseCounted fetcher world.db (world.execs replica).recordsFetched
    (world.execs replica).phase
  events : EventsCounted fetcher world.db

theorem idle_of_move (hm : db.move leaseTimeout exec move = some (db', exec'))
    (hi : exec.phase = .idle) :
    db' = db ∧ ((move = .receive ∨ move = .scan) ∨ exec'.phase = .idle) := by
  cases move <;>
    · simp only [ShardDb.move, hi] at hm
      grind [ExecutionPhase.inFetchLoop]

theorem Counted.moved (hc : Counted fetcher world)
    (hs : Sequential fetcher world (.move replica move))
    (hm : world.db.move leaseTimeout (world.execs replica) move = some (db', exec')) :
    Counted fetcher ⟨db', Function.update world.execs replica exec'⟩ := by
  obtain ⟨hon, hr, hp, he⟩ := hc
  obtain ⟨hst, hf⟩ := hs
  -- the replica is the one at work, or it starts when no other one is
  have ha : exec'.phase ≠ .idle → ∀ other, other ≠ replica → (world.execs other).phase = .idle := by
    intro ha other ho
    by_cases hi : (world.execs replica).phase = .idle
    · obtain ⟨-, hs0 | hstl⟩ := idle_of_move hm hi
      · exact hst hs0 other ho
      · exact absurd hstl ha
    · by_contra hb
      exact ho (hon other replica hb hi)
  refine ⟨fun first second h1 h2 => ?_, rowCounted_of_move hr (hp replica) hm,
    fun other => ?_, eventsCounted_of_move he (hp replica) hm⟩
  · change (Function.update world.execs replica exec' first).phase ≠ .idle at h1
    grind [update_apply]
  · change PhaseCounted fetcher db' (Function.update world.execs replica exec' other).recordsFetched
      (Function.update world.execs replica exec' other).phase
    by_cases ho : other = replica
    · rw [ho, update_self]
      exact phaseCounted_of_move hr (hp replica) hf hm
    · rw [update_of_ne ho]
      by_cases hi : (world.execs replica).phase = .idle
      · rw [(idle_of_move hm hi).1]
        exact hp other
      · have ht : (world.execs other).phase = .idle := by
          by_contra hb
          exact ho (hon other replica hb hi)
        rw [ht]
        trivial

theorem counted_step (hc : Counted fetcher world) (hsq : Sequential fetcher world action)
    (hs : shardStep leaseTimeout world action = some world') : Counted fetcher world' := by
  cases action with
  | move replica move =>
    obtain ⟨⟨db', exec'⟩, hm, rfl⟩ := map_eq_some_iff.mp hs
    exact hc.moved hsq hm
  | elapse duration =>
    cases hs
    exact ⟨hc.one, hc.row, hc.phase, hc.events⟩
  | rollUp =>
    obtain ⟨db', hr, rfl⟩ := map_eq_some_iff.mp hs
    obtain ⟨data, -, rfl⟩ := map_eq_some_iff.mp hr
    exact ⟨hc.one, hc.row, hc.phase, hc.events⟩
  | reshard =>
    obtain ⟨-, he⟩ := ite_none_right_eq_some.mp hs
    cases he
    exact ⟨hc.one, hc.row, hc.phase, hc.events⟩

/-- Whatever crashes and resumes there are, a shard is closed with the records of
the pages up to one that ends the data. -/
theorem eventsCounted_of_reach (hrc : Reach (shardStep leaseTimeout) (Sequential fetcher)
      ({ db := { now } } : ShardWorld Cursor Body Replica) world) :
    EventsCounted fetcher world.db := by
  have hc : Counted fetcher world := by
    apply hrc.invariant
    · exact ⟨(fun _ _ hb => absurd rfl hb), (fun _ hr => by cases hr), fun _ => trivial,
        fun _ he => by cases he⟩
    · exact fun s action t hc hsq hs => counted_step hc hsq hs
  exact hc.events

def soloWorld (replica : Replica) (db : ShardDb Cursor) (exec : Execution Cursor Body) :
    ShardWorld Cursor Body Replica :=
  { db, execs := fun other => if other = replica then exec else {} }

variable {replica : Replica} {start : ShardWorld Cursor Body Replica}

abbrev SequentialReach (leaseTimeout : Nat) (fetcher : Option Cursor → FetchResult Cursor Body)
    (start world : ShardWorld Cursor Body Replica) : Prop :=
  Reach (shardStep leaseTimeout) (Sequential fetcher) start world

theorem reach_fetch (hr : SequentialReach leaseTimeout fetcher start (soloWorld replica db exec))
    (move : Move Cursor Body)
    (hf : ∀ r current, move = .fetch r → exec.phase = .fetchPage current →
      r = fetcher (cursorOf current))
    (hm : db.move leaseTimeout exec move = some (db', exec')) :
    SequentialReach leaseTimeout fetcher start (soloWorld replica db' exec') := by
  have hs : (soloWorld replica db exec).execs replica = exec := if_pos rfl
  refine hr.next (a := .move replica move) ⟨fun _ other ho => ?_, ?_⟩ ?_
  · simp [soloWorld, ho]
  · rw [hs]
    exact hf
  · change (db.move leaseTimeout ((soloWorld replica db exec).execs replica) move).map _ = _
    rw [hs, hm]
    simp only [map_some, soloWorld, Option.some.injEq, ShardWorld.mk.injEq, true_and]
    funext other
    grind [update_apply]

theorem reach_soloWorld
    (hr : SequentialReach leaseTimeout fetcher start (soloWorld replica db exec))
    (move : Move Cursor Body) (hm : db.move leaseTimeout exec move = some (db', exec'))
    (ho : ∀ result, move ≠ .fetch result := by simp) :
    SequentialReach leaseTimeout fetcher start (soloWorld replica db' exec') :=
  reach_fetch hr move (fun result _ hf => absurd hf (ho result)) hm

/-- An execution resumes the shard, fetches the page of the stored cursor and
stores the cursor behind it. -/
theorem reach_nextPage (hst : shard.state = .inProgress)
    (hrc : SequentialReach leaseTimeout fetcher start
      (soloWorld replica ⟨shard, some row, completed, published, now⟩ {})) :
    let page := fetcher row.stateData.cursor
    let count := row.stateData.recordsFetched.getD 0 + page.records.length
    let later := now + (row.lastAdvancedAt + leaseTimeout + 1)
    SequentialReach leaseTimeout fetcher start (soloWorld replica
      ⟨{ shard with startedAt := some later },
        some ⟨newStateData (some row.stateData) page count, later⟩, completed, published, later⟩
      ⟨if page.endOfData then .terminating .done else .loadCursor, count, some later⟩) := by
  intro page count later
  have hex := hrc.next (a := .elapse (row.lastAdvancedAt + leaseTimeout + 1)) (by trivial) rfl
  have ho : (⟨shard, some row, completed, published, later⟩ : ShardDb Cursor).isOrphan
      leaseTimeout := by
    simp only [ShardDb.isOrphan, hst, decide_true, Bool.true_and, decide_eq_true_eq]
    omega
  have hs := reach_soloWorld hex .scan (if_pos ho)
  have hr := reach_soloWorld hs .refresh (if_pos hst)
  have hi := reach_soloWorld hr (.loadInstall true) rfl
  have he := reach_soloWorld hi .ensure rfl
  have hl := reach_soloWorld he .load rfl
  have hf := reach_fetch hl (.fetch page) (fun r current hft hp => by cases hft; cases hp; rfl) rfl
  have hw := reach_soloWorld hf .write rfl
  exact reach_soloWorld hw .advance rfl

theorem reach_page (leaseTimeout now : Nat) (fetcher : Option Cursor → FetchResult Cursor Body)
    (replica : Replica) (n : Nat) :
    ∃ shard row completed published u, shard.state = .inProgress ∧
      row.stateData.cursor = cursorAt fetcher n ∧
      row.stateData.recordsFetched.getD 0 = recordsBefore fetcher n ∧
      SequentialReach leaseTimeout fetcher { db := { now } }
        (soloWorld replica ⟨shard, some row, completed, published, u⟩ {}) := by
  induction n with
  | zero =>
    have hi : soloWorld replica { now } {} =
        ({ db := { now } } : ShardWorld Cursor Body Replica) := by
      simp [soloWorld]
    have hs0 : SequentialReach leaseTimeout fetcher { db := { now } }
        (soloWorld replica { now } {}) := by
      rw [hi]
      exact Reach.start
    have hr := reach_soloWorld hs0 .receive rfl
    have hcl := reach_soloWorld hr .claim rfl
    exact ⟨_, _, _, _, _, rfl, rfl, rfl, reach_soloWorld hcl .stop rfl⟩
  | succ n ih =>
    obtain ⟨shard, row, completed, published, u, hs, hc, hcn, hrc⟩ := ih
    have hn := reach_soloWorld (reach_nextPage hs hrc) .stop rfl
    refine ⟨_, _, _, _, _, ?_, ?_, ?_, hn⟩
    · exact hs
    · rw [hc]
      rfl
    · rw [hc, hcn]
      rfl

theorem reach_end (leaseTimeout now : Nat) (replica : Replica)
    (he : (pageAt fetcher n).endOfData) : ∃ world : ShardWorld Cursor Body Replica,
      SequentialReach leaseTimeout fetcher { db := { now } } world ∧
      ∃ event ∈ world.db.published, event.observationCount = recordsBefore fetcher (n + 1) := by
  obtain ⟨shard, row, completed, published, u, hs, hc, hcn, hr⟩ :=
    reach_page leaseTimeout now fetcher replica n
  have hn := reach_nextPage hs hr
  have hp : fetcher (cursorAt fetcher n) = pageAt fetcher n := rfl
  simp only [hc, hcn, hp, he, if_true] at hn
  have ht := reach_soloWorld hn .terminate rfl
  have hpb := reach_soloWorld ht .publish rfl
  exact ⟨_, hpb, _, List.mem_append_right _ (.head _), rfl⟩

/-- The count is that of the chain in every sequential run exactly when no page
that ends the data behind the last one would add to it. -/
theorem count_exact_iff [Nonempty Replica] {last : Nat} (hlast : (pageAt fetcher last).endOfData)
    (hfirst : ∀ n < last, (pageAt fetcher n).endOfData = false) :
    (∀ world : ShardWorld Cursor Body Replica,
      Reach (shardStep leaseTimeout) (Sequential fetcher) { db := { now } } world →
        ∀ event ∈ world.db.published, event.observationCount = recordsBefore fetcher (last + 1)) ↔
    ∀ n, last < n → (pageAt fetcher n).endOfData →
      recordsBefore fetcher (n + 1) = recordsBefore fetcher (last + 1) := by
  constructor
  · intro hexact n _ hend
    obtain ⟨replica⟩ := ‹Nonempty Replica›
    obtain ⟨world, hreach, event, hevent, hcount⟩ := reach_end leaseTimeout now replica hend
    rw [← hcount]
    exact hexact world hreach event hevent
  · intro hbehind world hreach event hevent
    obtain ⟨n, hend, hcount⟩ := eventsCounted_of_reach hreach event hevent
    rw [hcount]
    rcases Nat.lt_trichotomy n last with hlt | rfl | hgt
    · rw [hfirst n hlt] at hend
      cases hend
    · rfl
    · exact hbehind n hgt hend

end Runs

private def channel : Option Unit → FetchResult Unit Unit
  | none => ⟨[⟨(), none⟩], some (), false⟩
  | some _ => ⟨[⟨(), none⟩], none, true⟩

private def drained : Option Unit → FetchResult Unit Unit
  | none => ⟨[⟨(), none⟩], some (), true⟩
  | some _ => ⟨[], some (), true⟩

theorem count_exact_drained : (∃ world : ShardWorld Unit Unit Nat,
      Reach (shardStep 30) (Sequential drained) {} world ∧ world.db.published ≠ []) ∧
    ∀ world : ShardWorld Unit Unit Nat, Reach (shardStep 30) (Sequential drained) {} world →
      ∀ event ∈ world.db.published, event.observationCount = 1 := by
  have hbehind : ∀ n, pageAt drained (n + 1) = ⟨[], some (), true⟩ := by
    intro n
    have hcursor : cursorAt drained (n + 1) = some () := by
      rw [cursorAt]
      cases cursorAt drained n <;> rfl
    rw [pageAt, hcursor, drained]
  have hcount : ∀ n, recordsBefore drained (n + 1) = 1 := by
    intro n
    induction n with
    | zero => rfl
    | succ n ih => rw [recordsBefore, ih, hbehind]; rfl
  have hlast : (pageAt drained 0).endOfData := rfl
  constructor
  · obtain ⟨world, hreach, event, hevent, -⟩ := reach_end 30 0 0 hlast
    exact ⟨world, hreach, List.ne_nil_of_mem hevent⟩
  · exact (count_exact_iff hlast (fun _ hlt => absurd hlt (Nat.not_lt_zero _))).mpr
      fun n _ _ => hcount n

/-- The owner dies between its last advance and the terminal transition. -/
theorem count_not_exact : ¬ ∀ world : ShardWorld Unit Unit Nat,
    Reach (shardStep 30) (Sequential channel) {} world →
      ∀ event ∈ world.db.published, event.observationCount = recordsBefore channel 2 := by
  intro hexact
  have hend : (pageAt channel 3).endOfData := rfl
  obtain ⟨world, hreach, event, hevent, hcount⟩ := reach_end 30 0 0 hend
  have hchain := hexact world hreach event hevent
  rw [hcount] at hchain
  cases hchain

end FyralisCore.Ingestion
