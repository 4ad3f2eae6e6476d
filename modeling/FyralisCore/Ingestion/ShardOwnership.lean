import FyralisCore.Ingestion.ShardExecution

/-! Who owns a shard. The claim is exclusive, but neither the UPDATE of the
orphan scan nor the path of a signal for a shard in progress looks at the lease;
ownership is exclusive in the runs in which they would not have had to. -/
namespace FyralisCore.Ingestion

open Transition Function

variable {Cursor Body Replica : Type} {leaseTimeout leased : Nat} {db db' : ShardDb Cursor}
  {exec exec' : Execution Cursor Body} {move : Move Cursor Body}

def Execution.Holds (leaseTimeout now : Nat) (exec : Execution Cursor Body) : Prop :=
  exec.phase.inFetchLoop ∧ ∃ leased, exec.leasedAt = some leased ∧ now ≤ leased + leaseTimeout

def OneOwner (leaseTimeout : Nat) (world : ShardWorld Cursor Body Replica) : Prop :=
  ∀ replica other, (world.execs replica).Holds leaseTimeout world.db.now →
    (world.execs other).Holds leaseTimeout world.db.now → replica = other

def ShardDb.LeaseExpired (leaseTimeout : Nat) (db : ShardDb Cursor) : Prop :=
  (∀ startedAt, db.shard.startedAt = some startedAt → startedAt + leaseTimeout < db.now) ∧
  ∀ row, db.workflow = some row → row.lastAdvancedAt + leaseTimeout < db.now

def Move.stamps (db : ShardDb Cursor) : Move Cursor Body → Bool
  | .claim => decide (db.shard.state = .pending)
  | .refresh => decide (db.shard.state = .inProgress)
  | .bootstrap | .advance => true
  | .receive | .replay | .scan | .loadInstall _ | .ensure | .load | .fetch _ | .write | .raise _
  | .terminate | .publish | .stop => false

/-- A replica that refreshes, bootstraps or advances holds the lease, or finds it
expired. A claim is under no condition. -/
def LeaseRespected (leaseTimeout : Nat) (world : ShardWorld Cursor Body Replica) :
    ShardAction Cursor Body Replica → Prop
  | .move replica move => move.stamps world.db → move ≠ .claim →
      (world.execs replica).Holds leaseTimeout world.db.now ∨ world.db.LeaseExpired leaseTimeout
  | .elapse _ | .rollUp | .reshard => True

def ShardDb.Stamped (db : ShardDb Cursor) (leased : Nat) : Prop :=
  (∃ startedAt, db.shard.startedAt = some startedAt ∧ leased ≤ startedAt) ∨
    ∃ row, db.workflow = some row ∧ leased ≤ row.lastAdvancedAt

structure Owned (leaseTimeout : Nat) (world : ShardWorld Cursor Body Replica) : Prop where
  owner : OneOwner leaseTimeout world
  stamped : ∀ replica leased, (world.execs replica).leasedAt = some leased →
    world.db.Stamped leased
  past : ∀ leased, world.db.Stamped leased → leased ≤ world.db.now
  unclaimed : world.db.shard.state = .pending →
    ∀ replica, (world.execs replica).phase.inFetchLoop = false

section

variable (hm : db.move leaseTimeout exec move = some (db', exec'))

include hm

theorem move_of_not_stamps (hq : move.stamps db = false) : db'.shard.startedAt =
    db.shard.startedAt ∧ db'.workflow = db.workflow ∧ db'.now = db.now ∧ (exec'.leasedAt = none ∨
    exec'.leasedAt = exec.leasedAt ∧ (exec'.phase.inFetchLoop → exec.phase.inFetchLoop)) := by
  cases move with
  | receive | replay | scan | loadInstall | ensure | load | fetch | write | raise | terminate
  | publish | stop | claim | refresh =>
    simp only [ShardDb.move] at hm
    grind [Execution.enter, ShardDb.emitCompleted, ShardDb.terminate, markShard,
      ExecutionPhase.inFetchLoop, Move.stamps]
  | bootstrap | advance => cases hq

theorem move_of_stamps (hs : move.stamps db) : db'.now = db.now ∧ exec'.leasedAt = some db.now ∧
    db'.Stamped db.now ∧ ∀ leased, db'.Stamped leased → leased ≤ db.now ∨ db.Stamped leased := by
  unfold ShardDb.Stamped
  cases move with
  | claim =>
    simp only [ShardDb.move, of_decide_eq_true hs] at hm
    cases hst : db.shard.startedAt <;> grind [ShardDb.persistInitial]
  | refresh | bootstrap | advance =>
    simp only [ShardDb.move] at hm
    grind [ShardDb.persistInitial, Move.stamps]
  | receive | replay | scan | loadInstall | ensure | load | fetch | write | raise | terminate
  | publish | stop => cases hs

end

theorem ShardDb.Stamped.mono (hs : db.Stamped u) (hl : leased ≤ u) :
    db.Stamped leased := by
  unfold ShardDb.Stamped at hs ⊢
  grind

theorem not_holds_of_expired (he : db.LeaseExpired leaseTimeout)
    (hs : ∀ leased, exec.leasedAt = some leased → db.Stamped leased) :
    ¬ exec.Holds leaseTimeout db.now := by
  rintro ⟨-, leased, hl, hv⟩
  obtain ⟨hsh, hw⟩ := he
  rcases hs leased hl with ⟨startedAt, hg, hle⟩ | ⟨row, hg, hle⟩
  · have := hsh startedAt hg
    omega
  · have := hw row hg
    omega

section Runs

variable [DecidableEq Replica] {world world' : ShardWorld Cursor Body Replica} {replica : Replica}

omit [DecidableEq Replica] in
theorem Owned.alone (how : Owned leaseTimeout world)
    (hm : world.db.move leaseTimeout (world.execs replica) move = some (db', exec'))
    (hs : move.stamps world.db)
    (hr : LeaseRespected leaseTimeout world (.move replica move))
    (hn : other ≠ replica) : ¬ (world.execs other).Holds leaseTimeout world.db.now := by
  intro ho
  by_cases hc : move = .claim
  · subst hc
    have hp := of_decide_eq_true hs
    rw [Execution.Holds, how.unclaimed hp other] at ho
    cases ho.1
  · rcases hr hs hc with hh | he
    · exact hn (how.owner other replica ho hh)
    · exact not_holds_of_expired he (how.stamped other) ho

theorem Owned.moved (how : Owned leaseTimeout world)
    (hm : world.db.move leaseTimeout (world.execs replica) move = some (db', exec'))
    (hr : LeaseRespected leaseTimeout world (.move replica move)) :
    Owned leaseTimeout ⟨db', Function.update world.execs replica exec'⟩ := by
  have hu : db'.shard.state = .pending → ∀ other,
      (Function.update world.execs replica exec' other).phase.inFetchLoop = false := by
    intro hp other
    obtain ⟨hb, hk⟩ := pending_of_move hm hp
    have hother := how.unclaimed hb
    by_cases ho : other = replica
    · subst ho
      rw [update_self, Bool.eq_false_iff]
      intro hi
      rw [hother other] at hk
      cases hk hi
    · rw [update_of_ne ho]
      exact hother other
  cases hstm : move.stamps world.db with
  | false =>
    obtain ⟨hst, hw, hnw, hx⟩ := move_of_not_stamps hm hstm
    have hs : ∀ leased, db'.Stamped leased ↔ world.db.Stamped leased := by
      intro leased
      rw [ShardDb.Stamped, ShardDb.Stamped, hst, hw]
    have hl : ∀ other leased,
        (Function.update world.execs replica exec' other).leasedAt = some leased →
          (world.execs other).leasedAt = some leased := by
      intro other leased hg
      by_cases ho : other = replica
      · subst ho
        rw [update_self] at hg
        rcases hx with hn | ⟨hk, -⟩
        · rw [hn] at hg
          cases hg
        · rw [← hk, hg]
      · rwa [update_of_ne ho] at hg
    have hh : ∀ other,
        (Function.update world.execs replica exec' other).Holds leaseTimeout db'.now →
          (world.execs other).Holds leaseTimeout world.db.now := by
      rintro other ⟨hi, leased, hg, hv⟩
      refine ⟨?_, leased, hl other leased hg, hnw ▸ hv⟩
      by_cases ho : other = replica
      · subst ho
        rw [update_self] at hi hg
        rcases hx with hn | ⟨-, hk⟩
        · rw [hn] at hg
          cases hg
        · exact hk hi
      · rwa [update_of_ne ho] at hi
    exact
      { owner := fun first second h1 h2 =>
          how.owner first second (hh first h1) (hh second h2)
        stamped := fun other leased hg =>
          (hs leased).mpr (how.stamped other leased (hl other leased hg))
        past := fun leased hsp => by
          rw [hnw]
          exact how.past leased ((hs leased).mp hsp)
        unclaimed := hu }
  | true =>
    obtain ⟨hnw, hl, hsp, hps⟩ := move_of_stamps hm hstm
    have hal : ∀ other,
        (Function.update world.execs replica exec' other).Holds leaseTimeout db'.now →
          other = replica := by
      intro other hh
      by_contra hne
      rw [update_of_ne hne, hnw] at hh
      exact how.alone hm hstm hr hne hh
    exact
      { owner := fun first second h1 h2 =>
          (hal first h1).trans (hal second h2).symm
        stamped := by
          intro other leased hg
          apply hsp.mono
          change (Function.update world.execs replica exec' other).leasedAt = some leased at hg
          by_cases ho : other = replica
          · subst ho
            rw [update_self, hl] at hg
            cases hg
            exact Nat.le_refl _
          · rw [update_of_ne ho] at hg
            exact how.past leased (how.stamped other leased hg)
        past := by
          intro leased ha
          rw [hnw]
          exact (hps leased ha).elim id (how.past leased)
        unclaimed := hu }

theorem owned_step (ho : Owned leaseTimeout world) (hr : LeaseRespected leaseTimeout world action)
    (hst : shardStep leaseTimeout world action = some world') : Owned leaseTimeout world' := by
  cases action with
  | move replica move =>
    obtain ⟨⟨db', exec'⟩, hm, rfl⟩ := Option.map_eq_some_iff.mp hst
    exact ho.moved hm hr
  | elapse duration =>
    cases hst
    have hpr : ∀ replica, (world.execs replica).Holds leaseTimeout (world.db.now + duration) →
        (world.execs replica).Holds leaseTimeout world.db.now := by
      rintro replica ⟨hi, leased, hl, hv⟩
      exact ⟨hi, leased, hl, by omega⟩
    exact
      { owner := fun first second h1 h2 =>
          ho.owner first second (hpr first h1) (hpr second h2)
        stamped := ho.stamped
        past := fun leased hsp => Nat.le_add_right_of_le (ho.past leased hsp)
        unclaimed := ho.unclaimed }
  | rollUp =>
    obtain ⟨db', hrl, rfl⟩ := Option.map_eq_some_iff.mp hst
    obtain ⟨data, -, rfl⟩ := Option.map_eq_some_iff.mp hrl
    have hs : ∀ ending leased,
        ({ world.db with
          shard := markShard "<unspecified failure>" world.db.shard ending }).Stamped leased ↔
            world.db.Stamped leased := by
      simp [ShardDb.Stamped]
    exact
      { owner := ho.owner
        stamped := fun replica leased hl =>
          (hs _ leased).mpr (ho.stamped replica leased hl)
        past := fun leased hsp => ho.past leased ((hs _ leased).mp hsp)
        unclaimed := fun hp => absurd hp (markShard_ne_pending _ _ _) }
  | reshard =>
    obtain ⟨hd, he⟩ := Option.ite_none_right_eq_some.mp hst
    cases he
    exact
      { owner := ho.owner
        stamped := ho.stamped
        past := ho.past
        unclaimed := fun hp => by cases hp }

/-- In a run that respects the lease a shard has one owner at a time. -/
theorem oneOwner_of_leaseRespected {now : Nat}
    (hreach : Reach (shardStep leaseTimeout) (LeaseRespected leaseTimeout)
      ({ db := { now } } : ShardWorld Cursor Body Replica) world) :
    OneOwner leaseTimeout world := by
  have howned : Owned leaseTimeout world := by
    apply hreach.invariant
    · exact
        { owner := fun _ _ hholds => by cases hholds.1
          stamped := fun _ _ hleased => by cases hleased
          past := by
            rintro leased (⟨_, hget, -⟩ | ⟨_, hget, -⟩) <;> cases hget
          unclaimed := fun _ _ => rfl }
    · exact fun s action t howned hrespected hstep => owned_step howned hrespected hstep
  exact howned.owner

end Runs

/-- The claiming replica dies and another one takes the shard over. -/
theorem oneOwner_after_takeover : ∃ world : ShardWorld Unit Unit Nat, runAll (shardStep 30) {}
      [.move 0 .receive, .move 0 .claim, .move 0 .stop, .elapse 31, .move 1 .scan,
        .move 1 .refresh] = some world ∧
    (world.execs 1).Holds 30 world.db.now ∧ OneOwner 30 world := by
  refine ⟨_, rfl, ⟨rfl, 31, rfl, by decide⟩, ?_⟩
  apply oneOwner_of_leaseRespected
  have hdied : Reach (shardStep 30) (LeaseRespected 30) ({} : ShardWorld Unit Unit Nat) _ :=
    ((Reach.start.next (a := .move 0 .receive) (fun h => by cases h) rfl).next
      (a := .move 0 .claim) (fun _ h => absurd rfl h) rfl).next
      (a := .move 0 .stop) (fun h => by cases h) rfl
  have hlisted : Reach (shardStep 30) (LeaseRespected 30) ({} : ShardWorld Unit Unit Nat) _ :=
    (hdied.next (a := .elapse 31) (by trivial) rfl).next (a := .move 1 .scan) (fun h => by cases h) rfl
  refine hlisted.next (a := .move 1 .refresh) (fun _ _ => .inr ⟨?_, ?_⟩) rfl
  · intro startedAt hget
    cases hget
    decide
  · intro row hget
    cases hget
    decide

/-- Two replicas list the orphan before either has refreshed it; both UPDATEs
match, and both load the cursor. -/
private def doubleTakeover : List (ShardAction Unit Unit Nat) :=
  [.move 0 .receive, .move 0 .claim, .move 0 .stop, .elapse 31, .move 1 .scan, .move 2 .scan,
    .move 1 .refresh, .move 2 .refresh, .move 1 (.loadInstall true), .move 2 (.loadInstall true),
    .move 1 .ensure, .move 2 .ensure, .move 1 .load, .move 2 .load]

theorem two_owners : ¬ ∀ world : ShardWorld Unit Unit Nat,
    Reach (shardStep 30) anyStep {} world → OneOwner 30 world := by
  intro hone
  have hrun : ∃ world : ShardWorld Unit Unit Nat, runAll (shardStep 30) {} doubleTakeover = some world ∧
      (world.execs 1).Holds 30 world.db.now ∧ (world.execs 2).Holds 30 world.db.now :=
    ⟨_, rfl, ⟨rfl, 31, rfl, by decide⟩, ⟨rfl, 31, rfl, by decide⟩⟩
  obtain ⟨world, hworld, hfirst, hsecond⟩ := hrun
  have hreach : Reach (shardStep 30) anyStep {} world :=
    reach_of_run hworld
  cases hone world hreach 1 2 hfirst hsecond

end FyralisCore.Ingestion
