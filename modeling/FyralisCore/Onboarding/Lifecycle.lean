import FyralisCore.Onboarding.Trails

/-! The life of a source, as the committed tables show it: which rows, shards
and signals can stand beside each other. A source waits for its request, is
fetched, rolled up, reconciled, and fetched again for every gap; it fails at
its planning, at its roll-up or at its reconciliation. -/
namespace FyralisCore.Onboarding

open Relational Transaction Ingestion ReadCommitted

variable {s t : OnboardingDb} {key : SourceKey} {row : SourceRun} {id : Nat}

/-- What a run promises beyond the interleaving of its sessions. -/
structure Promises where
  /-- PeriodicReconciler re-shares only sources of complete runs -/
  steady : Prop
  /-- no source that waits for its reconciliation is counted as done -/
  counted : Prop
  /-- no shard of a reconciled source fails -/
  unfailing : Prop

variable {c : Promises}

structure ShardSight where
  isOpen : Bool
  failed : Bool
deriving DecidableEq

def OnboardingShard.sight (shard : OnboardingShard) : ShardSight :=
  ⟨shard.state.isOpen, decide (shard.state = .failed)⟩

def sight (s : OnboardingDb) (key : SourceKey) (id : Nat) : Option ShardSight :=
  ((s.shards.get id).filter fun shard => decide (shard.key = key)).map OnboardingShard.sight

section

variable (s : OnboardingDb) (key : SourceKey)

def Sharded : Prop :=
  ∃ id shard, sight s key id = some shard

def Unfinished : Prop :=
  ∃ id shard, sight s key id = some shard ∧ shard.isOpen

def AnyFailed : Prop :=
  ∃ id shard, sight s key id = some shard ∧ shard.failed

def Live : Prop :=
  ∃ id shard, sight s key id = some shard ∧ (shard.isOpen ∨ Open s (.shardCompleted id))

end

def RunComplete (s : OnboardingDb) (run : Nat) : Prop :=
  ∃ row, s.runs.get run = some row ∧ row.status = .complete

def Reported (s : OnboardingDb) (key : SourceKey) (service : Service)
    (failureReason : Option String) : Prop :=
  Says s (.sourceCompleted key) { emittedBy := service, failureReason }

theorem sight_eq_some : sight s key id = some shard ↔
    ∃ row, s.shards.get id = some row ∧ row.key = key ∧ row.sight = shard := by
  simp [sight, Option.map_eq_some_iff, Option.filter_eq_some_iff, and_assoc]

theorem Unfinished.live (hu : Unfinished s key) : Live s key := by
  obtain ⟨id, shard, hs, ho⟩ := hu
  exact ⟨id, shard, hs, .inl ho⟩

theorem AnyFailed.sharded (hf : AnyFailed s key) : Sharded s key := by
  obtain ⟨id, shard, hs, -⟩ := hf
  exact ⟨id, shard, hs⟩

structure Waiting (s : OnboardingDb) (key : SourceKey) (row : SourceRun) : Prop where
  unsharded : ¬ Sharded s key
  unreported : ¬ Present s (.sourceCompleted key)
  unhanded : ∀ pass, ¬ Present s (.shardsCompleted key pass)
  first : row.reconciliationPassCount = 0
  unreconciled : row.reconciledAt = none

structure Fetching (s : OnboardingDb) (key : SourceKey) (row : SourceRun) : Prop where
  live : Live s key
  unreported : ¬ Present s (.sourceCompleted key)
  heard : ∀ pass, ¬ Open s (.shardsCompleted key pass)
  unhanded : ¬ Present s (.shardsCompleted key row.reconciliationPassCount)

structure Refetching (c : Promises) (s : OnboardingDb) (key : SourceKey) (row : SourceRun) :
    Prop where
  live : Live s key
  reported : Reported s key .reconciler none
  unhanded : ¬ Present s (.shardsCompleted key row.reconciliationPassCount)
  steady : c.steady → RunComplete s key.onboardingRunId

structure HandedOff (s : OnboardingDb) (key : SourceKey) (row : SourceRun) : Prop where
  finished : ¬ Unfinished s key
  unfailed : ¬ AnyFailed s key
  unreported : ¬ Present s (.sourceCompleted key)
  handed : Present s (.shardsCompleted key row.reconciliationPassCount)
  current : ∀ pass, Open s (.shardsCompleted key pass) → pass = row.reconciliationPassCount

structure Reconciled (c : Promises) (s : OnboardingDb) (key : SourceKey) (row : SourceRun) :
    Prop where
  reported : Reported s key .reconciler none
  handed : c.unfailing →
    Live s key ∨ Present s (.shardsCompleted key row.reconciliationPassCount)
  steady : c.steady → ¬ Unfinished s key ∨ RunComplete s key.onboardingRunId

/-- failed, by the planning or the roll-up of SourceOnboarding -/
structure Refused (s : OnboardingDb) (key : SourceKey) (row : SourceRun) : Prop where
  reported : ∃ reason, Reported s key .sourceOnboarding (some reason)
  unhanded : ¬ Present s (.shardsCompleted key row.reconciliationPassCount)
  failed : ¬ Sharded s key ∨ AnyFailed s key

structure Rejected (s : OnboardingDb) (key : SourceKey) (row : SourceRun) : Prop where
  reported : ∃ reason, Reported s key .reconciler (some reason)
  handed : Present s (.shardsCompleted key row.reconciliationPassCount)
  unfailed : ¬ AnyFailed s key

structure Failed (s : OnboardingDb) (key : SourceKey) (row : SourceRun) : Prop where
  finished : ¬ Unfinished s key
  heard : ∀ pass, ¬ Open s (.shardsCompleted key pass)
  reason : Refused s key row ∨ Rejected s key row

/-- failed, after TenantOnboarding was told that it succeeded -/
structure Stranded (c : Promises) (s : OnboardingDb) (key : SourceKey) : Prop where
  failing : ¬ c.unfailing
  reported : Reported s key .reconciler none
  steady : c.steady → RunComplete s key.onboardingRunId

def Phase (c : Promises) (s : OnboardingDb) (key : SourceKey) (row : SourceRun) : Prop :=
  match row.status, row.reconciledAt with
  | .pending, _ => Waiting s key row
  | .inProgress, none => Fetching s key row
  | .inProgress, some _ => Refetching c s key row
  | .completed, none => HandedOff s key row
  | .completed, some _ => Reconciled c s key row
  | .failed, none => Failed s key row
  | .failed, some _ => Stranded c s key

structure Settled (c : Promises) (s : OnboardingDb) (key : SourceKey) (row : SourceRun) :
    Prop where
  run : ∃ run, s.runs.get key.onboardingRunId = some run ∧ run.status ≠ .pending
  passes : ∀ pass, Present s (.shardsCompleted key pass) → pass ≤ row.reconciliationPassCount
  unfailed : c.unfailing → row.reconciledAt ≠ none → ¬ AnyFailed s key
  phase : Phase c s key row

structure Unknown (s : OnboardingDb) (key : SourceKey) : Prop where
  unsharded : ¬ Sharded s key
  unreported : ¬ Present s (.sourceCompleted key)
  unhanded : ∀ pass, ¬ Present s (.shardsCompleted key pass)

def ofRun (run : Nat) (key : SourceKey) : Bool :=
  decide (key.onboardingRunId = run)

def SomeSource (s : OnboardingDb) (run : Nat) (condition : SourceKey → SourceRun → Prop) : Prop :=
  ∃ key row, key.onboardingRunId = run ∧ s.sources.get key = some row ∧ condition key row

/-- A source that keeps its run from being complete for good, or is still to be reported. -/
def Holding (s : OnboardingDb) (key : SourceKey) (row : SourceRun) : Prop :=
  row.status = .failed ∨ key ∉ s.arrivals

/-- Some completion of the run will still be counted: of a source that is not
reported yet, or of the source that was reported last. -/
def Awaited (s : OnboardingDb) (run : Nat) : Prop :=
  SomeSource s run (Holding s) ∨
    ∃ key, s.arrivals.find? (ofRun run) = some key ∧ Open s (.sourceCompleted key)

structure Consistent (c : Promises) (s : OnboardingDb) : Prop where
  unique : UniqueSignals s
  arrived : ∀ key, key ∈ s.arrivals ↔ Present s (.sourceCompleted key)
  completion : ∀ id, Present s (.shardCompleted id) ↔
    ∃ shard, s.shards.get id = some shard ∧ shard.state.isOpen = false
  absent : ∀ key, s.sources.get key = none → Unknown s key
  settled : ∀ key row, s.sources.get key = some row → Settled c s key row
  failed : ∀ id run, s.runs.get id = some run → run.status = .failed →
    SomeSource s id (fun _ _ => True) → SomeSource s id fun _ row => row.status = .failed
  awaited : c.steady → ∀ id run, s.runs.get id = some run → run.status = .running → Awaited s id

/-- No signal tells of the source, and its run stays or has ended. -/
structure Silent (s t : OnboardingDb) (key : SourceKey) : Prop where
  handed : ∀ pass, Present t (.shardsCompleted key pass) ↔ Present s (.shardsCompleted key pass)
  heard : ∀ pass, Open t (.shardsCompleted key pass) → Open s (.shardsCompleted key pass)
  reported : ∀ data, Says t (.sourceCompleted key) data ↔ Says s (.sourceCompleted key) data
  run : ∀ run, s.runs.get key.onboardingRunId = some run → run.status ≠ .pending →
    ∃ run', t.runs.get key.onboardingRunId = some run' ∧ run'.status ≠ .pending ∧
      (run.status = .complete → run'.status = .complete)

structure Quiet (s t : OnboardingDb) (key : SourceKey) : Prop extends Silent s t key where
  sights : ∀ id, sight t key id = sight s key id
  live : Live s key → Live t key

theorem present_iff_told : Present s signal ↔ ∃ data, Says s signal data :=
  ⟨Present.told, fun ⟨_, ht⟩ => ht.present⟩

theorem runComplete_of_kept (hk : ∀ run, s.runs.get id = some run → run.status ≠ .pending →
      ∃ run', t.runs.get id = some run' ∧ run'.status ≠ .pending ∧
        (run.status = .complete → run'.status = .complete))
    (hc : RunComplete s id) : RunComplete t id := by
  obtain ⟨run, hg, hst⟩ := hc
  obtain ⟨run', hg', -, hs⟩ := hk run hg (by simp [hst])
  exact ⟨run', hg', hs hst⟩

section

variable (hsights : ∀ id, sight t key id = sight s key id)

include hsights

theorem sharded_congr : Sharded t key ↔ Sharded s key := by
  simp [Sharded, hsights]

theorem unfinished_congr : Unfinished t key ↔ Unfinished s key := by
  simp [Unfinished, hsights]

theorem anyFailed_congr : AnyFailed t key ↔ AnyFailed s key := by
  simp [AnyFailed, hsights]

end

namespace Silent

variable (hsilent : Silent s t key)

include hsilent

theorem present : Present t (.sourceCompleted key) ↔ Present s (.sourceCompleted key) := by
  simp [present_iff_told, hsilent.reported]

theorem runComplete (hc : RunComplete s key.onboardingRunId) : RunComplete t key.onboardingRunId :=
  runComplete_of_kept hsilent.run hc

theorem started (hs : Settled c s key row) :
    ∃ run, t.runs.get key.onboardingRunId = some run ∧ run.status ≠ .pending := by
  obtain ⟨run, hg, hst⟩ := hs.run
  obtain ⟨run', hg', hs', -⟩ := hsilent.run run hg hst
  exact ⟨run', hg', hs'⟩

end Silent

namespace Quiet

variable (hquiet : Quiet s t key)

include hquiet

theorem sharded : Sharded t key ↔ Sharded s key := sharded_congr hquiet.sights

theorem unfinished : Unfinished t key ↔ Unfinished s key := unfinished_congr hquiet.sights

theorem anyFailed : AnyFailed t key ↔ AnyFailed s key := anyFailed_congr hquiet.sights

theorem phase (hs : Settled c s key row) : Phase c t key row := by
  have hp := hs.phase
  have hc := hquiet.runComplete
  unfold Phase at hp ⊢
  split <;> simp only [*] at hp
  · exact ⟨hquiet.sharded.not.mpr hp.unsharded, hquiet.present.not.mpr hp.unreported,
      fun pass => (hquiet.handed pass).not.mpr (hp.unhanded pass), hp.first, hp.unreconciled⟩
  · exact ⟨hquiet.live hp.live, hquiet.present.not.mpr hp.unreported,
      fun pass ho => hp.heard pass (hquiet.heard pass ho), (hquiet.handed _).not.mpr hp.unhanded⟩
  · exact ⟨hquiet.live hp.live, (hquiet.reported _).mpr hp.reported,
      (hquiet.handed _).not.mpr hp.unhanded, fun h => hc (hp.steady h)⟩
  · exact ⟨hquiet.unfinished.not.mpr hp.finished, hquiet.anyFailed.not.mpr hp.unfailed,
      hquiet.present.not.mpr hp.unreported, (hquiet.handed _).mpr hp.handed,
      fun pass ho => hp.current pass (hquiet.heard pass ho)⟩
  · exact ⟨(hquiet.reported _).mpr hp.reported,
      fun h => (hp.handed h).imp hquiet.live (hquiet.handed _).mpr,
      fun h => (hp.steady h).imp hquiet.unfinished.not.mpr hc⟩
  · refine ⟨hquiet.unfinished.not.mpr hp.finished,
      fun pass ho => hp.heard pass (hquiet.heard pass ho), ?_⟩
    rcases hp.reason with ⟨⟨reason, hr⟩, hu, hf⟩ | ⟨⟨reason, hr⟩, hh, hun⟩
    · exact .inl ⟨⟨reason, (hquiet.reported _).mpr hr⟩, (hquiet.handed _).not.mpr hu,
        hf.imp hquiet.sharded.not.mpr hquiet.anyFailed.mpr⟩
    · exact .inr ⟨⟨reason, (hquiet.reported _).mpr hr⟩, (hquiet.handed _).mpr hh,
        hquiet.anyFailed.not.mpr hun⟩
  · exact ⟨hp.failing, (hquiet.reported _).mpr hp.reported, fun h => hc (hp.steady h)⟩

theorem settled (hs : Settled c s key row) : Settled c t key row where
  run := hquiet.started hs
  passes := fun pass hp => hs.passes pass ((hquiet.handed pass).mp hp)
  unfailed := fun h hr => hquiet.anyFailed.not.mpr (hs.unfailed h hr)
  phase := hquiet.phase hs

theorem unknown (hu : Unknown s key) : Unknown t key :=
  ⟨hquiet.sharded.not.mpr hu.unsharded, hquiet.present.not.mpr hu.unreported,
    fun pass => (hquiet.handed pass).not.mpr (hu.unhanded pass)⟩

end Quiet

end FyralisCore.Onboarding
