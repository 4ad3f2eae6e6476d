import FyralisCore.Onboarding.Lifecycle

/-! How a transaction of an onboarding service can end: what it writes, and
what it knows of the committed state when it does. The knowledge is what its
locks, its claim or the order of things protects until it commits. -/
namespace FyralisCore.Onboarding

open Relational Transaction Ingestion ReadCommitted List

variable {c : Promises} {s t : OnboardingDb} {trail : OnboardingTrail} {key other : SourceKey}
  {row : SourceRun} {rows : List SourceRun} {front writes ws : List OnboardingWrite} {id : Nat}
  {signal : OnboardingSignal} {data : OnboardingData}

def Claims (s : OnboardingDb) (trail : OnboardingTrail) (id : Nat) (signal : OnboardingSignal)
    (data : OnboardingData) : Prop :=
  s.signals.get id = some ⟨signal, data, none⟩ ∧ OnboardingLock.signal id ∈ trail.locks

inductive Emits (s : OnboardingDb) (signal : OnboardingSignal) (data : OnboardingData) :
    List OnboardingWrite → Prop where
  | found (hpresent : Present s signal) : Emits s signal data []
  | inserted (id : Nat) : Emits s signal data [.insert id signal data]

/-- The completion of the source is not the one that the run waits for. -/
def Passed (c : Promises) (s : OnboardingDb) (key : SourceKey) : Prop :=
  c.steady → (∃ run, s.runs.get key.onboardingRunId = some run ∧ run.status.isOpen = false) ∨
    SomeSource s key.onboardingRunId (Holding s) ∨
    s.arrivals.find? (ofRun key.onboardingRunId) ≠ some key

def Idle (c : Promises) (s : OnboardingDb) (trail : OnboardingTrail) : OnboardingSignal → Prop
  | .shardCompleted id => ∀ shard, s.shards.get id = some shard →
      .source shard.key ∈ trail.locks ∧ ∃ other sibling, other ≠ id ∧
        sight s shard.key other = some sibling ∧
        (sibling.isOpen ∨ Open s (.shardCompleted other))
  | .shardsCompleted key _ => ∀ row, s.sources.get key = some row → row.reconciledAt ≠ none
  | .sourceCompleted key => Passed c s key
  | _ => True

/-- What TenantOnboarding does with the run of a source that succeeded. -/
inductive Tally (c : Promises) (s : OnboardingDb) (trail : OnboardingTrail) (key : SourceKey) :
    List OnboardingRun → List OnboardingWrite → Prop where
  | left (hpassed : Passed c s key) : Tally c s trail key [] []
  | isOver {data : OnboardingData} {ws : List OnboardingWrite} {run : OnboardingRun}
      (hrun : s.runs.get key.onboardingRunId = some run) (hover : run.status.isOpen = false)
      (hemits : Emits s (.tenantCompleted key.onboardingRunId) data ws) :
      Tally c s trail key [] ws
  | completed {data : OnboardingData} {ws : List OnboardingWrite} {run : OnboardingRun}
      (hlock : .run key.onboardingRunId ∈ trail.locks)
      (hrun : s.runs.get key.onboardingRunId = some run) (hopen : run.status.isOpen)
      (hall : c.steady → c.counted → ∀ other row, other.onboardingRunId = key.onboardingRunId →
        s.sources.get other = some row → row.status = .completed ∧ row.reconciledAt ≠ none)
      (hemits : Emits s (.tenantCompleted key.onboardingRunId) data ws) :
      Tally c s trail key [{ run with status := .complete }] ws

/-- How a signal that is handled moves the row of its source. -/
inductive Turn (s : OnboardingDb) (key : SourceKey) (row : SourceRun) :
    OnboardingSignal → List SourceRun → List OnboardingWrite → Prop where
  | refused {rows : List SourceRun} {ws : List OnboardingWrite} (reason : String)
      (hstatus : row.status = .pending)
      (hlast : rows.getLast? = some { row with status := .failed, failureReason := some reason })
      (hemits : Emits s (.sourceCompleted key)
        { emittedBy := .sourceOnboarding, failureReason := some reason } ws) :
      Turn s key row (.sourceRequested key) rows ws
  | emptied {rows : List SourceRun} {ws : List OnboardingWrite} {data : OnboardingData}
      (hstatus : row.status = .pending)
      (hlast : rows.getLast? = some { row with status := .completed })
      (hemits : Emits s (.shardsCompleted key 0) data ws) :
      Turn s key row (.sourceRequested key) rows ws
  | rolledUpFailed {rows : List SourceRun} {ws : List OnboardingWrite} {id : Nat}
      (reason : String) (hshard : sight s key id ≠ none) (hfinished : ¬ Unfinished s key)
      (hfailed : AnyFailed s key)
      (hrows : rows = if row.status.isOpen then
        [{ row with status := .failed, failureReason := some reason }] else [])
      (hemits : Emits s (.sourceCompleted key)
        { emittedBy := .sourceOnboarding, failureReason := some reason } ws) :
      Turn s key row (.shardCompleted id) rows ws
  | rolledUp {rows : List SourceRun} {ws : List OnboardingWrite} {id : Nat}
      {data : OnboardingData} (hshard : sight s key id ≠ none) (hfinished : ¬ Unfinished s key)
      (hunfailed : ¬ AnyFailed s key)
      (hrows : rows = if row.status.isOpen then [{ row with status := .completed }] else [])
      (hemits : Emits s (.shardsCompleted key row.reconciliationPassCount) data ws) :
      Turn s key row (.shardCompleted id) rows ws
  | cleaned {ws : List OnboardingWrite} {pass : Nat} (now : Nat)
      (hstatus : row.status = .completed) (hunreconciled : row.reconciledAt = none)
      (hemits : Emits s (.sourceCompleted key) { emittedBy := .reconciler } ws) :
      Turn s key row (.shardsCompleted key pass) [{ row with reconciledAt := some now }] ws
  | dispatchFailed {ws : List OnboardingWrite} {pass : Nat} (reason : String)
      (hstatus : row.status = .completed) (hunreconciled : row.reconciledAt = none)
      (hemits : Emits s (.sourceCompleted key)
        { emittedBy := .reconciler, failureReason := some reason } ws) :
      Turn s key row (.shardsCompleted key pass)
        [{ row with status := .failed, failureReason := some reason }] ws

/-- How a source comes to be fetched, for the first time or again. -/
inductive Reopens (c : Promises) (s : OnboardingDb) (trail : OnboardingTrail) (key : SourceKey)
    (row : SourceRun) : SourceRun → List OnboardingWrite → Prop where
  | planned {id : Nat} {consumedBy : String} {data : OnboardingData}
      (hclaims : Claims s trail id (.sourceRequested key) data) (hstatus : row.status = .pending) :
      Reopens c s trail key row { row with status := .inProgress } [.consume id consumedBy]
  | reshared {id pass : Nat} {consumedBy : String} {data : OnboardingData}
      (hclaims : Claims s trail id (.shardsCompleted key pass) data)
      (hstatus : row.status = .completed) (hunreconciled : row.reconciledAt = none) :
      Reopens c s trail key row
        { row with
          status := .inProgress
          reconciliationPassCount := row.reconciliationPassCount + 1 } [.consume id consumedBy]
  | rechecked {checked : Option Nat} (hstatus : row.status = .completed)
      (hreconciled : row.reconciledAt ≠ none)
      (hsteady : c.steady → RunComplete s key.onboardingRunId) :
      Reopens c s trail key row
        { row with
          status := .inProgress
          reconciliationPassCount := row.reconciliationPassCount + 1
          lastReconcileCheckAt := checked } []

def Opening (run : Nat) (w : OnboardingWrite) : Prop :=
  (∃ source tenantId, w = .source ⟨run, source⟩ { tenantId }) ∨
    ∃ id key data, w = .insert id (.sourceRequested key) data

def Marking (s : OnboardingDb) (trail : OnboardingTrail) (w : OnboardingWrite) : Prop :=
  ∃ id shard, w = .shard id { shard with state := .reconciliationResharded } ∧
    .shard id ∈ trail.locks ∧ s.shards.get id = some shard ∧ shard.state = .done

def Adding (s : OnboardingDb) (trail : OnboardingTrail) (key : SourceKey)
    (w : OnboardingWrite) : Prop :=
  (∃ id shard, w = .shard id shard ∧ shard.key = key ∧ shard.state = .pending ∧
      id ∈ trail.minted ∧ Unused s id) ∨
    ∃ id shardId data, w = .insert id (.shardRequested shardId) data

inductive Effect (c : Promises) (s : OnboardingDb) (trail : OnboardingTrail) : Prop where
  | nothing (hwrites : trail.writes = [])
  | created {run tenantId : Nat} {data : OnboardingData} {ws : List OnboardingWrite}
      (hminted : run ∈ trail.minted) (hunused : Unused s run)
      (hemits : Emits s (.runCreated run) data ws)
      (hwrites : trail.writes = .run run { tenantId } :: ws)
  | consumed {id : Nat} {consumedBy : String} {signal : OnboardingSignal} {data : OnboardingData}
      (hclaims : Claims s trail id signal data) (hidle : Idle c s trail signal)
      (hwrites : trail.writes = [.consume id consumedBy])
  | opened {id run : Nat} {consumedBy : String} {data : OnboardingData} {row : OnboardingRun}
      {opening : List OnboardingWrite} (hclaims : Claims s trail id (.runCreated run) data)
      (hlock : .run run ∈ trail.locks) (hrow : s.runs.get run = some row)
      (hpending : row.status = .pending) (hopening : ∀ w ∈ opening, Opening run w)
      (hsome : ∃ source row, .source ⟨run, source⟩ row ∈ opening)
      (hwrites : trail.writes =
        .consume id consumedBy :: (opening ++ [.run run { row with status := .running }]))
  | closed {id run : Nat} {consumedBy : String} {signal : OnboardingSignal}
      {data : OnboardingData} {row : OnboardingRun} {summary : String}
      (hclaims : Claims s trail id signal data) (hlock : .run run ∈ trail.locks)
      (hrow : s.runs.get run = some row) (hopen : row.status.isOpen)
      (hcause : (signal = .runCreated run ∧ row.status = .pending) ∨
        ∃ key source, signal = .sourceCompleted key ∧ key.onboardingRunId = run ∧
          s.sources.get key = some source ∧ source.status = .failed)
      (hwrites : trail.writes = [.consume id consumedBy,
        .run run { row with status := .failed, errorSummary := some summary }])
  | tallied {id : Nat} {consumedBy : String} {key : SourceKey} {data : OnboardingData}
      {marks : List SourceRun} {runs : List OnboardingRun} {ws : List OnboardingWrite}
      (hclaims : Claims s trail id (.sourceCompleted key) data)
      (hmarks : marks = [] ∨ ∃ row, .source key ∈ trail.locks ∧ s.sources.get key = some row ∧
        row.status = .inProgress ∧ marks = [{ row with status := .completed }])
      (htally : Tally c s trail key runs ws)
      (hwrites : trail.writes = .consume id consumedBy ::
        (marks.map (.source key) ++ .counting key :: (runs.map (.run key.onboardingRunId) ++ ws)))
  | turned {id : Nat} {consumedBy : String} {signal : OnboardingSignal} {key : SourceKey}
      {data : OnboardingData} {row : SourceRun} {rows : List SourceRun}
      {ws : List OnboardingWrite} (hclaims : Claims s trail id signal data)
      (hlock : .source key ∈ trail.locks) (hrow : s.sources.get key = some row)
      (hturn : Turn s key row signal rows ws)
      (hwrites : trail.writes = .consume id consumedBy :: (rows.map (.source key) ++ ws))
  | rechecked {key : SourceKey} {row : SourceRun} {checked : Option Nat}
      (hlock : .source key ∈ trail.locks) (hrow : s.sources.get key = some row)
      (hstatus : row.status = .completed) (hreconciled : row.reconciledAt ≠ none)
      (hwrites : trail.writes = [.source key { row with lastReconcileCheckAt := checked }])
  | reopened {key : SourceKey} {row row' : SourceRun} {rows : List SourceRun}
      {claim marks added : List OnboardingWrite} (hlock : .source key ∈ trail.locks)
      (hrow : s.sources.get key = some row) (hreopens : Reopens c s trail key row row' claim)
      (hlast : rows.getLast? = some row') (hmarks : ∀ w ∈ marks, Marking s trail w)
      (hadded : ∀ w ∈ added, Adding s trail key w)
      (hsome : ∃ id shard, .shard id shard ∈ added)
      (hwrites : trail.writes = claim ++ (rows.map (.source key) ++ (marks ++ added)))
  | started {id shardId : Nat} {consumedBy : String} {data : OnboardingData}
      {shard : OnboardingShard} (hclaims : Claims s trail id (.shardRequested shardId) data)
      (hlock : .shard shardId ∈ trail.locks) (hshard : s.shards.get shardId = some shard)
      (hstate : shard.state = .pending)
      (hwrites : trail.writes =
        [.consume id consumedBy, .shard shardId { shard with state := .inProgress }])
  | ended {shardId : Nat} {shard shard' : OnboardingShard} {data : OnboardingData}
      {ws : List OnboardingWrite} (hlock : .shard shardId ∈ trail.locks)
      (hshard : s.shards.get shardId = some shard) (hopen : shard.state.isOpen)
      (hkey : shard'.key = shard.key) (hended : shard'.state.isOpen = false)
      (hunfailing : c.unfailing → shard'.state = .failed → ∀ source,
        s.sources.get shard.key = some source → source.reconciledAt = none)
      (hemits : Emits s (.shardCompleted shardId) data ws)
      (hwrites : trail.writes = .shard shardId shard' :: ws)

section

variable (he : Emits s signal data ws)

include he

theorem Emits.mem (hm : w ∈ ws) : ∃ id, w = .insert id signal data := by
  cases he with
  | found => cases hm
  | inserted id => exact ⟨id, mem_singleton.mp hm⟩

theorem Emits.eq_of_new (hn : ¬ Present s signal) : ∃ id, ws = [.insert id signal data] := by
  cases he with
  | found hp => exact absurd hp hn
  | inserted id => exact ⟨id, rfl⟩

theorem Emits.eq_of_present (hc : Covered s trail) (hs : ws ⊆ trail.writes)
    (hp : Present s signal) : ws = [] := by
  cases he with
  | found => rfl
  | inserted id =>
    exact absurd hp (hc.insert id signal data (hs (.head _))).2.2.2

end

section

variable {p : OnboardingWrite → Prop}

theorem Emits.all (he : Emits s signal data ws) (hp : ∀ id, p (.insert id signal data)) :
    ∀ w ∈ ws, p w := by
  intro w hm
  obtain ⟨id, rfl⟩ := he.mem hm
  exact hp id

theorem Turn.all (ht : Turn s key row signal rows ws)
    (hc : ∀ id data, p (.insert id (.sourceCompleted key) data))
    (hh : ∀ id pass data, p (.insert id (.shardsCompleted key pass) data)) :
    ∀ w ∈ ws, p w := by
  cases ht with
  | emptied _ _ he => exact he.all fun id => hh id _ _
  | rolledUp _ _ _ _ he => exact he.all fun id => hh id _ _
  | refused _ _ _ he => exact he.all fun id => hc id _
  | rolledUpFailed _ _ _ _ _ he => exact he.all fun id => hc id _
  | cleaned _ _ _ he => exact he.all fun id => hc id _
  | dispatchFailed _ _ _ he => exact he.all fun id => hc id _

theorem Tally.all (ht : Tally c s trail key runs ws)
    (hp : ∀ id data, p (.insert id (.tenantCompleted key.onboardingRunId) data)) :
    ∀ w ∈ ws, p w := by
  cases ht with
  | left => exact fun _ hm => nomatch hm
  | isOver _ _ he => exact he.all fun id => hp id _
  | completed _ _ _ _ he => exact he.all fun id => hp id _

theorem all_opening {run : Nat} {opening : List OnboardingWrite} (ho : ∀ w ∈ opening, Opening run w)
    (hs : ∀ source tenantId, p (.source ⟨run, source⟩ { tenantId }))
    (hi : ∀ id key data, p (.insert id (.sourceRequested key) data)) : ∀ w ∈ opening, p w := by
  intro w hm
  obtain ⟨source, tenantId, rfl⟩ | ⟨id, key, data, rfl⟩ := ho w hm
  · exact hs source tenantId
  · exact hi id key data

theorem all_marking {marks : List OnboardingWrite} (hmk : ∀ w ∈ marks, Marking s trail w)
    (hp : ∀ id shard, s.shards.get id = some shard → shard.state = .done →
      p (.shard id { shard with state := .reconciliationResharded })) : ∀ w ∈ marks, p w := by
  intro w hm
  obtain ⟨id, shard, rfl, -, hg, hd⟩ := hmk w hm
  exact hp id shard hg hd

theorem all_adding {added : List OnboardingWrite} (ha : ∀ w ∈ added, Adding s trail key w)
    (hs : ∀ id shard, shard.key = key → p (.shard id shard))
    (hi : ∀ id shardId data, p (.insert id (.shardRequested shardId) data)) : ∀ w ∈ added, p w := by
  intro w hm
  obtain ⟨id, shard, rfl, hk, -⟩ | ⟨id, shardId, data, rfl⟩ := ha w hm
  · exact hs id shard hk
  · exact hi id shardId data

end

def Sourceless (writes : List OnboardingWrite) : Prop :=
  ∀ w ∈ writes, ∀ other row, w ≠ .source other row

theorem Emits.sourceless (he : Emits s signal data ws) : Sourceless ws := by
  intro w hm other row
  obtain ⟨id, rfl⟩ := he.mem hm
  simp

theorem Sourceless.cons (hw : ∀ other row, w ≠ .source other row)
    (ht : Sourceless writes) : Sourceless (w :: writes) := by
  intro found hm
  rcases mem_cons.mp hm with rfl | hm
  · exact hw
  · exact ht found hm

theorem Sourceless.append (h1 : Sourceless front) (h2 : Sourceless writes) :
    Sourceless (front ++ writes) := by
  intro w hm
  rcases mem_append.mp hm with hm | hm
  · exact h1 w hm
  · exact h2 w hm

theorem sourceless_nil : Sourceless [] := fun _ hm => nomatch hm

theorem sourceless_map_run (run : Nat) (runs : List OnboardingRun) :
    Sourceless (runs.map (.run run)) := by
  intro w hm other row
  obtain ⟨_, -, rfl⟩ := mem_map.mp hm
  simp

theorem Marking.sourceless (hmk : ∀ w ∈ writes, Marking s trail w) : Sourceless writes := by
  intro w hm other row
  obtain ⟨_, _, rfl, -⟩ := hmk w hm
  simp

theorem Adding.sourceless (ha : ∀ w ∈ writes, Adding s trail key w) : Sourceless writes := by
  intro w hm other row
  obtain ⟨_, _, rfl, -⟩ | ⟨_, _, _, rfl⟩ := ha w hm <;> simp

theorem Reopens.sourceless (hr : Reopens c s trail key row row' front) : Sourceless front := by
  cases hr with
  | rechecked => exact sourceless_nil
  | _ => exact sourceless_nil.cons (by simp)

theorem get_sources_after_rows (hf : Sourceless front) (hw : Sourceless ws)
    (s : OnboardingDb) (key other : SourceKey) (rows : List SourceRun) :
    (after s (front ++ (rows.map (.source key) ++ ws))).sources.get other =
      if other = key then rows.getLast?.or (s.sources.get other) else s.sources.get other := by
  have hn : ∀ list : List OnboardingWrite, Sourceless list →
      list.reverse.findSome? (writtenSource other) = none := by
    intro list hl
    rw [List.findSome?_eq_none_iff]
    intro w hm
    cases w with
    | source found row => exact absurd rfl (hl _ (mem_reverse.mp hm) found row)
    | _ => rfl
  rw [get_sources_after, reverse_append, reverse_append, List.findSome?_append,
    List.findSome?_append, hn ws hw, hn front hf, Option.none_or, Option.or_none]
  have hr : (rows.map (OnboardingWrite.source key)).reverse.findSome? (writtenSource other) =
      if other = key then rows.getLast? else none := by
    induction rows using List.reverseRecOn with
    | nil => simp
    | append_singleton rows row ih =>
      by_cases hk : other = key
      · subst hk
        simp [writtenSource]
      · rw [if_neg hk] at ih ⊢
        simp [writtenSource, Ne.symm hk, ih]
  rw [hr]
  split <;> simp

theorem exists_of_shard_mem (hm : .shard id shard ∈ writes) (s : OnboardingDb) :
    ∃ shard', .shard id shard' ∈ writes ∧ (after s writes).shards.get id = some shard' := by
  rw [get_shards_after]
  exact (written_cases eq_shard_of_writtenShard _).resolve_left fun hn => by
    simpa [writtenShard] using hn.1 _ hm

theorem exists_of_run_mem (hm : .run id run ∈ writes) (s : OnboardingDb) :
    ∃ run', .run id run' ∈ writes ∧ (after s writes).runs.get id = some run' := by
  rw [get_runs_after]
  exact (written_cases eq_run_of_writtenRun _).resolve_left fun hn => by
    simpa [writtenRun] using hn.1 _ hm

theorem exists_of_source_mem (hm : .source key row ∈ writes) (s : OnboardingDb) :
    ∃ row', (after s writes).sources.get key = some row' := by
  rw [get_sources_after]
  exact ((written_cases eq_source_of_writtenSource _).resolve_left fun hn => by
    simpa [writtenSource] using hn.1 _ hm).imp fun _ => And.right

end FyralisCore.Onboarding
