import Mathlib.Data.List.Induction
import FyralisCore.Lib.CommitDiscipline
import FyralisCore.Onboarding.Handlers

/-! What the writes of a session come to, and what its locks and its own
identifiers protect. Nothing here depends on what the services are for. -/
namespace FyralisCore.Onboarding

open Relational Transaction Ingestion ReadCommitted List Option Table OnboardingWrite

abbrev OnboardingTrail : Type := Trail OnboardingWrite OnboardingLock

abbrev after (s : OnboardingDb) (writes : List OnboardingWrite) : OnboardingDb :=
  onboardingSchema.view s writes

variable {s t : OnboardingDb} {writes : List OnboardingWrite} {trail mine theirs : OnboardingTrail}
  {signal : OnboardingSignal} {data : OnboardingData} {key : SourceKey} {id : Nat}

def writtenRun (id : Nat) : OnboardingWrite → Option OnboardingRun
  | .run other row => if other = id then some row else none
  | _ => none

def writtenSource (key : SourceKey) : OnboardingWrite → Option SourceRun
  | .source other row => if other = key then some row else none
  | _ => none

def writtenShard (id : Nat) : OnboardingWrite → Option OnboardingShard
  | .shard other row => if other = id then some row else none
  | _ => none

theorem eq_run_of_writtenRun (hw : writtenRun id w = some row) : w = .run id row := by
  cases w <;> grind [writtenRun]

theorem eq_source_of_writtenSource (hw : writtenSource key w = some row) : w = .source key row := by
  cases w <;> grind [writtenSource]

theorem eq_shard_of_writtenShard (hw : writtenShard id w = some row) : w = .shard id row := by
  cases w <;> grind [writtenShard]

theorem written_cases {written : OnboardingWrite → Option R} {make : R → OnboardingWrite}
    (hw : ∀ {w row}, written w = some row → w = make row) (kept : Option R) :
    ((∀ w ∈ writes, written w = none) ∧ (writes.reverse.findSome? written).or kept = kept) ∨
      ∃ row, make row ∈ writes ∧ (writes.reverse.findSome? written).or kept = some row := by
  cases hf : writes.reverse.findSome? written with
  | none => exact .inl ⟨by simpa using hf, rfl⟩
  | some row =>
    obtain ⟨w, hm, hr⟩ := exists_of_findSome?_eq_some hf
    exact .inr ⟨row, hw hr ▸ mem_reverse.mp hm, rfl⟩

section

variable (s) (writes)

theorem get_runs_after (id : Nat) : (after s writes).runs.get id =
    (writes.reverse.findSome? (writtenRun id)).or (s.runs.get id) := by
  apply onboardingSchema.lookup_view (fun db => db.runs.get id)
  intro s w
  cases w with
  | run other row =>
    change (s.runs.put other row).get id = _
    rw [get_put, writtenRun]
    grind
  | _ => rfl

theorem get_sources_after (key : SourceKey) : (after s writes).sources.get key =
    (writes.reverse.findSome? (writtenSource key)).or (s.sources.get key) := by
  apply onboardingSchema.lookup_view (fun db => db.sources.get key)
  intro s w
  cases w with
  | source other row =>
    change (s.sources.put other row).get key = _
    rw [get_put, writtenSource]
    grind
  | _ => rfl

theorem get_shards_after (id : Nat) : (after s writes).shards.get id =
    (writes.reverse.findSome? (writtenShard id)).or (s.shards.get id) := by
  apply onboardingSchema.lookup_view (fun db => db.shards.get id)
  intro s w
  cases w with
  | shard other row =>
    change (s.shards.put other row).get id = _
    rw [get_put, writtenShard]
    grind
  | _ => rfl

theorem get_runs_after_cases (id : Nat) : (after s writes).runs.get id = s.runs.get id ∨ ∃ row,
    run id row ∈ writes ∧ (after s writes).runs.get id = some row := by
  rw [get_runs_after]
  exact (written_cases eq_run_of_writtenRun _).imp_left And.right

theorem get_sources_after_cases (key : SourceKey) : (after s writes).sources.get key =
    s.sources.get key ∨ ∃ row, source key row ∈ writes ∧ (after s writes).sources.get key =
    some row := by
  rw [get_sources_after]
  exact (written_cases eq_source_of_writtenSource _).imp_left And.right

theorem get_shards_after_cases (id : Nat) : (after s writes).shards.get id = s.shards.get id ∨
    ∃ row, shard id row ∈ writes ∧ (after s writes).shards.get id = some row := by
  rw [get_shards_after]
  exact (written_cases eq_shard_of_writtenShard _).imp_left And.right

end

def arrivalOf : OnboardingWrite → Option SourceKey
  | .insert _ signal _ => arrival signal
  | _ => none

@[simp] theorem arrivalOf_run (row : OnboardingRun) : arrivalOf (.run id row) = none := rfl

@[simp] theorem arrivalOf_source (row : SourceRun) : arrivalOf (.source key row) = none := rfl

@[simp] theorem arrivalOf_shard (row : OnboardingShard) : arrivalOf (.shard id row) = none := rfl

@[simp] theorem arrivalOf_insert : arrivalOf (.insert id signal data) = arrival signal := rfl

@[simp] theorem arrivalOf_consume (consumedBy : String) :
    arrivalOf (.consume id consumedBy) = none := rfl

@[simp] theorem arrivalOf_counting : arrivalOf (.counting key) = none := rfl

theorem arrivals_after (s : OnboardingDb) (writes : List OnboardingWrite) :
    (after s writes).arrivals = (writes.filterMap arrivalOf).reverse ++ s.arrivals := by
  induction writes generalizing s with
  | nil => rfl
  | cons w rest ih =>
    change (after (s.apply w) rest).arrivals = _
    rw [ih]
    cases w with
    | insert id signal data =>
      cases ha : arrival signal <;> simp [OnboardingDb.apply, ha]
    | _ => rfl

section

variable (s : OnboardingDb)

def Present (signal : OnboardingSignal) : Prop :=
  ∃ id row, s.signals.get id = some row ∧ row.key = signal

def Says (signal : OnboardingSignal) (data : OnboardingData) : Prop :=
  ∃ id row, s.signals.get id = some row ∧ row.key = signal ∧ row.signalData = data

def Open (signal : OnboardingSignal) : Prop :=
  ∃ id row, s.signals.get id = some row ∧ row.key = signal ∧ row.consumedBy = none

/-- UNIQUE (workflow_kind, workflow_id, signal_kind, idempotency_key). -/
def UniqueSignals : Prop :=
  ∀ id id' row row', s.signals.get id = some row → s.signals.get id' = some row' →
    row.key = row'.key → id = id'

def InsertedAs (writes : List OnboardingWrite) (signal : OnboardingSignal)
    (data : OnboardingData) : Prop :=
  ∃ id, insert id signal data ∈ writes

def Inserted (writes : List OnboardingWrite) (signal : OnboardingSignal) : Prop :=
  ∃ data, InsertedAs writes signal data

def Takes (writes : List OnboardingWrite) (signal : OnboardingSignal) : Prop :=
  ∃ id consumedBy row, consume id consumedBy ∈ writes ∧
    s.signals.get id = some row ∧ row.key = signal

def Unused (id : Nat) : Prop :=
  s.runs.get id = none ∧ s.shards.get id = none ∧ s.signals.get id = none

end

theorem Says.present (ht : Says s signal data) : Present s signal := by
  obtain ⟨id, row, hg, hk, -⟩ := ht
  exact ⟨id, row, hg, hk⟩

theorem Open.present (ho : Open s signal) : Present s signal := by
  obtain ⟨id, row, hg, hk, -⟩ := ho
  exact ⟨id, row, hg, hk⟩

theorem Present.told (hp : Present s signal) : ∃ data, Says s signal data := by
  obtain ⟨id, row, hg, hk⟩ := hp
  exact ⟨row.signalData, id, row, hg, hk, rfl⟩

theorem Says.unique (hu : UniqueSignals s)
    (ht : Says s signal data) (ht' : Says s signal data') : data = data' := by
  obtain ⟨id, row, hg, hk, rfl⟩ := ht
  obtain ⟨id', row', hg', hk', rfl⟩ := ht'
  obtain rfl := hu id id' row row' hg hg' (hk.trans hk'.symm)
  rw [hg] at hg'
  cases hg'
  rfl

/-- What the session has to hold for its writes, and where they fit in. -/
structure Covered (s : OnboardingDb) (trail : OnboardingTrail) : Prop where
  run : ∀ id row, .run id row ∈ trail.writes → .run id ∈ trail.locks ∧
    ((∃ old, s.runs.get id = some old) ∨ (id ∈ trail.minted ∧ Unused s id))
  source : ∀ key row, .source key row ∈ trail.writes → .source key ∈ trail.locks
  shard : ∀ id row, .shard id row ∈ trail.writes → .shard id ∈ trail.locks ∧
    ((∃ old, s.shards.get id = some old ∧ old.key = row.key) ∨ (id ∈ trail.minted ∧ Unused s id))
  insert : ∀ id signal data, .insert id signal data ∈ trail.writes →
    id ∈ trail.minted ∧ Unused s id ∧ .entry signal ∈ trail.locks ∧ ¬ Present s signal
  oneKey : ∀ id signal signal' data data', .insert id signal data ∈ trail.writes →
    .insert id signal' data' ∈ trail.writes → signal = signal' ∧ data = data'
  oneId : ∀ id id' signal data data', .insert id signal data ∈ trail.writes →
    .insert id' signal data' ∈ trail.writes → id = id'
  consume : ∀ id consumedBy, .consume id consumedBy ∈ trail.writes →
    .signal id ∈ trail.locks ∧ ∃ row, s.signals.get id = some row ∧ row.consumedBy = none

def writtenSignal (id : Nat) : OnboardingWrite → Option OnboardingRow
  | .insert other signal data => if other = id then some ⟨signal, data, none⟩ else none
  | _ => none

def writtenStamp (id : Nat) : OnboardingWrite → Option String
  | .consume other consumedBy => if other = id then some consumedBy else none
  | _ => none

def stamped (stamp : Option String) (row : OnboardingRow) : OnboardingRow :=
  { row with consumedBy := stamp.or row.consumedBy }

theorem get_signals_after (hf : ∀ id signal data, .insert id signal data ∈ writes →
      s.signals.get id = none)
    (ht : ∀ id consumedBy, .consume id consumedBy ∈ writes → s.signals.get id ≠ none)
    (id : Nat) : (after s writes).signals.get id = (writes.reverse.findSome? (writtenSignal id)).or
      ((s.signals.get id).map (stamped (writes.reverse.findSome? (writtenStamp id)))) := by
  induction writes using List.reverseRecOn with
  | nil => cases h : s.signals.get id <;> simp [after, Schema.view, h, stamped]
  | append_singleton writes w ih =>
    have hb := ih (fun id signal data hm => hf id signal data (by simp [hm]))
      fun id consumedBy hm => ht id consumedBy (by simp [hm])
    have hv : after s (writes ++ [w]) = (after s writes).apply w := by
      simp [after, Schema.view, onboardingSchema]
    rw [hv, reverse_append, reverse_singleton, singleton_append,
      List.findSome?_cons, List.findSome?_cons]
    cases w with
    | insert other signal data =>
      change ((after s writes).signals.put other ⟨signal, data, none⟩).get id = _
      rw [get_put, hb]
      simp only [writtenSignal, writtenStamp]
      grind
    | consume other consumedBy =>
      change ((after s writes).signals.update other fun row =>
        { row with consumedBy := some consumedBy }).get id = _
      rw [get_update, hb]
      simp only [writtenSignal, writtenStamp]
      by_cases ho : id = other
      · subst ho
        have hn : writes.reverse.findSome? (writtenSignal id) = none := by
          rw [List.findSome?_eq_none_iff]
          intro w hm
          cases w with
          | insert made signal data =>
            simp only [writtenSignal]
            grind
          | _ => rfl
        cases hg : s.signals.get id <;> simp [hn, stamped]
      · rw [if_neg ho, if_neg (Ne.symm ho)]
    | _ =>
      change (after s writes).signals.get id = _
      rw [hb]
      rfl

namespace Covered

section

variable (hc : Covered s trail)

include hc

theorem get_signals (id : Nat) : (after s trail.writes).signals.get id =
    (trail.writes.reverse.findSome? (writtenSignal id)).or
    ((s.signals.get id).map (stamped (trail.writes.reverse.findSome? (writtenStamp id)))) := by
  apply get_signals_after
  · exact fun id signal data hm => (hc.insert id signal data hm).2.1.2.2
  · intro id consumedBy hm hn
    obtain ⟨-, row, hg, -⟩ := hc.consume id consumedBy hm
    rw [hn] at hg
    cases hg

theorem get_of_insert (hi : .insert id signal data ∈ trail.writes) :
    (after s trail.writes).signals.get id = some ⟨signal, data, none⟩ := by
  rw [hc.get_signals]
  cases hf : trail.writes.reverse.findSome? (writtenSignal id) with
  | none =>
    rw [List.findSome?_eq_none_iff] at hf
    have := hf _ (mem_reverse.mpr hi)
    simp [writtenSignal] at this
  | some row =>
    obtain ⟨w, hm, hw⟩ := exists_of_findSome?_eq_some hf
    cases w with
    | insert other signal' data' =>
      simp only [writtenSignal, ite_none_right_eq_some, Option.some.injEq] at hw
      obtain ⟨rfl, rfl⟩ := hw
      obtain ⟨rfl, rfl⟩ := hc.oneKey other signal signal' data data' hi (by simpa using hm)
      rfl
    | _ => cases hw

theorem get_of_get (hg : s.signals.get id = some row) : ∃ row',
    (after s trail.writes).signals.get id = some row' ∧ row'.key = row.key ∧ row'.signalData =
    row.signalData ∧ ((row' = row ∧ ∀ consumedBy, .consume id consumedBy ∉ trail.writes) ∨
    ∃ consumedBy, .consume id consumedBy ∈ trail.writes ∧ row'.consumedBy = some consumedBy) := by
  have hn : trail.writes.reverse.findSome? (writtenSignal id) = none := by
    rw [List.findSome?_eq_none_iff]
    intro w hm
    cases w with
    | insert other signal data =>
      have hf := (hc.insert other signal data (by simpa using hm)).2.1.2.2
      simp only [writtenSignal]
      grind
    | _ => rfl
  rw [hc.get_signals, hn, hg]
  refine ⟨_, rfl, rfl, rfl, ?_⟩
  cases hs : trail.writes.reverse.findSome? (writtenStamp id) with
  | none =>
    refine .inl ⟨rfl, fun consumedBy hm => ?_⟩
    rw [List.findSome?_eq_none_iff] at hs
    have := hs _ (mem_reverse.mpr hm)
    simp [writtenStamp] at this
  | some consumedBy =>
    obtain ⟨w, hm, hw⟩ := exists_of_findSome?_eq_some hs
    refine .inr ⟨consumedBy, ?_, rfl⟩
    cases w <;> simp only [writtenStamp, reduceCtorEq] at hw
    grind

theorem get_cases (hg : (after s trail.writes).signals.get id = some row) :
    .insert id row.key row.signalData ∈ trail.writes ∨ ∃ old, s.signals.get id = some old := by
  rw [hc.get_signals] at hg
  cases hf : trail.writes.reverse.findSome? (writtenSignal id) with
  | none =>
    rw [hf, none_or, map_eq_some_iff] at hg
    obtain ⟨old, ho, -⟩ := hg
    exact .inr ⟨old, ho⟩
  | some found =>
    obtain ⟨w, hm, hw⟩ := exists_of_findSome?_eq_some hf
    rw [hf, some_or] at hg
    cases hg
    refine .inl ?_
    cases w <;> simp only [writtenSignal, reduceCtorEq] at hw
    grind

theorem says_after : Says (after s trail.writes) signal data ↔ Says s signal data ∨
    InsertedAs trail.writes signal data := by
  constructor
  · rintro ⟨id, row, hg, rfl, rfl⟩
    rcases hc.get_cases hg with hi | ⟨old, ho⟩
    · exact .inr ⟨id, hi⟩
    · obtain ⟨row', hr', hk, hd, -⟩ := hc.get_of_get ho
      rw [hg] at hr'
      cases hr'
      exact .inl ⟨id, old, ho, hk.symm, hd.symm⟩
  · rintro (⟨id, row, hg, rfl, rfl⟩ | ⟨id, hi⟩)
    · obtain ⟨row', hr', hk, hd, -⟩ := hc.get_of_get hg
      exact ⟨id, row', hr', hk, hd⟩
    · exact ⟨id, _, hc.get_of_insert hi, rfl, rfl⟩

theorem present_after : Present (after s trail.writes) signal ↔ Present s signal ∨
    Inserted trail.writes signal := by
  constructor
  · intro hp
    obtain ⟨data, hd⟩ := hp.told
    exact (hc.says_after.mp hd).imp Says.present fun hi => ⟨data, hi⟩
  · rintro (hp | ⟨data, hi⟩)
    · obtain ⟨data, hd⟩ := hp.told
      exact (hc.says_after.mpr (.inl hd)).present
    · exact (hc.says_after.mpr (.inr hi)).present

theorem open_after (hu : UniqueSignals s) : Open (after s trail.writes) signal ↔ (Open s signal ∧
    ¬ Takes s trail.writes signal) ∨ Inserted trail.writes signal := by
  constructor
  · rintro ⟨id, row, hg, rfl, hop⟩
    rcases hc.get_cases hg with hi | ⟨old, hold⟩
    · exact .inr ⟨_, id, hi⟩
    · obtain ⟨row', hr', hk, hd, hst⟩ := hc.get_of_get hold
      rw [hg] at hr'
      cases hr'
      rcases hst with ⟨rfl, hn⟩ | ⟨consumedBy, -, hs⟩
      · refine .inl ⟨⟨id, row, hold, rfl, hop⟩, ?_⟩
        rintro ⟨taken, consumedBy, other, hm, ho, he⟩
        obtain rfl := hu taken id other row ho hold he
        exact hn consumedBy hm
      · rw [hs] at hop
        cases hop
  · rintro (⟨⟨id, row, hg, rfl, hop⟩, hn⟩ | ⟨data, id, hi⟩)
    · obtain ⟨row', hr', hk, -, ⟨rfl, -⟩ | ⟨consumedBy, hm, -⟩⟩ := hc.get_of_get hg
      · exact ⟨id, row', hr', rfl, hop⟩
      · exact absurd ⟨id, consumedBy, row, hm, hg, rfl⟩ hn
    · exact ⟨id, _, hc.get_of_insert hi, rfl, rfl⟩

theorem unique_after (hu : UniqueSignals s) : UniqueSignals (after s trail.writes) := by
  intro id id' row row' hg hg' he
  rcases hc.get_cases hg with hi | ⟨old, ho⟩ <;> rcases hc.get_cases hg' with hi' | ⟨old', ho'⟩
  · rw [he] at hi
    exact hc.oneId id id' _ _ _ hi hi'
  · obtain ⟨kept, hk, hky, -⟩ := hc.get_of_get ho'
    rw [hg'] at hk
    cases hk
    refine absurd ⟨id', old', ho', ?_⟩ (hc.insert _ _ _ hi).2.2.2
    rw [he, hky]
  · obtain ⟨kept, hk, hky, -⟩ := hc.get_of_get ho
    rw [hg] at hk
    cases hk
    refine absurd ⟨id, old, ho, ?_⟩ (hc.insert _ _ _ hi').2.2.2
    rw [← he, hky]
  · obtain ⟨kept, hk, hky, -⟩ := hc.get_of_get ho
    obtain ⟨kept', hk', hky', -⟩ := hc.get_of_get ho'
    rw [hg] at hk
    rw [hg'] at hk'
    cases hk
    cases hk'
    exact hu id id' old old' ho ho' (hky.symm.trans (he.trans hky'))

end

end Covered

/-- The commit of another session leaves alone what this one holds. -/
structure Shields (trail : OnboardingTrail) (s t : OnboardingDb) : Prop where
  run : ∀ id, .run id ∈ trail.locks → t.runs.get id = s.runs.get id
  source : ∀ key, .source key ∈ trail.locks → t.sources.get key = s.sources.get key
  shard : ∀ id, .shard id ∈ trail.locks → t.shards.get id = s.shards.get id
  signal : ∀ id row, .signal id ∈ trail.locks → s.signals.get id = some row →
    t.signals.get id = some row
  entry : ∀ signal, .entry signal ∈ trail.locks → Present t signal → Present s signal
  unused : ∀ id ∈ trail.minted, Unused s id → Unused t id
  keptRun : ∀ id row, s.runs.get id = some row → ∃ row', t.runs.get id = some row'
  keptShard : ∀ id row, s.shards.get id = some row →
    ∃ row', t.shards.get id = some row' ∧ row'.key = row.key
  keptSignal : ∀ id row, s.signals.get id = some row →
    ∃ row', t.signals.get id = some row' ∧ row'.key = row.key ∧ row'.signalData = row.signalData

theorem Covered.unused_after (hc : Covered s trail) (hu : Unused s id)
    (ho : id ∉ trail.minted) : Unused (after s trail.writes) id := by
  refine ⟨?_, ?_, ?_⟩
  · rcases get_runs_after_cases s trail.writes id with hs | ⟨row, hm, -⟩
    · rw [hs, hu.1]
    · rcases (hc.run id row hm).2 with ⟨old, hold⟩ | ⟨hmi, -⟩
      · rw [hu.1] at hold
        cases hold
      · exact absurd hmi ho
  · rcases get_shards_after_cases s trail.writes id with hs | ⟨row, hm, -⟩
    · rw [hs, hu.2.1]
    · rcases (hc.shard id row hm).2 with ⟨old, hold, -⟩ | ⟨hmi, -⟩
      · rw [hu.2.1] at hold
        cases hold
      · exact absurd hmi ho
  · rw [eq_none_iff_forall_ne_some]
    intro row hg
    rcases hc.get_cases hg with hi | ⟨old, hold⟩
    · exact ho (hc.insert _ _ _ hi).1
    · rw [hu.2.2] at hold
      cases hold

theorem Covered.shields (hc : Covered s mine) (hd : theirs.Disjoint mine) :
    Shields theirs s (after s mine.writes) where
  run := by
    intro id hl
    rcases get_runs_after_cases s mine.writes id with hs | ⟨row, hm, -⟩
    · exact hs
    · exact absurd (hc.run id row hm).1 (hd.1 _ hl)
  source := by
    intro key hl
    rcases get_sources_after_cases s mine.writes key with hs | ⟨row, hm, -⟩
    · exact hs
    · exact absurd (hc.source key row hm) (hd.1 _ hl)
  shard := by
    intro id hl
    rcases get_shards_after_cases s mine.writes id with hs | ⟨row, hm, -⟩
    · exact hs
    · exact absurd (hc.shard id row hm).1 (hd.1 _ hl)
  signal := by
    intro id row hl hg
    obtain ⟨row', hr', -, -, ⟨rfl, -⟩ | ⟨consumedBy, hm, -⟩⟩ := hc.get_of_get hg
    · exact hr'
    · exact absurd (hc.consume id consumedBy hm).1 (hd.1 _ hl)
  entry := by
    intro signal hl hp
    rcases hc.present_after.mp hp with hb | ⟨data, id, hi⟩
    · exact hb
    · exact absurd (hc.insert id signal data hi).2.2.1 (hd.1 _ hl)
  unused := fun id hmi hu => hc.unused_after hu (hd.2 id hmi)
  keptRun := by
    intro id row hg
    rcases get_runs_after_cases s mine.writes id with hs | ⟨row', -, hr'⟩
    · exact ⟨row, hs.trans hg⟩
    · exact ⟨row', hr'⟩
  keptShard := by
    intro id row hg
    rcases get_shards_after_cases s mine.writes id with hs | ⟨row', hm, hr'⟩
    · exact ⟨row, hs.trans hg, rfl⟩
    · refine ⟨row', hr', ?_⟩
      rcases (hc.shard id row' hm).2 with ⟨old, ho, hk⟩ | ⟨-, hu⟩
      · rw [hg] at ho
        cases ho
        exact hk.symm
      · rw [hu.2.1] at hg
        cases hg
  keptSignal := by
    intro id row hg
    obtain ⟨row', hr', hk, hdt, -⟩ := hc.get_of_get hg
    exact ⟨row', hr', hk, hdt⟩

theorem Present.of_shields (hp : Present s signal) (hs : Shields trail s t) :
    Present t signal := by
  obtain ⟨id, row, hg, rfl⟩ := hp
  obtain ⟨row', hr', hk, -⟩ := hs.keptSignal id row hg
  exact ⟨id, row', hr', hk⟩

theorem Covered.of_shields (hc : Covered s trail) (hsh : Shields trail s t) : Covered t trail where
  run := by
    intro id row hm
    obtain ⟨hl, ⟨old, hold⟩ | ⟨hmi, hu⟩⟩ := hc.run id row hm
    · exact ⟨hl, .inl (hsh.keptRun id old hold)⟩
    · exact ⟨hl, .inr ⟨hmi, hsh.unused id hmi hu⟩⟩
  source := hc.source
  shard := by
    intro id row hm
    obtain ⟨hl, ⟨old, hold, hky⟩ | ⟨hmi, hu⟩⟩ := hc.shard id row hm
    · obtain ⟨kept, hk, hs⟩ := hsh.keptShard id old hold
      exact ⟨hl, .inl ⟨kept, hk, hs.trans hky⟩⟩
    · exact ⟨hl, .inr ⟨hmi, hsh.unused id hmi hu⟩⟩
  insert := by
    intro id signal data hm
    obtain ⟨hmi, hu, he, hn⟩ := hc.insert id signal data hm
    exact ⟨hmi, hsh.unused id hmi hu, he, fun hp => hn (hsh.entry signal he hp)⟩
  oneKey := hc.oneKey
  oneId := hc.oneId
  consume := by
    intro id consumedBy hm
    obtain ⟨hl, row, hg, ho⟩ := hc.consume id consumedBy hm
    exact ⟨hl, row, hsh.signal id row hl hg, ho⟩

end FyralisCore.Onboarding
