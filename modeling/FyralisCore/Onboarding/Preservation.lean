import FyralisCore.Onboarding.Steps
import FyralisCore.Onboarding.Transitions

/-! Every commit of an onboarding service keeps the tables consistent. -/
namespace FyralisCore.Onboarding

open Relational Transaction Ingestion ReadCommitted List

variable {c : Promises} {s : OnboardingDb} {mine : OnboardingTrail} {key other : SourceKey}
  {row row' : SourceRun} {ws writes : List OnboardingWrite} {id : Nat} {signal : OnboardingSignal}
  {data : OnboardingData}

def touchedBy (s : OnboardingDb) : OnboardingWrite → Option SourceKey
  | .insert _ (.sourceCompleted key) _ => some key
  | .insert _ (.shardsCompleted key _) _ => some key
  | .shard id shard => if sight s shard.key id = some shard.sight then none else some shard.key
  | _ => none

def Untouched (s : OnboardingDb) (key : SourceKey) (writes : List OnboardingWrite) : Prop :=
  ∀ w ∈ writes, touchedBy s w ≠ some key

def Unclaiming (writes : List OnboardingWrite) : Prop :=
  ∀ w ∈ writes, ∀ id consumedBy, w ≠ .consume id consumedBy

variable {shard : OnboardingShard} {consumedBy : String} {run : OnboardingRun}
  {rows : List SourceRun} {claim : List OnboardingWrite}

theorem sight_of_get (hg : s.shards.get id = some shard) :
    sight s shard.key id = some shard.sight :=
  sight_eq_some.mpr ⟨shard, hg, rfl, rfl⟩

theorem sight_key (hs : sight s key id ≠ none) (ho : sight s other id ≠ none) : key = other := by
  obtain ⟨_, hf⟩ := Option.ne_none_iff_exists'.mp hs
  obtain ⟨_, hf'⟩ := Option.ne_none_iff_exists'.mp ho
  obtain ⟨shard, hg, rfl, -⟩ := sight_eq_some.mp hf
  obtain ⟨shard', hg', rfl, -⟩ := sight_eq_some.mp hf'
  cases hg.symm.trans hg'
  rfl

theorem takes_cons (hc : Claims s mine id signal data) (ht : Unclaiming writes)
    (htk : Takes s (.consume id consumedBy :: writes) taken) : taken = signal := by
  obtain ⟨other, by', found, hm, hg, rfl⟩ := htk
  rcases mem_cons.mp hm with he | hm
  · cases he
    cases hg.symm.trans hc.1
    rfl
  · exact absurd rfl (ht _ hm other by')

theorem not_takes_of_unclaiming (hw : Unclaiming writes) : ¬ Takes s writes signal := by
  rintro ⟨other, consumedBy, _, hm, -⟩
  exact hw _ hm other consumedBy rfl

theorem sight_eq_none_of_key (hg : s.shards.get id = some shard)
    (hk : shard.key ≠ key) : sight s key id = none := by
  simp [sight, hg, hk]

theorem sight_after (hcv : Covered s mine) (hsh : ∀ id shard, .shard id shard ∈ mine.writes →
      touchedBy s (.shard id shard) ≠ some key) (id : Nat) :
    sight (after s mine.writes) key id = sight s key id := by
  rcases get_shards_after_cases s mine.writes id with hs | ⟨shard, hm, hg⟩
  · rw [sight, hs, sight]
  by_cases hk : shard.key = key
  · have ht := hsh id shard hm
    subst hk
    rw [sight_of_get hg]
    by_contra hc
    exact ht (by rw [touchedBy, if_neg (Ne.symm hc)])
  · rw [sight_eq_none_of_key hg hk]
    rcases (hcv.shard id shard hm).2 with ⟨old, ho, hs⟩ | ⟨-, hu⟩
    · exact (sight_eq_none_of_key ho (hs ▸ hk)).symm
    · simp [sight, hu.2.1]

theorem Untouched.not_inserted (hu : Untouched s key writes) :
    ¬ Inserted writes (.sourceCompleted key) := by
  rintro ⟨data, id, hm⟩
  exact hu _ hm rfl

theorem Untouched.not_handed (hu : Untouched s key writes) (pass : Nat) :
    ¬ Inserted writes (.shardsCompleted key pass) := by
  rintro ⟨data, id, hm⟩
  exact hu _ hm rfl

section

variable (he : Effect c s mine)

include he

theorem Effect.liveShard {shard : ShardSight} (hgd : Consistent c s) (hc : Covered s mine)
    (hsg : sight s key id = some shard) (ht : shard.isOpen ∨ Open s (.shardCompleted id))
    (hk : ¬ Takes s mine.writes (.shardCompleted id)) : Live (after s mine.writes) key := by
  obtain ⟨found, hg, rfl, rfl⟩ := sight_eq_some.mp hsg
  obtain ⟨found', hg', hky, hs | ⟨-, -, ho, -⟩⟩ := he.shard hgd hc hg
  · refine ⟨id, found.sight, sight_eq_some.mpr ⟨found', hg', hky, hs⟩, ?_⟩
    refine ht.imp_right fun ho => ?_
    exact (hc.open_after hgd.unique).mpr (.inl ⟨ho, hk⟩)
  · exact ⟨id, found'.sight, sight_eq_some.mpr ⟨found', hg', hky, rfl⟩, .inr ho⟩

theorem Effect.live (hg : Consistent c s) (hc : Covered s mine) (hk : ∀ id, sight s key id ≠ none →
    ¬ Takes s mine.writes (.shardCompleted id)) (hl : Live s key) : Live
    (after s mine.writes) key := by
  obtain ⟨id, shard, hs, ht⟩ := hl
  exact he.liveShard hg hc hs ht (hk id (by simp [hs]))

section

variable (hgd : Consistent c s)

include hgd

theorem Effect.live_of_idle (hc : Covered s mine) (hcl : Claims s mine id signal data)
    (hi : Idle c s mine signal) (hw : mine.writes = [.consume id consumedBy]) (hl : Live s key) :
    Live (after s mine.writes) key := by
  have htk : ∀ {taken}, Takes s mine.writes taken → taken = signal := fun h =>
    takes_cons hcl (by simp [Unclaiming]) (hw ▸ h)
  obtain ⟨shardId, shard, hsg, ht⟩ := hl
  by_cases hh : signal = .shardCompleted shardId
  · subst hh
    obtain ⟨found, hg, rfl, -⟩ := sight_eq_some.mp hsg
    obtain ⟨-, other, sibling, hn, hs, ht⟩ := hi found hg
    refine he.liveShard hgd hc hs ht fun h => hn ?_
    cases htk h
    rfl
  · exact he.liveShard hgd hc hsg ht fun h => hh (htk h).symm

theorem Effect.runKept (hg : s.runs.get id = some run) (hs : run.status ≠ .pending) : ∃ run',
    (after s mine.writes).runs.get id = some run' ∧ run'.status ≠ .pending ∧ (run.status =
    .complete → run'.status = .complete) := by
  obtain ⟨run', hg', rfl | hp⟩ := he.run hgd hg
  · exact ⟨run', hg', hs, fun h => h⟩
  · refine ⟨run', hg', hp.started, fun hc => ?_⟩
    have ho := hp.opened
    rw [hc] at ho
    cases ho

theorem Effect.silent (hcov : Covered s mine) (hrep : ¬ Inserted mine.writes (.sourceCompleted key))
    (hhanded : ∀ pass, ¬ Inserted mine.writes (.shardsCompleted key pass)) : Silent s
    (after s mine.writes) key where
  handed := by
    intro pass
    rw [hcov.present_after]
    exact or_iff_left (hhanded pass)
  heard := by
    intro pass ho
    rcases (hcov.open_after hgd.unique).mp ho with ⟨hb, -⟩ | hi
    · exact hb
    · exact absurd hi (hhanded pass)
  reported := by
    intro data
    rw [hcov.says_after]
    exact or_iff_left fun hi => hrep ⟨data, hi⟩
  run := fun _ hg hst => he.runKept hgd hg hst

theorem Effect.runComplete (hc : RunComplete s id) : RunComplete (after s mine.writes) id :=
  runComplete_of_kept (fun _ hg hs => he.runKept hgd hg hs) hc

end

theorem Effect.quiet (hg : Consistent c s) (hc : Covered s mine) (hu : Untouched s key mine.writes)
    (hl : Live s key → Live (after s mine.writes) key) : Quiet s (after s mine.writes) key where
  toSilent := he.silent hg hc hu.not_inserted hu.not_handed
  sights := sight_after hc fun _ _ hm => hu _ hm
  live := hl

end

/-! ### What is known of a source afterwards -/

def Known (c : Promises) (s : OnboardingDb) (key : SourceKey) : Prop :=
  (s.sources.get key = none → Unknown s key) ∧
    ∀ row, s.sources.get key = some row → Settled c s key row

theorem Consistent.known (hg : Consistent c s) (key : SourceKey) : Known c s key :=
  ⟨hg.absent key, hg.settled key⟩

theorem Quiet.known (hq : Quiet s t key) (hk : Known c s key)
    (hs : t.sources.get key = s.sources.get key) : Known c t key := by
  rw [Known, hs]
  exact ⟨fun hn => hq.unknown (hk.1 hn), fun row hg => hq.settled (hk.2 row hg)⟩

theorem Emits.emitted (hem : Emits s signal data ws) (he : Effect c s mine)
    (hgd : Consistent c s) (hc : Covered s mine)
    (hw : mine.writes = .consume id consumedBy :: (rows.map (.source key) ++ ws)) :
    Emitted s (after s mine.writes) key signal data := by
  have hi : ∀ {other}, Inserted mine.writes other → other = signal := by
    rintro other ⟨said, made, hm⟩
    simp only [hw, mem_cons, mem_append, mem_map, reduceCtorEq, and_false,
      exists_false, false_or] at hm
    obtain ⟨_, h⟩ := hem.mem hm
    cases h
    rfl
  refine ⟨sight_after hc fun made shard hm => ?_, ?_, fun hn => ?_, fun other hp => ?_,
    fun other ho => ?_, fun other hp => hc.present_after.mpr (.inl hp),
    fun other said ht => hc.says_after.mpr (.inl ht),
    fun run hg hs => he.runKept hgd hg hs⟩
  · simp only [hw, mem_cons, mem_append, mem_map, reduceCtorEq, and_false,
      exists_false, false_or] at hm
    obtain ⟨_, h⟩ := hem.mem hm
    cases h
  · rw [hc.present_after]
    cases hem with
    | found hp => exact .inl hp
    | inserted made => exact .inr ⟨data, made, by simp [hw]⟩
  · obtain ⟨made, rfl⟩ := hem.eq_of_new hn
    exact hc.says_after.mpr (.inr ⟨made, by simp [hw]⟩)
  · exact (hc.present_after.mp hp).imp_right hi
  · rcases (hc.open_after hgd.unique).mp ho with ⟨hb, -⟩ | hn
    · exact .inl hb
    · obtain rfl := hi hn
      obtain ⟨said, made, hm⟩ := hn
      exact .inr ⟨rfl, (hc.insert made other said hm).2.2.2⟩

theorem Covered.not_open (hc : Covered s mine) (hg : Consistent c s)
    (ht : Takes s mine.writes signal) (hp : Present s signal) :
    ¬ Open (after s mine.writes) signal := by
  intro ho
  rcases (hc.open_after hg.unique).mp ho with ⟨-, hn⟩ | ⟨said, made, hm⟩
  · exact hn ht
  · exact (hc.insert made signal said hm).2.2.2 hp

theorem Turn.settled (ht : Turn s key row signal rows ws) (he : Effect c s mine)
    (hg : Consistent c s) (hc : Covered s mine) (hr : s.sources.get key = some row)
    (hcl : Claims s mine id signal data)
    (hw : mine.writes = .consume id consumedBy :: (rows.map (.source key) ++ ws))
    (hl : rows.getLast?.or (some row) = some row') : Settled c (after s mine.writes) key row' := by
  have hse := hg.settled key row hr
  cases ht with
  | refused reason hs hrs hem =>
    rw [hrs] at hl
    cases hl
    exact (hem.emitted he hg hc hw).refused hse hs
  | emptied hs hrs hem =>
    rw [hrs] at hl
    cases hl
    have hp := hse.phase
    simp only [Phase, hs] at hp
    rw [← hp.first] at hem
    exact (hem.emitted he hg hc hw).emptied hse hs
  | rolledUpFailed reason hsh hfn hf hrs hem =>
    have hemt := hem.emitted he hg hc hw
    cases hs : row.status.isOpen with
    | true =>
      rw [hrs, if_pos hs] at hl
      cases hl
      exact hemt.rolledUpFailed hse hs hfn hf
    | false =>
      rw [hrs, hs] at hl
      cases hl
      exact hemt.rolledUpFailed_closed hse hs hf
  | rolledUp hsh hfn hu hrs hem =>
    have hemt := hem.emitted he hg hc hw
    obtain ⟨shard, hsg⟩ := Option.ne_none_iff_exists'.mp hsh
    cases hs : row.status.isOpen with
    | true =>
      rw [hrs, if_pos hs] at hl
      cases hl
      exact hemt.rolledUp hse hs ⟨_, shard, hsg⟩ hfn hu
    | false =>
      rw [hrs, hs] at hl
      cases hl
      exact hemt.rolledUp_closed hse hs ⟨_, shard, hsg⟩ hu
  | cleaned now hs hur hem =>
    cases hl
    exact (hem.emitted he hg hc hw).cleaned hse hs hur
  | dispatchFailed reason hs hur hem =>
    cases hl
    have htk : Takes s mine.writes _ := takes_of_claims hcl (by rw [hw]; exact .head _)
    exact (hem.emitted he hg hc hw).dispatchFailed hse hs hur
      hcl.open (hc.not_open hg htk hcl.open.present)

theorem source_after_of_sourceless (hw : Sourceless mine.writes) (key : SourceKey) :
    (after s mine.writes).sources.get key = s.sources.get key := by
  rcases get_sources_after_cases s mine.writes key with hs | ⟨row, hm, -⟩
  · exact hs
  · exact absurd rfl (hw _ hm key row)

section

variable (he : Effect c s mine)

include he

theorem Effect.known_of_untouched (hg : Consistent c s) (hc : Covered s mine)
    (hu : Untouched s key mine.writes) (hk : ∀ id, sight s key id ≠ none →
    ¬ Takes s mine.writes (.shardCompleted id)) (hs : (after s mine.writes).sources.get key =
    s.sources.get key) : Known c (after s mine.writes) key :=
  (he.quiet hg hc hu (he.live hg hc hk)).known (hg.known key) hs

theorem known_opened {run : Nat} (hgd : Consistent c s) (hcv : Covered s mine)
    (hcl : Claims s mine id (.runCreated run) data) (hr : s.runs.get run = some found)
    (hp : found.status = .pending) (hop : ∀ w ∈ opening, Opening run w) (hw : mine.writes =
      .consume id consumedBy :: (opening ++ [.run run { found with status := .running }])) :
    Known c (after s mine.writes) key := by
  have ha : ∀ {p : OnboardingWrite → Prop}, p (.consume id consumedBy) →
      (∀ w ∈ opening, p w) → p (.run run { found with status := .running }) →
      ∀ w ∈ mine.writes, p w := by
    intro p hc hop hrn
    simp only [hw, mem_cons, mem_append, not_mem_nil, or_false]
    rintro w (rfl | hm | rfl)
    · exact hc
    · exact hop w hm
    · exact hrn
  have hq : Quiet s (after s mine.writes) key := by
    refine he.quiet hgd hcv (ha (by simp [touchedBy]) (all_opening hop (by simp [touchedBy])
        (by simp [touchedBy])) (by simp [touchedBy])) (he.live hgd hcv fun shardId _ h => ?_)
    rw [hw] at h
    have ht : Unclaiming (opening ++ [.run run { found with status := .running }]) := by
      rw [Unclaiming, forall_mem_append]
      exact ⟨all_opening hop (by simp) (by simp), by simp⟩
    cases takes_cons hcl ht h
  rcases get_sources_after_cases s mine.writes key with hs | ⟨row, hm, hg⟩
  · exact hq.known (hgd.known key) hs
  obtain ⟨hk, hnw⟩ : key.onboardingRunId = run ∧ ∃ tenantId : Nat, row = { tenantId } := by
    simp only [hw, mem_cons, mem_append, not_mem_nil, or_false, reduceCtorEq, false_or] at hm
    obtain ⟨source, tenantId, h⟩ | ⟨_, _, _, h⟩ := hop _ hm <;> cases h
    exact ⟨rfl, tenantId, rfl⟩
  have hn : s.sources.get key = none := by
    rw [Option.eq_none_iff_forall_ne_some]
    intro old ho
    obtain ⟨started, hstr, hst⟩ := hgd.runStarted ho
    rw [hk, hr] at hstr
    cases hstr
    exact hst hp
  obtain ⟨tenantId, rfl⟩ := hnw
  have hu := hq.unknown (hgd.absent key hn)
  refine ⟨fun h => by simp [hg] at h, fun row' hg' => ?_⟩
  cases hg.symm.trans hg'
  refine ⟨⟨{ found with status := .running }, ?_, by simp⟩,
    fun pass hpr => absurd hpr (hu.unhanded pass), fun _ h => absurd rfl h,
    ⟨hu.unsharded, hu.unreported, hu.unhanded, rfl, rfl⟩⟩
  rw [hk, hw, get_runs_after]
  simp [writtenRun]

theorem known_tallied (hgd : Consistent c s) (hc : Covered s mine)
    (hcl : Claims s mine id (.sourceCompleted key) data)
    (hmk : marks = [] ∨ ∃ row, .source key ∈ mine.locks ∧ s.sources.get key = some row ∧
      row.status = .inProgress ∧ marks = [{ row with status := .completed }])
    (htl : Tally c s mine key runs ws) (hw : mine.writes = .consume id consumedBy ::
      (marks.map (.source key) ++ .counting key :: (runs.map (.run key.onboardingRunId) ++ ws))) :
    Known c (after s mine.writes) other := by
  have ha : ∀ {p : OnboardingWrite → Prop}, (∀ row, p (.source key row)) → p (.counting key) →
      (∀ run, p (.run key.onboardingRunId run)) →
      (∀ id data, p (.insert id (.tenantCompleted key.onboardingRunId) data)) →
      ∀ w ∈ marks.map (.source key) ++
        .counting key :: (runs.map (.run key.onboardingRunId) ++ ws), p w := by
    intro p hs hcn hrn hi
    simp only [mem_append, mem_map, mem_cons]
    rintro w (⟨row, -, rfl⟩ | rfl | ⟨run, -, rfl⟩ | hm)
    · exact hs row
    · exact hcn
    · exact hrn run
    · exact htl.all hi w hm
  have hq : Quiet s (after s mine.writes) other := by
    refine he.quiet hgd hc ?_ (he.live hgd hc fun shardId _ h => ?_)
    · rw [hw, Untouched, forall_mem_cons]
      exact ⟨by simp [touchedBy], ha (by simp [touchedBy]) (by simp [touchedBy])
        (by simp [touchedBy]) (by simp [touchedBy])⟩
    · rw [hw] at h
      cases takes_cons hcl (ha (by simp) (by simp) (by simp) (by simp)) h
  have hws : Sourceless ws := htl.all (by simp)
  have ht : Sourceless (.counting key :: (runs.map (.run key.onboardingRunId) ++ ws)) :=
    ((sourceless_map_run _ runs).append hws).cons (by simp)
  have hg := get_sources_after_rows
    (sourceless_nil.cons (by simp) : Sourceless [.consume id consumedBy]) ht s key other marks
  rw [singleton_append, ← hw] at hg
  rcases hmk with rfl | ⟨row, -, hr, hst, rfl⟩
  · refine hq.known (hgd.known other) ?_
    rw [hg]
    split <;> simp
  · by_cases hk : other = key
    · subst hk
      rw [if_pos rfl] at hg
      refine ⟨fun h => by simp [hg] at h, fun row' hg' => ?_⟩
      cases hg.symm.trans hg'
      exact hq.tallied (hgd.settled _ row hr) hst hcl.open.present
    · exact hq.known (hgd.known other) (by rw [hg, if_neg hk])

theorem known_turned (hgd : Consistent c s) (hc : Covered s mine)
    (hcl : Claims s mine id signal data) (hr : s.sources.get key = some row)
    (htr : Turn s key row signal rows ws) (hw : mine.writes =
    .consume id consumedBy :: (rows.map (.source key) ++ ws)) : Known c
    (after s mine.writes) other := by
  have hws : Sourceless ws := htr.all (fun _ _ => by simp) fun _ _ _ => by simp
  have hg := get_sources_after_rows
    (sourceless_nil.cons (by simp) : Sourceless [.consume id consumedBy]) hws s key other rows
  rw [singleton_append, ← hw] at hg
  by_cases hk : other = key
  · subst hk
    rw [if_pos rfl, hr] at hg
    refine ⟨fun h => ?_, fun row' hg' => ?_⟩
    · rw [h] at hg
      cases hl : rows.getLast? <;> simp [hl] at hg
    · exact htr.settled he hgd hc hr hcl hw (hg.symm.trans hg')
  · rw [if_neg hk] at hg
    refine he.known_of_untouched hgd hc ?_ (fun shardId hs h => ?_) hg
    · rw [hw, Untouched, forall_mem_cons, forall_mem_append]
      refine ⟨by simp [touchedBy], by simp [touchedBy], htr.all ?_ ?_⟩ <;>
        simp [touchedBy, Ne.symm hk]
    · rw [hw] at h
      have ht : Unclaiming (rows.map (.source key) ++ ws) := by
        rw [Unclaiming, forall_mem_append]
        exact ⟨by simp, htr.all (by simp) (by simp)⟩
      obtain rfl := takes_cons hcl ht h
      exact hk (sight_key hs htr.shard)

end

theorem touchedBy_relabelled (hg : s.shards.get id = some shard)
    (hk : shard'.key = shard.key) (hs : shard'.sight = shard.sight) :
    touchedBy s (.shard id shard') = none := by
  rw [touchedBy, hk, sight_of_get hg, hs, if_pos rfl]

theorem Reopens.takes (hr : Reopens c s mine key row row' claim)
    (ht : Unclaiming writes) (htk : Takes s (claim ++ writes) taken) :
    taken = .sourceRequested key ∨ ∃ pass, taken = .shardsCompleted key pass := by
  cases hr with
  | planned hc => exact .inl (takes_cons hc ht htk)
  | reshared hc => exact .inr ⟨_, takes_cons hc ht htk⟩
  | rechecked => exact absurd htk (not_takes_of_unclaiming ht)

theorem Reopens.settled (hro : Reopens c s mine key row row' claim)
    (hsl : Silent s t key) (hse : Settled c s key row) (hl : Live t key)
    (hf : AnyFailed t key → AnyFailed s key)
    (ht : ∀ id consumedBy pass data, OnboardingWrite.consume id consumedBy ∈ claim →
      Claims s mine id (.shardsCompleted key pass) data → ¬ Open t (.shardsCompleted key pass)) :
    Settled c t key row' := by
  cases hro with
  | planned hc hst => exact hsl.planned hse hst hl
  | reshared hc hst hu =>
    exact hsl.reshared hse hst hu hl hc.open (ht _ _ _ _ (.head _) hc)
  | rechecked hst hr hs =>
    exact hsl.rechecked hse hst hr hl hf hs

section

variable (he : Effect c s mine) (hgd : Consistent c s)

include he hgd

theorem known_reopened (hcv : Covered s mine) (hr : s.sources.get key = some row)
    (hro : Reopens c s mine key row row' claim) (hl : rows.getLast? = some row') (hmk : ∀ w ∈ marks,
    Marking s mine w) (had : ∀ w ∈ added, Adding s mine key w) (hsm : ∃ id shard,
    .shard id shard ∈ added) (hw : mine.writes =
    claim ++ (rows.map (.source key) ++ (marks ++ added))) : Known c
    (after s mine.writes) other := by
  have ht : Unclaiming (rows.map (.source key) ++ (marks ++ added)) := by
    rw [Unclaiming, forall_mem_append, forall_mem_append]
    exact ⟨by simp, all_marking hmk (by simp), all_adding had (by simp) (by simp)⟩
  have hg := get_sources_after_rows hro.sourceless
    ((Marking.sourceless hmk).append (Adding.sourceless had)) s key other rows
  rw [← hw, hl, Option.some_or] at hg
  have ha : ∀ {p : OnboardingWrite → Prop}, (∀ w ∈ claim, p w) → (∀ row, p (.source key row)) →
      (∀ w ∈ marks, p w) → (∀ w ∈ added, p w) → ∀ w ∈ mine.writes, p w := by
    intro p hc hsr hmr hadd
    rw [hw, forall_mem_append, forall_mem_append, forall_mem_append]
    exact ⟨hc, by simpa using fun row _ => hsr row, hmr, hadd⟩
  have hk : ∀ shardId, ¬ Takes s mine.writes (.shardCompleted shardId) := by
    intro shardId h
    rw [hw] at h
    rcases hro.takes ht h with h | ⟨pass, h⟩ <;> cases h
  by_cases hky : other = key
  · subst hky
    rw [if_pos rfl] at hg
    have hclm : ∀ {p : OnboardingWrite → Prop}, (∀ id consumedBy, p (.consume id consumedBy)) →
        ∀ w ∈ claim, p w := by
      intro p hp
      cases hro <;> simp [hp]
    have hi : ∀ w ∈ mine.writes, ∀ id data, w ≠ .insert id (.sourceCompleted other) data ∧
        ∀ pass, w ≠ .insert id (.shardsCompleted other pass) data :=
      ha (hclm (by simp)) (by simp) (all_marking hmk (by simp)) (all_adding had (by simp) (by simp))
    have hsl : Silent s (after s mine.writes) other := by
      refine he.silent hgd hcv ?_ ?_
      · rintro ⟨data, id, hm⟩
        exact (hi _ hm id data).1 rfl
      · rintro pass ⟨data, id, hm⟩
        exact (hi _ hm id data).2 pass rfl
    have hsh : ∀ w ∈ mine.writes, ∀ id shard, w = .shard id shard →
        (∃ old, s.shards.get id = some old) ∧ shard.state = .reconciliationResharded ∨
          shard.key = other ∧ shard.state = .pending := by
      refine ha (hclm (by simp)) (by simp)
        (all_marking hmk fun made old ho _ id shard heq => ?_) fun w hm id shard heq => ?_
      · cases heq
        exact .inl ⟨⟨old, ho⟩, rfl⟩
      · subst heq
        obtain ⟨_, _, h, hky, hpd, -⟩ | ⟨_, _, _, h⟩ := had _ hm <;> cases h
        exact .inr ⟨hky, hpd⟩
    have hlv : Live (after s mine.writes) other := by
      obtain ⟨shardId, shard, hm⟩ := hsm
      have hn : s.shards.get shardId = none := by
        obtain ⟨_, _, h, -, -, -, hu⟩ | ⟨_, _, _, h⟩ := had _ hm <;> cases h
        exact hu.2.1
      obtain ⟨shard', hm', hg'⟩ := exists_of_shard_mem
        (show .shard shardId shard ∈ mine.writes by simp [hw, hm]) s
      rcases hsh _ hm' shardId shard' rfl with ⟨⟨old, ho⟩, -⟩ | ⟨hky, hpd⟩
      · rw [hn] at ho
        cases ho
      · exact ⟨shardId, shard'.sight, sight_eq_some.mpr ⟨shard', hg', hky, rfl⟩,
          .inl (by simp [OnboardingShard.sight, hpd, ShardState.isOpen])⟩
    have hfl : AnyFailed (after s mine.writes) other → AnyFailed s other := by
      rintro ⟨shardId, found, hsg, hf⟩
      obtain ⟨shard, hg', hky, rfl⟩ := sight_eq_some.mp hsg
      rcases get_shards_after_cases s mine.writes shardId with hs | ⟨shard', hm, hwr⟩
      · exact ⟨shardId, _, sight_eq_some.mpr ⟨shard, hs.symm.trans hg', hky, rfl⟩, hf⟩
      · cases hg'.symm.trans hwr
        rcases hsh _ hm shardId shard rfl with ⟨-, hst⟩ | ⟨-, hst⟩ <;>
          simp [OnboardingShard.sight, hst] at hf
    refine ⟨fun h => by simp [hg] at h, fun row'' hg'' => ?_⟩
    cases hg.symm.trans hg''
    refine hro.settled hsl (hgd.settled _ row hr) hlv hfl ?_
    intro id consumedBy pass data hm hcl
    exact hcv.not_open hgd (takes_of_claims hcl (by rw [hw]; exact mem_append_left _ hm))
      hcl.open.present
  · rw [if_neg hky] at hg
    refine he.known_of_untouched hgd hcv (ha ?_ (by simp [touchedBy]) ?_ ?_)
      (fun shardId _ => hk shardId) hg
    · cases hro <;> simp [touchedBy]
    · refine all_marking hmk fun id shard ho hd => ?_
      refine ne_of_eq_of_ne (touchedBy_relabelled ho rfl ?_) (by simp)
      simp [OnboardingShard.sight, hd, ShardState.isOpen]
    · refine all_adding had (fun id shard hs => ?_) (by simp [touchedBy])
      rw [touchedBy, hs]
      split <;> simp [Ne.symm hky]

theorem known_ended (hcv : Covered s mine) (hsh : s.shards.get shardId = some shard)
    (hop : shard.state.isOpen) (hky : shard'.key = shard.key) (hun : c.unfailing → shard'.state =
    .failed → ∀ source, s.sources.get shard.key = some source → source.reconciledAt = none)
    (hem : Emits s (.shardCompleted shardId) data ws) (hw : mine.writes =
    .shard shardId shard' :: ws) : Known c (after s mine.writes) other := by
  have ha : ∀ {p : OnboardingWrite → Prop}, p (.shard shardId shard') →
      (∀ id, p (.insert id (.shardCompleted shardId) data)) → ∀ w ∈ mine.writes, p w := by
    intro p hp hin
    rw [hw, forall_mem_cons]
    exact ⟨hp, hem.all hin⟩
  have hs : (after s mine.writes).sources.get other = s.sources.get other :=
    source_after_of_sourceless (ha (by simp) (by simp)) other
  have hu : Unclaiming mine.writes := ha (by simp) (by simp)
  have hk : ∀ id, sight s other id ≠ none → ¬ Takes s mine.writes (.shardCompleted id) :=
    fun id _ => not_takes_of_unclaiming hu
  by_cases ho : other = shard.key
  · subst ho
    have hunf : Unfinished s shard.key := ⟨shardId, shard.sight, sight_of_get hsh, hop⟩
    have hi : ∀ w ∈ mine.writes, ∀ id data, w ≠ .insert id (.sourceCompleted shard.key) data ∧
          ∀ pass, w ≠ .insert id (.shardsCompleted shard.key pass) data := ha (by simp) (by simp)
    have hsl : Silent s (after s mine.writes) shard.key :=
      he.silent hgd hcv (fun ⟨data, id, hm⟩ => (hi _ hm id data).1 rfl)
        fun pass ⟨data, id, hm⟩ => (hi _ hm id data).2 pass rfl
    rw [Known, hs]
    refine ⟨fun hn => absurd ⟨shardId, _, sight_of_get hsh⟩
      (hgd.absent _ hn).unsharded, fun row hr => ?_⟩
    refine hsl.ended (hgd.settled _ row hr) hunf (he.live hgd hcv hk hunf.live) fun hc hrc => ?_
    rintro ⟨id, found, hsg, hf⟩
    obtain ⟨after', hg, hfn, rfl⟩ := sight_eq_some.mp hsg
    rcases get_shards_after_cases s mine.writes id with hold | ⟨written, hm, hwr⟩
    · exact (hgd.settled _ row hr).unfailed hc hrc
        ⟨id, _, sight_eq_some.mpr ⟨after', hold.symm.trans hg, hfn, rfl⟩, hf⟩
    · cases hg.symm.trans hwr
      obtain rfl : after' = shard' := by
        have := ha (p := fun w => ∀ id shard, w = .shard id shard → shard = shard') (by simp)
          (by simp) _ hm id after' rfl
        exact this
      exact hrc (hun hc (by simpa [OnboardingShard.sight] using hf) row hr)
  · refine he.known_of_untouched hgd hcv (ha ?_ (by simp [touchedBy])) hk hs
    rw [touchedBy, hky]
    split <;> simp [Ne.symm ho]

theorem Effect.known (hc : Covered s mine) (key : SourceKey) : Known c
    (after s mine.writes) key := by
  have hk : Unclaiming mine.writes → ∀ id, sight s key id ≠ none →
      ¬ Takes s mine.writes (.shardCompleted id) :=
    fun hu id _ => not_takes_of_unclaiming hu
  cases he with
  | nothing hw => simpa [hw] using hgd.known key
  | created hmi hun hem hw =>
    have ha : ∀ {p : OnboardingWrite → Prop}, (∀ id run, p (.run id run)) →
        (∀ id run data, p (.insert id (.runCreated run) data)) → ∀ w ∈ mine.writes, p w := by
      intro p hrn hin
      rw [hw, forall_mem_cons]
      exact ⟨hrn _ _, hem.all fun id => hin id _ _⟩
    exact Effect.known_of_untouched (.created hmi hun hem hw) hgd hc
      (ha (by simp [touchedBy]) (by simp [touchedBy])) (hk (ha (by simp) (by simp)))
      (source_after_of_sourceless (ha (by simp) (by simp)) key)
  | consumed hcl hi hw =>
    have he : Effect c s mine := .consumed hcl hi hw
    refine (he.quiet hgd hc ?_ (he.live_of_idle hgd hc hcl hi hw)).known (hgd.known key)
      (source_after_of_sourceless ?_ key)
    · simp [hw, Untouched, touchedBy]
    · simp [hw, Sourceless]
  | opened hcl hl hr hp hop hs hw =>
    exact known_opened (.opened hcl hl hr hp hop hs hw) hgd hc hcl hr hp hop hw
  | closed hcl hl hr ho hcs hw =>
    refine Effect.known_of_untouched (.closed hcl hl hr ho hcs hw) hgd hc
      (by simp [hw, Untouched, touchedBy]) (fun shardId _ h => ?_)
      (source_after_of_sourceless (by simp [hw, Sourceless]) key)
    rw [hw] at h
    obtain rfl := takes_cons hcl (by simp [Unclaiming]) h
    simp at hcs
  | tallied hcl hm ht hw =>
    exact known_tallied (.tallied hcl hm ht hw) hgd hc hcl hm ht hw
  | turned hcl hl hr htr hw =>
    exact known_turned (.turned hcl hl hr htr hw) hgd hc hcl hr htr hw
  | @rechecked other row checked hl hr hst hrc hw =>
    have he : Effect c s mine := .rechecked hl hr hst hrc hw
    have hq : Quiet s (after s mine.writes) key :=
      he.quiet hgd hc (by simp [hw, Untouched, touchedBy])
        (he.live hgd hc (hk (by simp [hw, Unclaiming])))
    have hg := get_sources_after_rows sourceless_nil sourceless_nil s other key
      [{ row with lastReconcileCheckAt := checked }]
    simp only [nil_append, map_cons, map_nil, append_nil, ← hw,
      List.getLast?_singleton, Option.some_or] at hg
    by_cases hky : key = other
    · subst hky
      rw [if_pos rfl] at hg
      refine ⟨fun h => by simp [hg] at h, fun row' hg' => ?_⟩
      cases hg.symm.trans hg'
      exact (hq.settled (hgd.settled _ row hr)).of_row rfl rfl rfl
    · exact hq.known (hgd.known key) (by rw [hg, if_neg hky])
  | reopened hl hr hro hlt hm had hs hw =>
    exact known_reopened (.reopened hl hr hro hlt hm had hs hw) hgd hc hr hro hlt hm had hs hw
  | started hcl hl hsh hstt hw =>
    refine Effect.known_of_untouched (.started hcl hl hsh hstt hw) hgd hc ?_
      (fun shardId _ h => ?_) (source_after_of_sourceless (by simp [hw, Sourceless]) key)
    · simp only [hw, Untouched, forall_mem_cons, not_mem_nil, false_implies, implies_true, and_true]
      refine ⟨by simp [touchedBy], ne_of_eq_of_ne (touchedBy_relabelled hsh rfl ?_) (by simp)⟩
      simp [OnboardingShard.sight, hstt, ShardState.isOpen]
    · rw [hw] at h
      cases takes_cons hcl (by simp [Unclaiming]) h
  | ended hl hsh ho hky hed hunf hem hw =>
    exact known_ended (.ended hl hsh ho hky hed hunf hem hw) hgd hc hsh ho hky hunf hem hw

theorem Effect.reportsShard (hi : Inserted mine.writes (.shardCompleted id)) : ∃ shard,
    (after s mine.writes).shards.get id = some shard ∧ shard.state.isOpen = false := by
  obtain ⟨said, made, hm⟩ := hi
  cases he.wrote hgd hm with
  | told hed =>
    obtain ⟨shard, hw, hc⟩ := hed id rfl
    obtain ⟨shard', hm', hg⟩ := exists_of_shard_mem hw s
    exact ⟨shard', hg, hc shard' hm'⟩

theorem Effect.completion (hcv : Covered s mine) (id : Nat) : Present (after s mine.writes)
    (.shardCompleted id) ↔ ∃ shard, (after s mine.writes).shards.get id = some shard ∧
    shard.state.isOpen = false := by
  constructor
  · intro hpr
    rcases hcv.present_after.mp hpr with hb | hi
    · obtain ⟨shard, hg, hc⟩ := (hgd.completion id).mp hb
      obtain ⟨shard', hg', -, hs | ⟨ho, -⟩⟩ := he.shard hgd hcv hg
      · exact ⟨shard', hg', (congrArg ShardSight.isOpen hs).trans hc⟩
      · rw [hc] at ho
        cases ho
    · exact he.reportsShard hgd hi
  · rintro ⟨shard', hg', hc⟩
    cases hold : s.shards.get id with
    | none =>
      obtain ⟨hp, -⟩ := he.newShard hgd hold hg'
      simp [hp, ShardState.isOpen] at hc
    | some shard =>
      obtain ⟨found, hf, -, hs | ⟨-, -, ho, -⟩⟩ := he.shard hgd hcv hold
      · cases hg'.symm.trans hf
        have hb : shard.state.isOpen = false := (congrArg ShardSight.isOpen hs).symm.trans hc
        exact hcv.present_after.mpr (.inl ((hgd.completion id).mpr ⟨shard, hold, hb⟩))
      · exact ho.present

end

theorem Covered.arrived (hc : Covered s mine) (hg : Consistent c s) : key ∈ (after s mine.writes).arrivals ↔
      Present (after s mine.writes) (.sourceCompleted key) := by
  rw [arrivals_after, mem_append, mem_reverse, mem_filterMap, hc.present_after, hg.arrived, or_comm]
  refine or_congr_right ⟨?_, ?_⟩
  · rintro ⟨w, hm, ha⟩
    cases w with
    | insert made signal said =>
      cases signal <;> simp [arrival] at ha
      subst ha
      exact ⟨said, made, hm⟩
    | _ => cases ha
  · rintro ⟨said, made, hm⟩
    exact ⟨_, hm, rfl⟩

section

variable (he : Effect c s mine) (hgd : Consistent c s)

include he hgd

theorem Effect.sourceFailed (hg : s.sources.get key = some row) (hf : row.status = .failed) :
    (after s mine.writes).sources.get key = some row := by
  obtain ⟨row', hg', rfl | ha⟩ := he.source hgd hg
  · exact hg'
  · exact absurd hf ha.unfailed

theorem Effect.failed (hrn : (after s mine.writes).runs.get id = some run) (hfl : run.status =
    .failed) (hsm : SomeSource (after s mine.writes) id fun _ _ => True) : SomeSource
    (after s mine.writes) id fun _ row => row.status = .failed := by
  have hk : SomeSource s id (fun _ row => row.status = .failed) →
      SomeSource (after s mine.writes) id fun _ row => row.status = .failed := by
    rintro ⟨key, row, hky, hg, hst⟩
    exact ⟨key, row, hky, he.sourceFailed hgd hg hst, hst⟩
  obtain ⟨key, row, rfl, hg, -⟩ := hsm
  have hsrc : (∃ old, s.runs.get key.onboardingRunId = some old ∧ old.status ≠ .pending) →
      ∃ old, s.sources.get key = some old := by
    rintro ⟨old, ho, hstr⟩
    cases hb : s.sources.get key with
    | some before => exact ⟨before, rfl⟩
    | none =>
      obtain ⟨found, hf, hp, -⟩ := he.newSource hgd hb hg
      cases ho.symm.trans hf
      exact absurd hp hstr
  rcases get_runs_after_cases s mine.writes key.onboardingRunId with hs | ⟨run', hm, hr'⟩
  · rw [hs] at hrn
    obtain ⟨old, ho⟩ := hsrc ⟨run, hrn, by simp [hfl]⟩
    exact hk (hgd.failed _ run hrn hfl ⟨key, old, rfl, ho, trivial⟩)
  · cases hrn.symm.trans hr'
    cases (he.wrote hgd hm).moves with
    | created _ hp => simp [hp] at hfl
    | opened _ _ _ hr => simp [hr] at hfl
    | completed _ _ _ hc => simp [hc] at hfl
    | closed old ho _ _ hcs =>
      rcases hcs with ⟨hp, -, hsr⟩ | hcs
      · rw [source_after_of_sourceless hsr] at hg
        obtain ⟨found, hf, hstr⟩ := hgd.runStarted hg
        cases ho.symm.trans hf
        exact absurd hp hstr
      · exact hk hcs

theorem Effect.passed (ht : Takes s mine.writes (.sourceCompleted key))
    (hrn : (after s mine.writes).runs.get key.onboardingRunId = some run) (hr : run.status =
    .running) : Passed c s key := by
  have hpr : Present s (.sourceCompleted key) := by
    obtain ⟨taken, _, found, -, hg, hk⟩ := ht
    exact ⟨taken, found, hg, hk⟩
  have hu : ∀ written, .run key.onboardingRunId written ∉ mine.writes := by
    intro written hm
    obtain ⟨run', hm', hg⟩ := exists_of_run_mem hm s
    cases hrn.symm.trans hg
    obtain ⟨source, hs⟩ := hgd.source_of_reported hpr
    obtain ⟨old, ho, hst⟩ := hgd.runStarted hs
    cases (he.wrote hgd hm').moves with
    | created hun => simp [hun.1] at ho
    | opened found hf hp =>
      cases ho.symm.trans hf
      exact hst hp
    | closed _ _ _ hfl => simp [hfl] at hr
    | completed _ _ _ hc => simp [hc] at hr
  obtain ⟨taken, _, found, hm, hg, hk⟩ := ht
  cases he.wrote hgd hm with
  | claimed hcl _ hps =>
    cases hg.symm.trans hcl.1
    refine (hps key hk).resolve_right ?_
    rintro ⟨_, hrn⟩
    exact hu _ hrn

end

theorem find_ofRun_cons {run : Nat} (hk : key.onboardingRunId = run) :
    (key :: arrivals).find? (ofRun run) = some key := by
  simp [ofRun, hk]

theorem Effect.holding (he : Effect c s mine) (hgd : Consistent c s) (hcv : Covered s mine)
    (hh : SomeSource s id (Holding s)) : Awaited (after s mine.writes) id := by
  obtain ⟨key, row, rfl, hg, hf | hu⟩ := hh
  · exact .inl ⟨key, row, rfl, he.sourceFailed hgd hg hf, .inl hf⟩
  · obtain ⟨row', hg', -⟩ := he.source hgd hg
    rcases he.arrivals hgd hcv with hs | ⟨other, hn, hi, hc⟩
    · exact .inl ⟨key, row', rfl, hg', .inr (hs ▸ hu)⟩
    · by_cases hk : key = other
      · subst hk
        exact .inr ⟨key, hc ▸ find_ofRun_cons rfl, (hcv.open_after hgd.unique).mpr (.inr hi)⟩
      · refine .inl ⟨key, row', rfl, hg', .inr ?_⟩
        rw [hc, mem_cons]
        exact not_or.mpr ⟨hk, hu⟩

theorem Effect.awaited (he : Effect c s mine) (hg : Consistent c s) (hcv : Covered s mine)
    (hstd : c.steady) (hrn : (after s mine.writes).runs.get id = some run)
    (hr : run.status = .running) : Awaited (after s mine.writes) id := by
  by_cases hb : ∃ old, s.runs.get id = some old ∧ old.status = .running
  · obtain ⟨old, hold, hb⟩ := hb
    rcases hg.awaited hstd id old hold hb with hh | ⟨key, hfn, hop⟩
    · exact he.holding hg hcv hh
    obtain rfl : key.onboardingRunId = id := by simpa [ofRun] using List.find?_some hfn
    by_cases ht : Takes s mine.writes (.sourceCompleted key)
    · rcases he.passed hg ht hrn hr hstd with
        ⟨found, hf, hcl⟩ | hh | hne
      · cases hold.symm.trans hf
        simp [hb, RunStatus.isOpen] at hcl
      · exact he.holding hg hcv hh
      · exact absurd hfn hne
    · refine .inr ?_
      rcases he.arrivals hg hcv with hs | ⟨other, hn, hi, hc⟩
      · exact ⟨key, hs ▸ hfn, (hcv.open_after hg.unique).mpr (.inl ⟨hop, ht⟩)⟩
      · by_cases ho : other.onboardingRunId = key.onboardingRunId
        · exact ⟨other, hc ▸ find_ofRun_cons ho, (hcv.open_after hg.unique).mpr (.inr hi)⟩
        · refine ⟨key, ?_, (hcv.open_after hg.unique).mpr (.inl ⟨hop, ht⟩)⟩
          rw [hc, List.find?_cons_of_neg (by simpa [ofRun] using ho), hfn]
  · rcases get_runs_after_cases s mine.writes id with hs | ⟨run', hm, hrn'⟩
    · exact absurd ⟨run, hs.symm.trans hrn, hr⟩ hb
    cases hrn.symm.trans hrn'
    cases (he.wrote hg hm).moves with
    | created _ hp => simp [hp] at hr
    | closed _ _ _ hfl => simp [hfl] at hr
    | completed _ _ _ hcp => simp [hcp] at hr
    | opened old hold hp _ _ hsm hu =>
      obtain ⟨source, row, hsr⟩ := hsm
      obtain ⟨row', hr'⟩ := exists_of_source_mem hsr s
      refine .inl ⟨⟨id, source⟩, row', rfl, hr', .inr ?_⟩
      rw [arrivals_after, hu, reverse_nil, nil_append, hg.arrived]
      intro hpr
      obtain ⟨found, hf⟩ := hg.source_of_reported hpr
      obtain ⟨started, hst, hnt⟩ := hg.runStarted hf
      cases hold.symm.trans hst
      exact hnt hp

theorem Effect.consistent (he : Effect c s mine) (hg : Consistent c s)
    (hc : Covered s mine) : Consistent c (after s mine.writes) where
  unique := hc.unique_after hg.unique
  arrived := fun _ => hc.arrived hg
  completion := he.completion hg hc
  absent := fun key => (he.known hg hc key).1
  settled := fun key => (he.known hg hc key).2
  failed := fun _ _ hr hf => he.failed hg hr hf
  awaited := fun hs _ _ => he.awaited hg hc hs

end FyralisCore.Onboarding
