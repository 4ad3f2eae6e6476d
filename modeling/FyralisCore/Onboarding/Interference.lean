import FyralisCore.Onboarding.Preservation

/-! What a session of the services may rely on between its statements: its
locks, the signal it has claimed, and what no service ever takes back. -/
namespace FyralisCore.Onboarding

open Relational Transaction Ingestion ReadCommitted

variable {c : Promises} {s : OnboardingDb} {mine theirs : OnboardingTrail} {key : SourceKey}
  {row : SourceRun} {ws : List OnboardingWrite} {id : Nat} {signal : OnboardingSignal}
  {data : OnboardingData}

def Final (c : Promises) (s : OnboardingDb) (trail : OnboardingTrail) : Prop :=
  Covered s trail ∧ Effect c s trail

structure Commits (c : Promises) (s : OnboardingDb) (mine theirs : OnboardingTrail) : Prop where
  good : Consistent c s
  covered : Covered s mine
  effect : Effect c s mine
  disjoint : theirs.Disjoint mine

theorem Consistent.source_of_handed {pass : Nat} (hg : Consistent c s)
    (hp : Present s (.shardsCompleted key pass)) : ∃ row, s.sources.get key = some row := by
  cases hr : s.sources.get key with
  | none => exact absurd hp ((hg.absent key hr).unhanded pass)
  | some row => exact ⟨row, rfl⟩

theorem Consistent.source_of_sharded (hg : Consistent c s) (hs : Sharded s key) :
    ∃ row, s.sources.get key = some row := by
  cases hr : s.sources.get key with
  | none => exact absurd hs (hg.absent key hr).unsharded
  | some row => exact ⟨row, rfl⟩

namespace Commits

section

variable (h : Commits c s mine theirs)

include h

theorem shields : Shields theirs s (after s mine.writes) :=
  h.covered.shields h.disjoint

theorem claims (hc : Claims s theirs id signal data) : Claims
    (after s mine.writes) theirs id signal data :=
  ⟨h.shields.signal id _ hc.2 hc.1, hc.2⟩

theorem not_takes (hc : Claims s theirs id signal data) : ¬ Takes s mine.writes signal :=
  hc.not_takes h.good h.covered h.disjoint

theorem emits (he : Emits s signal data ws) : Emits (after s mine.writes) signal data ws := by
  cases he with
  | found hp => exact .found (hp.of_shields h.shields)
  | inserted id => exact .inserted id

theorem runPending (hc : Claims s theirs id signal data) (hs : signal = .runCreated asked)
    (hg : s.runs.get asked = some run) (hp : run.status = .pending) :
    (after s mine.writes).runs.get asked = some run := by
  subst hs
  obtain ⟨run', hg', rfl | hpr⟩ := h.effect.run h.good hg
  · exact hg'
  · exact absurd (hpr.asked hp) (h.not_takes hc)

theorem runClosed (hg : s.runs.get id = some run) (hc : run.status.isOpen = false) :
    (after s mine.writes).runs.get id = some run := by
  obtain ⟨run', hg', rfl | hp⟩ := h.effect.run h.good hg
  · exact hg'
  · have ho := hp.opened
    rw [hc] at ho
    cases ho

theorem runComplete (hc : RunComplete s id) : RunComplete (after s mine.writes) id :=
  h.effect.runComplete h.good hc

theorem sourceLocked (hl : .source key ∈ theirs.locks) : (after s mine.writes).sources.get key =
    s.sources.get key :=
  h.shields.source key hl

theorem sourceFailed (hg : s.sources.get key = some row) (hf : row.status = .failed) :
    (after s mine.writes).sources.get key = some row :=
  h.effect.sourceFailed h.good hg hf

theorem sourcePending (hc : Claims s theirs id (.sourceRequested key) data)
    (hg : s.sources.get key = some row) (hp : row.status = .pending) :
    (after s mine.writes).sources.get key = some row := by
  obtain ⟨row', hg', rfl | ha⟩ := h.effect.source h.good hg
  · exact hg'
  · exact absurd (ha.asked hp) (h.not_takes hc)

theorem sourceHanded {pass : Nat} (hc : Claims s theirs id (.shardsCompleted key pass) data)
    (hg : s.sources.get key = some row) (hst : row.status = .completed) (hu : row.reconciledAt =
    none) : (after s mine.writes).sources.get key = some row := by
  obtain ⟨row', hg', rfl | ha⟩ := h.effect.source h.good hg
  · exact hg'
  · obtain ⟨other, ht⟩ := ha.heard hst hu
    have hp := (h.good.settled key row hg).phase
    simp only [Phase, hst, hu] at hp
    have ho : Open s (.shardsCompleted key other) := by
      obtain ⟨taken, consumedBy, found, hm, hf, hk⟩ := ht
      obtain ⟨-, open', ho', hn⟩ := h.covered.consume taken consumedBy hm
      cases hf.symm.trans ho'
      exact ⟨taken, found, hf, hk, hn⟩
    have hs := (hp.current other ho).trans (hp.current pass hc.open).symm
    rw [hs] at ht
    exact absurd ht (h.not_takes hc)

theorem reconciled (hg : s.sources.get key = some row) (hr : row.reconciledAt ≠ none) : ∃ row',
    (after s mine.writes).sources.get key = some row' ∧ row'.reconciledAt ≠ none := by
  obtain ⟨row', hg', rfl | ha⟩ := h.effect.source h.good hg
  · exact ⟨row', hg', hr⟩
  · exact ⟨row', hg', ha.kept hr⟩

theorem source_before (hs : ∀ run, s.runs.get key.onboardingRunId = some run →
    run.status ≠ .pending) (hg : (after s mine.writes).sources.get key = some row) : ∃ old,
    s.sources.get key = some old := by
  cases ho : s.sources.get key with
  | some old => exact ⟨old, rfl⟩
  | none =>
    obtain ⟨run, hr, hp, -⟩ := h.effect.newSource h.good ho hg
    exact absurd hp (hs run hr)

theorem shard_before (hl : .source shard.key ∈ theirs.locks)
    (hg : (after s mine.writes).shards.get id = some shard) : ∃ old, s.shards.get id =
    some old := by
  cases ho : s.shards.get id with
  | some old => exact ⟨old, rfl⟩
  | none =>
    obtain ⟨-, hm, -⟩ := h.effect.newShard h.good ho hg
    exact absurd hm (h.disjoint.1 _ hl)

theorem sightKept (hs : sight s key id ≠ none) : sight (after s mine.writes) key id ≠ none := by
  obtain ⟨found, hf⟩ := Option.ne_none_iff_exists'.mp hs
  obtain ⟨shard, hg, rfl, -⟩ := sight_eq_some.mp hf
  obtain ⟨shard', hg', hk, -⟩ := h.effect.shard h.good h.covered hg
  simp [sight, hg', hk]

theorem sights (hl : .source key ∈ theirs.locks) (hfn : ¬ Unfinished s key) (id : Nat) : sight
    (after s mine.writes) key id = sight s key id := by
  cases ha : sight (after s mine.writes) key id with
  | none =>
    cases hb : sight s key id with
    | none => rfl
    | some shard => exact absurd ha (h.sightKept (by simp [hb]))
  | some found =>
    obtain ⟨shard', hg', rfl, rfl⟩ := sight_eq_some.mp ha
    obtain ⟨shard, hg⟩ := h.shard_before hl hg'
    obtain ⟨found, hf, hk, hc⟩ := h.effect.shard h.good h.covered hg
    cases hg'.symm.trans hf
    rcases hc with hs | ⟨ho, -⟩
    · rw [hk, sight_of_get hg, hs]
    · exact absurd ⟨id, shard.sight, hk ▸ sight_of_get hg, ho⟩ hfn

theorem sibling (hl : .source key ∈ theirs.locks) (hsg : sight s key other = some shard)
    (ht : shard.isOpen ∨ Open s (.shardCompleted other)) : ∃ shard', sight
    (after s mine.writes) key other = some shard' ∧ (shard'.isOpen ∨
    Open (after s mine.writes) (.shardCompleted other)) := by
  obtain ⟨found, hg, rfl, rfl⟩ := sight_eq_some.mp hsg
  obtain ⟨found', hg', hk, hc⟩ := h.effect.shard h.good h.covered hg
  refine ⟨found'.sight, hk ▸ sight_of_get hg', ?_⟩
  rcases hc with hs | ⟨-, -, ho, -⟩
  · rw [hs]
    refine ht.imp_right fun ho => ?_
    refine (h.covered.open_after h.good.unique).mpr (.inl ⟨ho, ?_⟩)
    rintro ⟨taken, consumedBy, row, hm, hr, hk⟩
    cases h.effect.wrote h.good hm with
    | claimed hcl hh =>
      cases hr.symm.trans hcl.1
      exact h.disjoint.1 _ hl (hh other hk found hg)
  · exact .inr ho

theorem passed (hrp : Present s (.sourceCompleted key)) (hp : Passed c s key) : Passed c
    (after s mine.writes) key := by
  intro hst
  have ha := (h.good.arrived key).mpr hrp
  have hn : ∀ other, other ∉ s.arrivals → other.onboardingRunId = key.onboardingRunId →
      (after s mine.writes).arrivals = other :: s.arrivals →
      (after s mine.writes).arrivals.find? (ofRun key.onboardingRunId) ≠ some key := by
    intro other ho hr hc hfn
    rw [hc, find_ofRun_cons hr] at hfn
    cases hfn
    exact ho ha
  rcases hp hst with ⟨run, hg, hcl⟩ | ⟨other, row, hr, hg, hh⟩ | hne
  · exact .inl ⟨run, h.runClosed hg hcl, hcl⟩
  · rcases hh with hfl | hu
    · exact .inr (.inl ⟨other, row, hr, h.sourceFailed hg hfl, .inl hfl⟩)
    · obtain ⟨row', hg', -⟩ := h.effect.source h.good hg
      rcases h.effect.arrivals h.good h.covered with hs | ⟨arrived, hf, -, hc⟩
      · exact .inr (.inl ⟨other, row', hr, hg', .inr (hs ▸ hu)⟩)
      · by_cases ho : other = arrived
        · exact .inr (.inr (hn arrived hf (ho ▸ hr) hc))
        · refine .inr (.inl ⟨other, row', hr, hg', .inr ?_⟩)
          rw [hc, List.mem_cons]
          exact not_or.mpr ⟨ho, hu⟩
  · refine .inr (.inr ?_)
    rcases h.effect.arrivals h.good h.covered with hs | ⟨arrived, hf, -, hc⟩
    · rwa [hs]
    · by_cases hr : arrived.onboardingRunId = key.onboardingRunId
      · exact hn arrived hf hr hc
      · rwa [hc, List.find?_cons_of_neg (by simpa [ofRun] using hr)]

theorem idle (hc : Claims s theirs id signal data) (hi : Idle c s theirs signal) : Idle c
    (after s mine.writes) theirs signal := by
  cases signal with
  | shardCompleted shardId =>
    intro shard hg
    obtain ⟨old, ho, -⟩ := (h.good.completion shardId).mp hc.open.present
    obtain ⟨found, hf, hk, -⟩ := h.effect.shard h.good h.covered ho
    cases hg.symm.trans hf
    obtain ⟨hl, other, sibling, hn, hs, ht⟩ := hi old ho
    rw [hk]
    obtain ⟨sibling', hs', ht'⟩ := h.sibling hl hs ht
    exact ⟨hl, other, sibling', hn, hs', ht'⟩
  | shardsCompleted key pass =>
    intro row hg
    obtain ⟨old, ho⟩ := h.good.source_of_handed hc.open.present
    obtain ⟨found, hf, hr⟩ := h.reconciled ho (hi old ho)
    cases hg.symm.trans hf
    exact hr
  | sourceCompleted key => exact h.passed hc.open.present hi
  | runCreated => trivial
  | sourceRequested => trivial
  | shardRequested => trivial
  | tenantCompleted => trivial

end

end Commits

def SourceRun.isReconciled (row : SourceRun) : Prop :=
  row.status = .completed ∧ row.reconciledAt ≠ none

/-- Every source of the run satisfies the condition, unless the run is complete. -/
def EachSource (s : OnboardingDb) (run : Nat) (condition : SourceRun → Prop) : Prop :=
  RunComplete s run ∨ ∀ key row, key.onboardingRunId = run → s.sources.get key = some row →
    condition row

theorem Advances.isReconciled (ha : Advances c s mine key row row')
    (hs : c.steady) (ho : ¬ RunComplete s key.onboardingRunId) (hr : row.isReconciled) :
    row'.isReconciled :=
  ⟨(ha.steady hs hr.1 hr.2).resolve_right ho, ha.kept hr.2⟩

namespace Commits

section

variable (h : Commits c s mine theirs)

include h

theorem eachSource (hs : ∀ run, s.runs.get id = some run → run.status ≠ .pending)
    (hk : ∀ key row row', key.onboardingRunId = id → ¬ RunComplete s id →
    Advances c s mine key row row' → condition row → condition row')
    (he : EachSource s id condition) : EachSource (after s mine.writes) id condition := by
  by_cases hc : RunComplete s id
  · exact .inl (h.runComplete hc)
  · refine .inr fun key row' hky hg' => ?_
    obtain ⟨row, hg⟩ := h.source_before (hky ▸ hs) hg'
    have hr := he.resolve_left hc key row hky hg
    obtain ⟨found, hf, rfl | ha⟩ := h.effect.source h.good hg
    · cases hg'.symm.trans hf
      exact hr
    · cases hg'.symm.trans hf
      exact hk key row row' hky hc ha hr

theorem allReconciled (hs : c.steady) (hst : ∀ run, s.runs.get id = some run →
    run.status ≠ .pending) (he : EachSource s id SourceRun.isReconciled) : EachSource
    (after s mine.writes) id SourceRun.isReconciled :=
  h.eachSource hst (fun _ _ _ hk ho ha hr =>
    ha.isReconciled hs (hk ▸ ho) hr) he

theorem tally (hrp : Present s (.sourceCompleted key)) (ht : Tally c s theirs key runs ws) : Tally c
    (after s mine.writes) theirs key runs ws := by
  cases ht with
  | left hp => exact .left (h.passed hrp hp)
  | isOver hr hov he => exact .isOver (h.runClosed hr hov) hov (h.emits he)
  | @completed _ _ run hl hr ho ha he =>
    have hrun' := (h.shields.run _ hl).trans hr
    refine .completed hl hrun' ho (fun hs hc => ?_) (h.emits he)
    have hst : ∀ found, s.runs.get key.onboardingRunId = some found →
        found.status ≠ .pending := fun found => h.good.runStarted_of_reported hrp
    refine (h.allReconciled hs hst (.inr (ha hs hc))).resolve_left ?_
    rintro ⟨found, hf, hcp⟩
    cases hrun'.symm.trans hf
    simp [hcp, RunStatus.isOpen] at ho

theorem turn (hl : .source key ∈ theirs.locks) (ht : Turn s key row signal rows ws) : Turn
    (after s mine.writes) key row signal rows ws := by
  cases ht with
  | refused reason hst hlt he => exact .refused reason hst hlt (h.emits he)
  | emptied hst hlt he => exact .emptied hst hlt (h.emits he)
  | rolledUpFailed reason hsh hfn hf hr he =>
    have hs := h.sights hl hfn
    exact .rolledUpFailed reason (h.sightKept hsh) ((unfinished_congr hs).not.mpr hfn)
      ((anyFailed_congr hs).mpr hf) hr (h.emits he)
  | rolledUp hsh hfn hu hr he =>
    have hs := h.sights hl hfn
    exact .rolledUp (h.sightKept hsh) ((unfinished_congr hs).not.mpr hfn)
      ((anyFailed_congr hs).not.mpr hu) hr (h.emits he)
  | cleaned now hst hur he =>
    exact .cleaned now hst hur (h.emits he)
  | dispatchFailed reason hst hur he =>
    exact .dispatchFailed reason hst hur (h.emits he)

theorem reopens (hro : Reopens c s theirs key row row' claim) : Reopens c
    (after s mine.writes) theirs key row row' claim := by
  cases hro with
  | planned hcl hst => exact .planned (h.claims hcl) hst
  | reshared hcl hst hu =>
    exact .reshared (h.claims hcl) hst hu
  | rechecked hst hr hs =>
    exact .rechecked hst hr fun hc => h.runComplete (hs hc)

theorem marking (hw : Marking s theirs w) : Marking (after s mine.writes) theirs w := by
  obtain ⟨id, shard, rfl, hl, hg, hd⟩ := hw
  exact ⟨id, shard, rfl, hl, (h.shields.shard id hl).trans hg, hd⟩

theorem adding (hw : Adding s theirs key w) : Adding (after s mine.writes) theirs key w := by
  obtain ⟨id, shard, rfl, hk, hp, hm, hu⟩ | hi := hw
  · exact .inl ⟨id, shard, rfl, hk, hp, hm, h.shields.unused id hm hu⟩
  · exact .inr hi

theorem unreconciled (hsh : s.shards.get id = some shard) (ho : shard.state.isOpen) (hu : ∀ source,
    s.sources.get shard.key = some source → source.reconciledAt = none) (source : SourceRun)
    (hs : (after s mine.writes).sources.get shard.key = some source) : source.reconciledAt =
    none := by
  have hsg := sight_of_get hsh
  obtain ⟨old, hold⟩ := h.good.source_of_sharded ⟨id, _, hsg⟩
  obtain ⟨found, hf, rfl | ha⟩ := h.effect.source h.good hold
  · cases hs.symm.trans hf
    exact hu _ hold
  · cases hs.symm.trans hf
    by_contra hr
    exact ha.finished (hu old hold) hr ⟨id, _, hsg, ho⟩

theorem keptEffect (he : Effect c s theirs) : Effect c (after s mine.writes) theirs := by
  cases he with
  | nothing hw => exact .nothing hw
  | created hmi hun hem hw =>
    exact .created hmi (h.shields.unused _ hmi hun) (h.emits hem) hw
  | consumed hcl hi hw =>
    exact .consumed (h.claims hcl) (h.idle hcl hi) hw
  | opened hcl hl hr hp hop hs hw =>
    exact .opened (h.claims hcl) hl ((h.shields.run _ hl).trans hr) hp hop hs hw
  | closed hcl hl hr ho hcs hw =>
    refine .closed (h.claims hcl) hl ((h.shields.run _ hl).trans hr) ho (hcs.imp_right ?_) hw
    rintro ⟨key, source, hsg, hrn, hsr, hf⟩
    exact ⟨key, source, hsg, hrn, h.sourceFailed hsr hf, hf⟩
  | tallied hcl hmk htl hw =>
    refine .tallied (h.claims hcl) (hmk.imp_right ?_) (h.tally hcl.open.present htl) hw
    rintro ⟨row, hl, hr, ht⟩
    exact ⟨row, hl, (h.sourceLocked hl).trans hr, ht⟩
  | turned hcl hl hr htr hw =>
    exact .turned (h.claims hcl) hl ((h.sourceLocked hl).trans hr) (h.turn hl htr) hw
  | rechecked hl hr hst hrc hw =>
    exact .rechecked hl ((h.sourceLocked hl).trans hr) hst hrc hw
  | reopened hl hr hro hlt hmk ha hs hw =>
    exact .reopened hl ((h.sourceLocked hl).trans hr) (h.reopens hro) hlt
      (fun w hm => h.marking (hmk w hm)) (fun w hm => h.adding (ha w hm)) hs hw
  | started hcl hl hsh hstt hw =>
    exact .started (h.claims hcl) hl ((h.shields.shard _ hl).trans hsh) hstt hw
  | ended hl hsh ho hk hed hu hem hw =>
    exact .ended hl ((h.shields.shard _ hl).trans hsh) ho hk hed
      (fun hc hf => h.unreconciled hsh ho (hu hc hf)) (h.emits hem) hw

theorem final (hf : Final c s theirs) : Final c (after s mine.writes) theirs :=
  ⟨hf.1.of_shields h.shields, h.keptEffect hf.2⟩

end

end Commits

/-- What the run promises of a call that begins. A shard is terminated by the
fetcher that has read its row. -/
def Promises.Starts (c : Promises) (s : OnboardingDb) : OnboardingCall → Prop
  | .periodicReconciler key _ (.decided decision) _ =>
    c.steady → decision.hasGaps → RunComplete s key.onboardingRunId
  | .terminate shardId ending _ => ∃ shard, s.shards.get shardId = some shard ∧
      (c.unfailing → ending.data.status = .failed → shard.state.isOpen → ∀ source,
        s.sources.get shard.key = some source → source.reconciledAt = none)
  | _ => True

/-- The sources of the run are all counted as done, and one of them still waits
for its reconciliation. -/
def Miscounts (seen : OnboardingDb) (run : Nat) : Prop :=
  (∀ key row, key.onboardingRunId = run → seen.sources.get key = some row →
      row.status = .completed) ∧
    ∃ key row, key.onboardingRunId = run ∧ seen.sources.get key = some row ∧ row.reconciledAt = none

/-- What the run promises of a session that sends a statement: the count after
`.counting` is no miscount. -/
def Promises.Admits (c : Promises) (s : OnboardingDb) (trail : OnboardingTrail) : Prop :=
  c.counted → ∀ key, trail.writes.getLast? = some (.counting key) →
    ¬ Miscounts (after s trail.writes) key.onboardingRunId

def onboardingRules (c : Promises) : CommitRules onboardingSchema where
  Good := Consistent c
  Final := Final c
  Unused := Unused
  Starts := c.Starts
  Admits := c.Admits
  stable := fun _ _ _ hgood hmine hdisjoint htheirs =>
    Commits.final ⟨hgood, hmine.1, hmine.2, hdisjoint⟩ htheirs
  good_commit := fun hgood hfinal => hfinal.2.consistent hgood hfinal.1
  unused_commit := fun _ hfinal => hfinal.1.unused_after

abbrev Relies (c : Promises) (trail : OnboardingTrail) : OnboardingDb → OnboardingDb → Prop :=
  (onboardingRules c).Rely trail

theorem Relies.keeps {t : OnboardingDb} {tr : OnboardingTrail} {P : OnboardingDb → Prop}
    (hr : Relies c tr s t)
    (hsb : ∀ s mine, Commits c s mine tr → P s → P (after s mine.writes)) (hP : P s) : P t :=
  CommitRules.Rely.keeps (P := fun s u => u = tr → P s) hr (fun s mine theirs hg hf hd hs he => by
      subst he
      exact hsb s mine ⟨hg, hf.1, hf.2, hd⟩ (hs rfl))
    (fun _ => hP) rfl

end FyralisCore.Onboarding
