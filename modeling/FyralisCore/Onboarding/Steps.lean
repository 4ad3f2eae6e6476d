import FyralisCore.Onboarding.Effects

/-! What one commit can do to a run, a source and its shards. -/
namespace FyralisCore.Onboarding

open Relational Transaction Ingestion ReadCommitted List SourceStatus

variable {c : Promises} {s : OnboardingDb} {mine theirs : OnboardingTrail} {key : SourceKey}
  {row : SourceRun} {ws : List OnboardingWrite} {id : Nat} {signal : OnboardingSignal}
  {data : OnboardingData}

variable {consumedBy : String} {row' : SourceRun} {rows : List SourceRun}

section

variable (hc : Claims s mine id signal data)

include hc

theorem takes_of_claims (hm : .consume id consumedBy ∈ writes) : Takes s writes signal :=
  ⟨id, consumedBy, _, hm, hc.1, rfl⟩

theorem Claims.open : Open s signal :=
  ⟨id, _, hc.1, rfl, rfl⟩

theorem Claims.told : Says s signal data :=
  ⟨id, _, hc.1, rfl, rfl⟩

end

theorem Consistent.runStarted (hg : Consistent c s) (hr : s.sources.get key = some row) :
    ∃ run, s.runs.get key.onboardingRunId = some run ∧ run.status ≠ .pending :=
  (hg.settled key row hr).run

section

variable (hg : Consistent c s) (hp : Present s (.sourceCompleted key))

include hg hp

theorem Consistent.source_of_reported : ∃ row, s.sources.get key = some row := by
  cases hr : s.sources.get key with
  | none => exact absurd hp (hg.absent key hr).unreported
  | some row => exact ⟨row, rfl⟩

theorem Consistent.runStarted_of_reported (hrn : s.runs.get key.onboardingRunId = some run) :
    run.status ≠ .pending := by
  obtain ⟨row, hr⟩ := hg.source_of_reported hp
  obtain ⟨found, hf, hs⟩ := hg.runStarted hr
  cases hrn.symm.trans hf
  exact hs

end

structure Advances (c : Promises) (s : OnboardingDb) (mine : OnboardingTrail) (key : SourceKey)
    (row row' : SourceRun) : Prop where
  asked : row.status = .pending → Takes s mine.writes (.sourceRequested key)
  heard : row.status = .completed → row.reconciledAt = none →
    ∃ pass, Takes s mine.writes (.shardsCompleted key pass)
  kept : row.reconciledAt ≠ none → row'.reconciledAt ≠ none
  unfailed : row.status ≠ .failed
  steady : c.steady → row.status = .completed → row.reconciledAt ≠ none →
    row'.status = .completed ∨ RunComplete s key.onboardingRunId
  finished : row.reconciledAt = none → row'.reconciledAt ≠ none → ¬ Unfinished s key

theorem Advances.of_open (ho : row.status.isOpen)
    (hak : row.status = .pending → Takes s mine.writes (.sourceRequested key))
    (hs : row'.reconciledAt = row.reconciledAt) : Advances c s mine key row row' where
  asked := hak
  heard := by
    intro hst
    simp [hst, isOpen] at ho
  kept := by simp [hs]
  unfailed := by
    intro hst
    simp [hst, isOpen] at ho
  steady := by
    intro _ hst
    simp [hst, isOpen] at ho
  finished := fun hn hsm => absurd (hs.trans hn) hsm

theorem Advances.of_completed (hs : row.status = .completed) (hu : row.reconciledAt = none)
    (hh : ∃ pass, Takes s mine.writes (.shardsCompleted key pass))
    (hf : row'.reconciledAt ≠ none → ¬ Unfinished s key) : Advances c s mine key row row' where
  asked := by simp [hs]
  heard := fun _ _ => hh
  kept := by simp [hu]
  unfailed := by simp [hs]
  steady := fun _ _ hr => absurd hu hr
  finished := fun _ => hf

theorem Turn.advances (ht : Turn s key row signal rows ws) (hg : Consistent c s)
    (hr : s.sources.get key = some row) (hc : Claims s mine id signal data)
    (hm : .consume id consumedBy ∈ mine.writes) (hl : rows.getLast? = some row') :
    Advances c s mine key row row' := by
  have htk := takes_of_claims hc hm
  have hp := (hg.settled key row hr).phase
  cases ht with
  | refused reason hs hrs =>
    cases hl.symm.trans hrs
    exact .of_open (by simp [hs, isOpen]) (fun _ => htk) rfl
  | emptied hs hrs =>
    cases hl.symm.trans hrs
    exact .of_open (by simp [hs, isOpen]) (fun _ => htk) rfl
  | rolledUpFailed reason hsh hfn hf hrs =>
    split at hrs <;> subst hrs <;> cases hl
    next ho =>
    refine .of_open ho (fun hpd => ?_) rfl
    simp only [Phase, hpd] at hp
    exact absurd hf.sharded hp.unsharded
  | rolledUp hsh hfn hu hrs =>
    split at hrs <;> subst hrs <;> cases hl
    next ho =>
    refine .of_open ho (fun hpd => ?_) rfl
    simp only [Phase, hpd] at hp
    obtain ⟨shard, hsg⟩ := Option.ne_none_iff_exists'.mp hsh
    exact absurd ⟨_, shard, hsg⟩ hp.unsharded
  | cleaned now hs hur =>
    cases hl
    simp only [Phase, hs, hur] at hp
    exact .of_completed hs hur ⟨_, htk⟩ fun _ => hp.finished
  | dispatchFailed reason hs hur =>
    cases hl
    exact .of_completed hs hur ⟨_, htk⟩ fun h => absurd hur h

theorem Reopens.advances (hro : Reopens c s mine key row row' claim) (hm : claim ⊆ mine.writes) :
    Advances c s mine key row row' := by
  cases hro with
  | planned hc hst =>
    exact .of_open (by simp [hst, isOpen]) (fun _ => takes_of_claims hc (hm (.head _))) rfl
  | reshared hc hst hu =>
    exact .of_completed hst hu ⟨_, takes_of_claims hc (hm (.head _))⟩ fun h => absurd hu h
  | rechecked hst hr hs =>
    exact ⟨by simp [hst], fun _ h => absurd h hr, fun h => h, by simp [hst],
      fun h _ _ => .inr (hs h), fun h => absurd h hr⟩

theorem source_of_rows (hf : Sourceless front) (hws : Sourceless ws)
    (hw : mine.writes = front ++ (rows.map (.source other) ++ ws))
    (hg : s.sources.get key = some row) (ha : (after s mine.writes).sources.get key = some row') :
    row' = row ∨ key = other ∧ rows.getLast? = some row' := by
  rw [hw, get_sources_after_rows hf hws, hg] at ha
  split at ha
  · next he =>
    cases hl : rows.getLast? with
    | none =>
      rw [hl] at ha
      cases ha
      exact .inl rfl
    | some last =>
      rw [hl] at ha
      cases ha
      exact .inr ⟨he, rfl⟩
  · cases ha
    exact .inl rfl

theorem Effect.source (he : Effect c s mine) (hgd : Consistent c s)
    (hg : s.sources.get key = some row) :
    ∃ row', (after s mine.writes).sources.get key = some row' ∧
      (row' = row ∨ Advances c s mine key row row') := by
  rcases get_sources_after_cases s mine.writes key with hs | ⟨row', hm, hr'⟩
  · exact ⟨row, hs.trans hg, .inl rfl⟩
  refine ⟨row', hr', ?_⟩
  cases he with
  | nothing hw => simp [hw] at hm
  | created _ _ hem hw =>
    rw [hw] at hm
    exact absurd rfl (hem.sourceless.cons (by simp) _ hm key row')
  | consumed _ _ hw => simp [hw] at hm
  | opened _ _ hrn hp ho _ hw =>
    simp only [hw, mem_cons, mem_append, not_mem_nil, or_false, reduceCtorEq, false_or] at hm
    obtain ⟨source, tenantId, h⟩ | ⟨_, _, _, h⟩ := ho _ hm
    · cases h
      obtain ⟨run, hf, hstr⟩ := hgd.runStarted hg
      rw [hrn] at hf
      cases hf
      exact absurd hp hstr
    · cases h
  | closed _ _ _ _ _ hw => simp [hw] at hm
  | @tallied id consumedBy other data marks runs ws hc hmk htl hw =>
    have hws : Sourceless ws := by
      cases htl with
      | left => exact sourceless_nil
      | isOver _ _ hem => exact hem.sourceless
      | completed _ _ _ _ hem => exact hem.sourceless
    have ht : Sourceless (.counting other :: (runs.map (.run other.onboardingRunId) ++ ws)) :=
      ((sourceless_map_run _ runs).append hws).cons (by simp)
    rcases source_of_rows (sourceless_nil.cons (by simp) : Sourceless [.consume id consumedBy])
      ht hw hg hr' with hs | ⟨rfl, hlt⟩
    · exact .inl hs
    · refine .inr ?_
      rcases hmk with rfl | ⟨old, -, hr, hst, rfl⟩ <;> cases hlt
      cases hg.symm.trans hr
      exact .of_open (by simp [hst, isOpen]) (by simp [hst]) rfl
  | @turned id consumedBy signal other data old rows ws hc hl hr htr hw =>
    have hws : Sourceless ws := by
      cases htr with
      | _ => exact Emits.sourceless (by assumption)
    rcases source_of_rows (sourceless_nil.cons (by simp) : Sourceless [.consume id consumedBy])
      hws hw hg hr' with hs | ⟨rfl, hlt⟩
    · exact .inl hs
    · cases hg.symm.trans hr
      exact .inr (htr.advances hgd hr hc (by rw [hw]; exact .head _) hlt)
  | rechecked hl hr hst hrc hw =>
    simp only [hw, mem_singleton, OnboardingWrite.source.injEq] at hm
    obtain ⟨rfl, rfl⟩ := hm
    cases hg.symm.trans hr
    exact .inr ⟨by simp [hst], fun _ h => absurd h hrc, fun h => h, by simp [hst],
      fun _ _ _ => .inl hst, fun h => absurd h hrc⟩
  | reopened hl hr hro hlt hmk ha hsm hw =>
    have hws := (Marking.sourceless hmk).append (Adding.sourceless ha)
    rcases source_of_rows hro.sourceless hws hw hg hr' with hs | ⟨rfl, hl'⟩
    · exact .inl hs
    · cases hg.symm.trans hr
      cases hlt.symm.trans hl'
      refine .inr (hro.advances ?_)
      rw [hw]
      exact subset_append_left _ _
  | started _ _ _ _ hw => simp [hw] at hm
  | ended _ _ _ _ _ _ hem hw =>
    rw [hw] at hm
    exact absurd rfl (hem.sourceless.cons (by simp) _ hm key row')

theorem arrivalOf_opening {run : Nat} {opening : List OnboardingWrite}
    (ho : ∀ w ∈ opening, Opening run w) : opening.filterMap arrivalOf = [] := by
  rw [filterMap_eq_nil_iff]
  intro w hm
  obtain ⟨_, _, rfl⟩ | ⟨_, _, _, rfl⟩ := ho w hm <;> rfl

inductive Moves (c : Promises) (s : OnboardingDb) (mine : OnboardingTrail) (id : Nat)
    (run' : OnboardingRun) : Prop where
  | created (hunused : Unused s id) (hpending : run'.status = .pending)
  | opened (run : OnboardingRun) (hget : s.runs.get id = some run) (hpending : run.status = .pending)
      (hrunning : run'.status = .running) (htakes : Takes s mine.writes (.runCreated id))
      (hsome : ∃ source row, .source ⟨id, source⟩ row ∈ mine.writes)
      (hunheard : mine.writes.filterMap arrivalOf = [])
  | closed (run : OnboardingRun) (hget : s.runs.get id = some run) (hopen : run.status.isOpen)
      (hfailed : run'.status = .failed)
      (hcause : (run.status = .pending ∧ Takes s mine.writes (.runCreated id) ∧
          Sourceless mine.writes) ∨ SomeSource s id fun _ row => row.status = .failed)
  | completed (run : OnboardingRun) (hget : s.runs.get id = some run)
      (hopen : run.status.isOpen) (hcomplete : run'.status = .complete)
      (hreported : ∃ key, key.onboardingRunId = id ∧ Present s (.sourceCompleted key))
      (hall : c.steady → c.counted → ∀ other row, other.onboardingRunId = id →
        s.sources.get other = some row → row.status = .completed ∧ row.reconciledAt ≠ none)
      (hshardless : ∀ id shard, .shard id shard ∉ mine.writes)

inductive Shifts (c : Promises) (s : OnboardingDb) (mine : OnboardingTrail) (id : Nat)
    (shard' : OnboardingShard) : Prop where
  | relabelled (shard : OnboardingShard) (hget : s.shards.get id = some shard)
      (hkey : shard'.key = shard.key) (hsight : shard'.sight = shard.sight)
  | ended (shard : OnboardingShard) (hget : s.shards.get id = some shard)
      (hkey : shard'.key = shard.key) (hopen : shard.state.isOpen)
      (hended : shard'.state.isOpen = false)
      (hunfailing : c.unfailing → shard'.state = .failed → ∀ source,
        s.sources.get shard.key = some source → source.reconciledAt = none)
      (hcompleted : Inserted mine.writes (.shardCompleted id))
  | added (hunused : Unused s id) (hpending : shard'.state = .pending)
      (hlock : .source shard'.key ∈ mine.locks)

theorem Turn.shard (ht : Turn s key row (.shardCompleted id) rows ws) : sight s key id ≠ none := by
  cases ht <;> assumption

inductive Wrote (c : Promises) (s : OnboardingDb) (mine : OnboardingTrail) :
    OnboardingWrite → Prop where
  | claimed {id : Nat} {consumedBy : String} {signal : OnboardingSignal} {data : OnboardingData}
      (hclaims : Claims s mine id signal data)
      (hheld : ∀ shardId, signal = .shardCompleted shardId → ∀ shard,
        s.shards.get shardId = some shard → .source shard.key ∈ mine.locks)
      (hpassed : ∀ key, signal = .sourceCompleted key →
        Passed c s key ∨ ∃ run, .run key.onboardingRunId run ∈ mine.writes) :
      Wrote c s mine (.consume id consumedBy)
  | told {id : Nat} {signal : OnboardingSignal} {data : OnboardingData}
      (hended : ∀ shardId, signal = .shardCompleted shardId →
        ∃ shard, .shard shardId shard ∈ mine.writes ∧
          ∀ written, .shard shardId written ∈ mine.writes → written.state.isOpen = false) :
      Wrote c s mine (.insert id signal data)
  | opened {key : SourceKey} {row : SourceRun} {run : OnboardingRun}
      (hrun : s.runs.get key.onboardingRunId = some run) (hpending : run.status = .pending)
      (htakes : Takes s mine.writes (.runCreated key.onboardingRunId)) :
      Wrote c s mine (.source key row)
  | kept {key : SourceKey} {row old : SourceRun} (hget : s.sources.get key = some old) :
      Wrote c s mine (.source key row)
  | run {id : Nat} {run' : OnboardingRun} (hmoves : Moves c s mine id run') :
      Wrote c s mine (.run id run')
  | shard {id : Nat} {shard' : OnboardingShard} (hshifts : Shifts c s mine id shard') :
      Wrote c s mine (.shard id shard')
  | counting {key : SourceKey} : Wrote c s mine (.counting key)

theorem Wrote.moves (hw : Wrote c s mine (.run id run')) : Moves c s mine id run' := by
  cases hw
  assumption

theorem Wrote.shifts (hw : Wrote c s mine (.shard id shard')) : Shifts c s mine id shard' := by
  cases hw
  assumption

/-- The writes of an effect, one by one. -/
theorem Effect.wrote {w : OnboardingWrite} (he : Effect c s mine) (hgd : Consistent c s)
    (hm : w ∈ mine.writes) : Wrote c s mine w := by
  cases he with
  | nothing hw => simp [hw] at hm
  | created hmi hun hem hw =>
    rw [hw, mem_cons] at hm
    rcases hm with rfl | hws
    · exact .run (.created hun rfl)
    · exact hem.all (fun _ => .told (by simp)) w hws
  | consumed hcl hi hw =>
    obtain rfl := mem_singleton.mp (hw ▸ hm)
    refine .claimed hcl ?_ ?_
    · rintro shardId rfl shard hg
      exact (hi shard hg).1
    · rintro key rfl
      exact .inl hi
  | opened hcl _ hr hp hop hsm hw =>
    have htk : Takes s mine.writes _ := takes_of_claims hcl (by rw [hw]; exact .head _)
    have hu : mine.writes.filterMap arrivalOf = [] := by
      rw [hw, filterMap_cons_none rfl, filterMap_append, arrivalOf_opening hop]
      rfl
    rw [hw, mem_cons, mem_append, mem_singleton] at hm
    rcases hm with rfl | ho | rfl
    · exact .claimed hcl (by simp) (by simp)
    · obtain ⟨source, tenantId, rfl⟩ | ⟨_, _, _, rfl⟩ := hop _ ho
      · exact .opened hr hp htk
      · exact .told (by simp)
    · obtain ⟨source, row, hsrc⟩ := hsm
      refine .run (.opened _ hr hp rfl htk ⟨source, row, ?_⟩ hu)
      rw [hw]
      exact .tail _ (mem_append_left _ hsrc)
  | @closed id run consumedBy signal data row summary hcl _ hr ho hcs hw =>
    have htk : Takes s mine.writes signal := takes_of_claims hcl (by rw [hw]; exact .head _)
    have hsr : Sourceless mine.writes := by simp [Sourceless, hw]
    have hrn : .run run { row with status := .failed, errorSummary := some summary } ∈
        mine.writes := by simp [hw]
    rw [hw, mem_cons, mem_singleton] at hm
    rcases hm with rfl | rfl
    · refine .claimed hcl ?_ ?_
      · rintro shardId rfl
        simp at hcs
      · rintro key rfl
        obtain ⟨h, -⟩ | ⟨_, _, h, rfl, -⟩ := hcs <;> cases h
        exact .inr ⟨_, hrn⟩
    · refine .run (.closed _ hr ho rfl (hcs.imp ?_ ?_))
      · rintro ⟨rfl, hp⟩
        exact ⟨hp, htk, hsr⟩
      · rintro ⟨key, source, -, rfl, hsrc, hfl⟩
        exact ⟨key, source, rfl, hsrc, hfl⟩
  | @tallied id consumedBy key data marks runs ws hcl hmk ht hw =>
    have hsh : ∀ id shard, .shard id shard ∉ mine.writes := by
      intro id shard hm
      simp only [hw, mem_cons, mem_append, mem_map, reduceCtorEq, and_false,
        exists_false, false_or] at hm
      exact ht.all (p := (· ≠ .shard id shard)) (by simp) _ hm rfl
    rw [hw, mem_cons, mem_append, mem_map, mem_cons, mem_append, mem_map] at hm
    rcases hm with rfl | ⟨_, hmr, rfl⟩ | rfl | ⟨found, hf, rfl⟩ | hws
    · refine .claimed hcl (by simp) ?_
      rintro _ ⟨⟩
      cases ht with
      | left hps => exact .inl hps
      | isOver hrn hov => exact .inl fun _ => .inl ⟨_, hrn, hov⟩
      | @completed _ _ run =>
        exact .inr ⟨{ run with status := .complete }, by simp [hw]⟩
    · obtain rfl | ⟨_, -, hr, -⟩ := hmk
      · cases hmr
      · exact .kept hr
    · exact .counting
    · cases ht with
      | left | isOver => cases hf
      | completed _ hr ho ha =>
        rw [mem_singleton.mp hf]
        exact .run (.completed _ hr ho rfl ⟨_, rfl, hcl.open.present⟩ ha hsh)
    · exact ht.all (fun _ _ => .told (by simp)) w hws
  | turned hcl hl hr htr hw =>
    rw [hw, mem_cons, mem_append, mem_map] at hm
    rcases hm with rfl | ⟨_, -, rfl⟩ | hws
    · refine .claimed hcl ?_ ?_
      · rintro shardId rfl shard hg
        obtain ⟨found, hsg⟩ := Option.ne_none_iff_exists'.mp htr.shard
        obtain ⟨old, hold, rfl, -⟩ := sight_eq_some.mp hsg
        cases hg.symm.trans hold
        exact hl
      · rintro key rfl
        cases htr
    · exact .kept hr
    · exact htr.all (fun _ _ => .told (by simp)) (fun _ _ _ => .told (by simp)) w hws
  | rechecked hl hr hst hrc hw =>
    obtain rfl := mem_singleton.mp (hw ▸ hm)
    exact .kept hr
  | reopened hl hr hro hlt hmk had hsm hw =>
    rw [hw, mem_append, mem_append, mem_append, mem_map] at hm
    rcases hm with hc | ⟨_, -, rfl⟩ | hmr | hadd
    · cases hro with
      | planned hcl | reshared hcl =>
        rw [mem_singleton.mp hc]
        exact .claimed hcl (by simp) (by simp)
      | rechecked => cases hc
    · exact .kept hr
    · obtain ⟨_, shard, rfl, -, hg, hd⟩ := hmk _ hmr
      exact .shard (.relabelled shard hg rfl
        (by simp [OnboardingShard.sight, hd, ShardState.isOpen]))
    · obtain ⟨_, _, rfl, rfl, hp, -, hun⟩ | ⟨_, _, _, rfl⟩ := had _ hadd
      · exact .shard (.added hun hp hl)
      · exact .told (by simp)
  | started hcl hl hg hp hw =>
    rw [hw, mem_cons, mem_singleton] at hm
    rcases hm with rfl | rfl
    · exact .claimed hcl (by simp) (by simp)
    · exact .shard (.relabelled _ hg rfl (by simp [OnboardingShard.sight, hp, ShardState.isOpen]))
  | @ended shardId shard shard' data ws hl hg ho hk hed hunf hem hw =>
    have hs : ∀ id written, .shard id written ∈ mine.writes → id = shardId ∧ written = shard' := by
      intro id written hm
      rw [hw, mem_cons, OnboardingWrite.shard.injEq] at hm
      refine hm.resolve_right fun hws => ?_
      exact hem.all (p := (· ≠ .shard id written)) (by simp) _ hws rfl
    have hwr : .shard shardId shard' ∈ mine.writes := by simp [hw]
    have hn : ¬ Present s (.shardCompleted shardId) := by
      rw [hgd.completion]
      rintro ⟨found, hf, hcls⟩
      cases hg.symm.trans hf
      rw [ho] at hcls
      cases hcls
    obtain ⟨made, rfl⟩ := hem.eq_of_new hn
    rw [hw, mem_cons, mem_singleton] at hm
    rcases hm with rfl | rfl
    · refine .shard (.ended _ hg hk ho hed hunf ?_)
      rw [hw]
      exact ⟨_, made, mem_cons_of_mem _ (.head _)⟩
    · refine .told ?_
      rintro _ ⟨⟩
      refine ⟨shard', hwr, fun written hm => ?_⟩
      rw [(hs _ _ hm).2]
      exact hed

theorem Effect.newSource (he : Effect c s mine) (hgd : Consistent c s)
    (hn : s.sources.get key = none) (ha : (after s mine.writes).sources.get key = some row) :
    ∃ run, s.runs.get key.onboardingRunId = some run ∧ run.status = .pending ∧
      Takes s mine.writes (.runCreated key.onboardingRunId) := by
  rcases get_sources_after_cases s mine.writes key with hs | ⟨row', hm, -⟩
  · rw [hs, hn] at ha
    cases ha
  cases he.wrote hgd hm with
  | opened hr hp ht => exact ⟨_, hr, hp, ht⟩
  | kept hg =>
    rw [hn] at hg
    cases hg

structure Progresses (s : OnboardingDb) (mine : OnboardingTrail) (id : Nat)
    (run run' : OnboardingRun) : Prop where
  opened : run.status.isOpen
  asked : run.status = .pending → Takes s mine.writes (.runCreated id)
  started : run'.status ≠ .pending

theorem Moves.progresses (hm : Moves c s mine id run')
    (hgd : Consistent c s) (hg : s.runs.get id = some run) : Progresses s mine id run run' := by
  cases hm with
  | created hu =>
    rw [hu.1] at hg
    cases hg
  | opened old hold hp hrn ht =>
    cases hg.symm.trans hold
    exact ⟨by simp [hp, RunStatus.isOpen], fun _ => ht, by simp [hrn]⟩
  | closed old hold ho hfl hcs =>
    cases hg.symm.trans hold
    refine ⟨ho, fun hp => ?_, by simp [hfl]⟩
    rcases hcs with ⟨-, ht, -⟩ | ⟨key, row, rfl, hr, -⟩
    · exact ht
    · obtain ⟨found, hf, hs⟩ := hgd.runStarted hr
      cases hg.symm.trans hf
      exact absurd hp hs
  | completed old hold ho hc hrp =>
    cases hg.symm.trans hold
    obtain ⟨key, rfl, hpr⟩ := hrp
    exact ⟨ho, fun hp => absurd hp (hgd.runStarted_of_reported hpr hg), by simp [hc]⟩

section

variable (he : Effect c s mine) (hgd : Consistent c s)

include he hgd

theorem Effect.run {run : OnboardingRun} (hg : s.runs.get id = some run) : ∃ run',
    (after s mine.writes).runs.get id = some run' ∧ (run' = run ∨
    Progresses s mine id run run') := by
  rcases get_runs_after_cases s mine.writes id with hs | ⟨run', hm, hr'⟩
  · exact ⟨run, hs.trans hg, .inl rfl⟩
  · exact ⟨run', hr', .inr ((he.wrote hgd hm).moves.progresses hgd hg)⟩

theorem Effect.shard {shard : OnboardingShard} (hc : Covered s mine) (hg : s.shards.get id =
    some shard) : ∃ shard', (after s mine.writes).shards.get id = some shard' ∧ shard'.key =
    shard.key ∧ (shard'.sight = shard.sight ∨ shard.state.isOpen ∧ shard'.state.isOpen = false ∧
    Open (after s mine.writes) (.shardCompleted id) ∧ (c.unfailing → shard'.state = .failed →
    ∀ source, s.sources.get shard.key = some source → source.reconciledAt = none)) := by
  rcases get_shards_after_cases s mine.writes id with hs | ⟨shard', hm, hs'⟩
  · exact ⟨shard, hs.trans hg, rfl, .inl rfl⟩
  refine ⟨shard', hs', ?_⟩
  cases (he.wrote hgd hm).shifts with
  | relabelled old hold hk hsg =>
    cases hg.symm.trans hold
    exact ⟨hk, .inl hsg⟩
  | ended old hold hk ho hed hu hcp =>
    cases hg.symm.trans hold
    exact ⟨hk, .inr ⟨ho, hed, (hc.open_after hgd.unique).mpr (.inr hcp), hu⟩⟩
  | added hun =>
    rw [hun.2.1] at hg
    cases hg

theorem Effect.newShard {shard : OnboardingShard} (hn : s.shards.get id = none)
    (hg : (after s mine.writes).shards.get id = some shard) : shard.state = .pending ∧
    .source shard.key ∈ mine.locks ∧ Unused s id := by
  rcases get_shards_after_cases s mine.writes id with hs | ⟨shard', hm, hs'⟩
  · rw [hs, hn] at hg
    cases hg
  cases hg.symm.trans hs'
  cases (he.wrote hgd hm).shifts with
  | relabelled old ho => exact absurd ho (by simp [hn])
  | ended old ho => exact absurd ho (by simp [hn])
  | added hu hp hl => exact ⟨hp, hl, hu⟩

end

theorem Claims.not_takes (hcl : Claims s theirs id signal data) (hgd : Consistent c s)
    (hc : Covered s mine) (hd : theirs.Disjoint mine) : ¬ Takes s mine.writes signal := by
  rintro ⟨other, consumedBy, row, hm, hg, hk⟩
  obtain rfl := hgd.unique id other _ row hcl.1 hg hk.symm
  exact hd.1 _ hcl.2 (hc.consume id consumedBy hm).1

theorem arrivalOf_adding {added : List OnboardingWrite}
    (ha : ∀ w ∈ added, Adding s mine key w) : added.filterMap arrivalOf = [] := by
  rw [filterMap_eq_nil_iff]
  intro w hm
  obtain ⟨_, _, rfl, -⟩ | ⟨_, _, _, rfl⟩ := ha w hm <;> rfl

theorem arrivalOf_marking {marks : List OnboardingWrite} (hmk : ∀ w ∈ marks, Marking s mine w) :
    marks.filterMap arrivalOf = [] := by
  rw [filterMap_eq_nil_iff]
  intro w hm
  obtain ⟨_, _, rfl, -⟩ := hmk w hm
  rfl

theorem arrivalOf_rows (rows : List SourceRun) :
    (rows.map (OnboardingWrite.source key)).filterMap arrivalOf = [] := by
  rw [filterMap_eq_nil_iff]
  intro w hm
  obtain ⟨_, -, rfl⟩ := mem_map.mp hm
  rfl

theorem arrivalOf_runs (runs : List OnboardingRun) :
    (runs.map (OnboardingWrite.run id)).filterMap arrivalOf = [] := by
  rw [filterMap_eq_nil_iff]
  intro w hm
  obtain ⟨_, -, rfl⟩ := mem_map.mp hm
  rfl

theorem Emits.arrivals (he : Emits s signal data ws) :
    ws.filterMap arrivalOf = [] ∨ ws.filterMap arrivalOf = (arrival signal).toList := by
  cases he with
  | found => exact .inl rfl
  | inserted id => cases ha : arrival signal <;> simp [ha]

theorem Emits.arrivals_eq_nil (he : Emits s signal data ws) (ha : arrival signal = none) :
    ws.filterMap arrivalOf = [] := by
  rcases he.arrivals with hn | hl
  · exact hn
  · rw [hl, ha, Option.toList_none]

theorem Turn.arrivals (ht : Turn s key row signal rows ws) :
    ws.filterMap arrivalOf = [] ∨ ws.filterMap arrivalOf = [key] := by
  cases ht with
  | emptied _ _ he => exact .inl (he.arrivals_eq_nil rfl)
  | rolledUp _ _ _ _ he => exact .inl (he.arrivals_eq_nil rfl)
  | refused _ _ _ he => exact he.arrivals
  | rolledUpFailed _ _ _ _ _ he => exact he.arrivals
  | cleaned _ _ _ he => exact he.arrivals
  | dispatchFailed _ _ _ he => exact he.arrivals

theorem Effect.arrivalOf (he : Effect c s mine) : mine.writes.filterMap arrivalOf = [] ∨
    ∃ key, mine.writes.filterMap arrivalOf = [key] := by
  cases he with
  | nothing hw => exact .inl (by rw [hw, filterMap_nil])
  | created _ _ hem hw =>
    refine .inl ?_
    rw [hw, filterMap_cons_none rfl, hem.arrivals_eq_nil rfl]
  | consumed _ _ hw => simp [hw]
  | opened _ _ _ _ ho _ hw =>
    refine .inl ?_
    rw [hw, filterMap_cons_none rfl, filterMap_append, arrivalOf_opening ho]
    rfl
  | closed _ _ _ _ _ hw => simp [hw]
  | @tallied _ _ _ _ _ _ ws _ _ ht hw =>
    have hws : ws.filterMap Onboarding.arrivalOf = [] := by
      cases ht with
      | left => exact filterMap_nil
      | isOver _ _ hem => exact hem.arrivals_eq_nil rfl
      | completed _ _ _ _ hem => exact hem.arrivals_eq_nil rfl
    refine .inl ?_
    rw [hw, filterMap_cons_none rfl, filterMap_append, arrivalOf_rows,
      nil_append, filterMap_cons_none rfl, filterMap_append, arrivalOf_runs, hws]
    rfl
  | @turned _ _ _ key _ _ _ _ _ _ _ htr hw =>
    rw [hw, filterMap_cons_none rfl, filterMap_append, arrivalOf_rows, nil_append]
    exact htr.arrivals.imp_right fun hws => ⟨key, hws⟩
  | rechecked _ _ _ _ hw => simp [hw]
  | @reopened key row row' _ claim _ _ _ _ hr _ hm ha _ hw =>
    have hc : claim.filterMap Onboarding.arrivalOf = [] := by
      cases hr <;> rfl
    refine .inl ?_
    rw [hw, filterMap_append, filterMap_append, filterMap_append, hc,
      arrivalOf_rows, arrivalOf_marking hm, arrivalOf_adding ha]
    rfl
  | started _ _ _ _ hw => simp [hw]
  | ended _ _ _ _ _ _ hem hw =>
    refine .inl ?_
    rw [hw, filterMap_cons_none rfl, hem.arrivals_eq_nil rfl]

theorem Effect.arrivals (he : Effect c s mine) (hg : Consistent c s)
    (hc : Covered s mine) : (after s mine.writes).arrivals = s.arrivals ∨
      ∃ key, key ∉ s.arrivals ∧ Inserted mine.writes (.sourceCompleted key) ∧
        (after s mine.writes).arrivals = key :: s.arrivals := by
  rw [arrivals_after]
  rcases he.arrivalOf with hn | ⟨key, ho⟩
  · exact .inl (by simp [hn])
  · obtain ⟨w, hm, ha⟩ := mem_filterMap.mp (ho ▸ mem_singleton_self key)
    have hi : ∃ id data, w = .insert id (.sourceCompleted key) data := by
      cases w with
      | insert id signal data => cases signal <;> simp_all [arrival]
      | _ => cases ha
    obtain ⟨id, data, rfl⟩ := hi
    refine .inr ⟨key, ?_, ⟨data, id, hm⟩, by simp [ho]⟩
    exact (hg.arrived key).not.mpr (hc.insert id _ data hm).2.2.2

end FyralisCore.Onboarding
