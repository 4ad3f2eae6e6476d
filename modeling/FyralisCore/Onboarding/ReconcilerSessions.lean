import FyralisCore.Onboarding.SourceSessions

/-! The sessions of the two reconcilers end as they should. -/
namespace FyralisCore.Onboarding

open Relational Transaction Ingestion ReadCommitted List Discipline

variable {c : Promises} {s t : OnboardingDb} {trail later : OnboardingTrail} {key : SourceKey}
  {row row' : SourceRun} {rows : List SourceRun} {id pass : Nat} {signal : OnboardingSignal}
  {data : OnboardingData} {consumedBy : String} {claim marks : List OnboardingWrite}

theorem Reopens.shardless (hr : Reopens c s trail key row row' claim) (id : Nat)
    (shard : OnboardingShard) : .shard id shard ∉ claim := by
  cases hr <;> simp

theorem wp_markOriginalResharded
    (hr : Reopening c s trail key row row' rows claim marks []) (shardId : Nat) :
    wp c (fun _ t later => ∃ marks, Reopening c t later key row row' rows claim marks [])
      (markOriginalResharded shardId) s trail := by
  refine wp_bind.mpr (wp_updateRow (fun t hrl hgd shard hg hd => ?_)
    fun t hrl _ _ => ⟨marks, hr.keeps hrl⟩)
  have hl := hr.keeps hrl
  have hst : shard.state = .done := of_decide_eq_true hd
  have ho : t.shards.get shardId = some shard := by
    rcases get_shards_after_cases t trail.writes shardId with hs | ⟨found, hm, hf⟩
    · exact hs.symm.trans hg
    · cases hg.symm.trans hf
      rw [hl.writes] at hm
      rcases mem_append.mp hm with hm | hm
      · exact absurd hm (hl.reopens.shardless _ _)
      · simp only [append_nil, mem_append, mem_map, reduceCtorEq, and_false,
          exists_false, false_or] at hm
        obtain ⟨_, _, he, -⟩ := hl.marking _ hm
        cases he
        cases hst
  refine ⟨marks ++ [.shard shardId { shard with state := .reconciliationResharded }], ?_⟩
  have hc : Covered t (trail.extend (some (.shard shardId))
      [.shard shardId { shard with state := .reconciliationResharded }]) :=
    hl.covered.add ⟨.head _, .inl ⟨shard, ho, rfl⟩⟩ trivial
  exact
    { covered := hc
      lock := mem_cons_of_mem _ hl.lock
      found := hl.found
      reopens := hl.reopens.mono (subset_append_right _ _)
      last := hl.last
      marking := by
        intro w hm
        rcases mem_append.mp hm with hm | hm
        · exact (hl.marking w hm).mono (subset_append_right _ _)
        · exact ⟨shardId, shard, mem_singleton.mp hm, .head _, ho, hst⟩
      adding := fun w hm => nomatch hm
      writes := by simp [Trail.extend, hl.writes] }

theorem wp_fillGaps (hr : Reopening c s trail key row row' rows claim [] [])
    (tenantId : Nat) (newShards : List ResharedShard) (hs : newShards ≠ []) :
    wp c (fun _ => Final c) (do
      Tx.forEach (newShards.map ResharedShard.parentShardId).dedup markOriginalResharded
      Tx.forEach newShards fun reshared =>
        addShard .reconciler key tenantId reshared.shard (some reshared.parentShardId)) s trail := by
  refine wp_seq (wp_forEach (I := fun t later => ∃ marks,
    Reopening c t later key row row' rows claim marks []) ⟨[], hr⟩ ?_) ?_
  · rintro shardId - t later ⟨marks, hl⟩
    exact wp_markOriginalResharded hl shardId
  · rintro _ t later ⟨marks, hl⟩
    exact wp_addShards .reconciler tenantId ResharedShard.shard
      (fun reshared => some reshared.parentShardId) newShards hs hl

section

variable (hc : Claims s trail id (.shardsCompleted key pass) data)

include hc

theorem Claims.handedOff (hgd : Consistent c s) (hg : s.sources.get key = some row)
    (hu : row.reconciledAt = none) : row.status = .completed := by
  have hp := (hgd.settled key row hg).phase
  cases hs : row.status with
  | completed => rfl
  | pending =>
    simp only [Phase, hs] at hp
    exact absurd hc.open.present (hp.unhanded pass)
  | inProgress =>
    simp only [Phase, hs, hu] at hp
    exact absurd hc.open (hp.heard pass)
  | failed =>
    simp only [Phase, hs, hu] at hp
    exact absurd hc.open (hp.heard pass)

theorem Claims.sourceHanded (hg : s.sources.get key = some row) (hs : row.status = .completed)
    (hu : row.reconciledAt = none) (hr : Relies c trail s t) : t.sources.get key = some row :=
  (hr.keeps (P := fun s => Claims s trail id (.shardsCompleted key pass) data ∧
      s.sources.get key = some row) (fun _ _ h ⟨hc, hg⟩ =>
      ⟨h.claims hc, h.sourceHanded hc hg hs hu⟩) ⟨hc, hg⟩).2

end

theorem Consistent.reported_of_reconciled (hgd : Consistent c s)
    (hg : s.sources.get key = some row) (hr : row.reconciledAt ≠ none) :
    Present s (.sourceCompleted key) := by
  obtain ⟨now, hn⟩ := Option.ne_none_iff_exists'.mp hr
  have hp := (hgd.settled key row hg).phase
  cases hs : row.status with
  | pending =>
    simp only [Phase, hs] at hp
    exact absurd hp.unreconciled hr
  | inProgress | completed | failed =>
    simp only [Phase, hs, hn] at hp
    exact hp.reported.present

theorem Claimed.wp_emit_present
    (hc : Claimed s trail id consumedBy signal data) (hp : Present s other)
    (hi : ∀ t, Relies c trail s t → Idle c t trail signal) :
    wp c (fun _ => Final c) ((emit other said).bind fun _ => .done ()) s trail := by
  have hn : ¬ Inserted trail.writes other := by
    rintro ⟨said, made, hm⟩
    rw [hc.writes] at hm
    simp at hm
  refine wp_bind.mpr (wp_emit_new hc.covered hn
    fun t later ws r hr _ hcv he hw hlk _ => ?_)
  have hl := hc.keeps hr
  have hno : ws = [] := he.eq_of_present hcv
    (by rw [hw]; exact subset_append_right _ _) (hp.keeps hr)
  rw [hno, append_nil] at hw
  refine ⟨hcv, .consumed (hl.claims.mono hlk) ?_ (hw.trans hl.writes)⟩
  exact (hi t hr).mono hlk

theorem wp_handleSourceShardsCompleted
    (hcl : Claimed s trail id consumedBy (.shardsCompleted key pass) data) (now : Nat)
    (check : GapCheck) :
    wp c (fun _ => Final c) (handleSourceShardsCompleted key now check) s trail := by
  refine wp_bind.mpr (wp_read fun t hrl hgd _ => ?_)
  have hl := hcl.keeps hrl
  rw [hl.sources]
  cases hg : t.sources.get key with
  | none =>
    refine hl.consumed fun row hf => ?_
    cases hg.symm.trans hf
  | some row =>
    dsimp only
    split
    · next hrc =>
      have hne : row.reconciledAt ≠ none := Option.isSome_iff_ne_none.mp hrc
      refine hl.wp_emit_present (hgd.reported_of_reconciled hg hne) fun u hr' => ?_
      intro found hf
      obtain ⟨kept, hk, hs⟩ := hr'.keeps
        (P := fun s => ∃ row, s.sources.get key = some row ∧ row.reconciledAt ≠ none)
        (fun _ _ h ⟨_, hg, hne⟩ => h.reconciled hg hne) ⟨row, hg, hne⟩
      cases hf.symm.trans hk
      exact hs
    · next hu =>
      have hn : row.reconciledAt = none := by simpa using hu
      have hst := hl.claims.handedOff hgd hg hn
      have hf : ∀ u, Relies c trail t u → Consistent c u → u.sources.get key = some row :=
        fun u hrl _ => hl.claims.sourceHanded hg hst hn hrl
      have hc : wp c (fun _ => Final c) (handleCleanPath key now) t trail := by
        refine wp_bind.mpr (wp_bind.mpr (hl.wp_updateSource hf
          (by rw [hn]; rfl) fun u later _ _ _ ht => ?_))
        exact ht.wp_emit fun v ws _ he => .cleaned now hst hn he
      have hfl : ∀ reason, wp c (fun _ => Final c) (failReconciliation key reason) t trail := by
        intro reason
        refine wp_bind.mpr (wp_bind.mpr (hl.wp_updateSource hf
          (by rw [hn, hst]; rfl) fun u later _ _ _ ht => ?_))
        exact ht.wp_emit fun v ws _ he => .dispatchFailed reason hst hn he
      cases check with
      | timeout => exact hc
      | notImplemented message => exact hfl message
      | raises failure => exact hfl failure.reason
      | decided decision =>
        dsimp only
        split
        · next hgp =>
          refine wp_bind.mpr (wp_bind.mpr (hl.wp_updateSource hf rfl
            fun u later _ _ _ ht => ?_))
          have hr : Reopening c u later key row
              { row with
                status := .inProgress
                reconciliationPassCount := row.reconciliationPassCount + 1 }
              [{ row with
                status := .inProgress
                reconciliationPassCount := row.reconciliationPassCount + 1 }]
              [.consume id consumedBy] [] [] :=
            { covered := ht.covered
              lock := ht.lock
              found := ht.found
              reopens := .reshared ht.claims hst hn
              last := rfl
              marking := fun w hm => nomatch hm
              adding := fun w hm => nomatch hm
              writes := ht.writes }
          exact wp_fillGaps hr row.tenantId decision.newShards (decision.filled hgp)
        · exact hc

theorem wp_reconciler (scan : List Nat) (check : GapCheck) (now : Nat) :
    wp c (fun _ => Final c) (OnboardingCall.reconciler consumedBy scan check now).program s {} := by
  refine wp_processOneSignal fun t later id signal data hg hc hi => ?_
  cases signal with
  | shardsCompleted key pass => exact wp_handleSourceShardsCompleted hc now check
  | runCreated | sourceCompleted | sourceRequested | shardRequested | shardCompleted |
    tenantCompleted => simp [inboxOf] at hi

theorem wp_stampCheck (hl : .source key ∈ trail.locks) (hg : s.sources.get key = some row)
    (hc : Covered s trail) (hn : trail.writes = [])
    (hsp : ∀ t later, Relies c trail s t → Covered t later → .source key ∈ later.locks →
      t.sources.get key = some row →
      later.writes = [.source key { row with lastReconcileCheckAt := some now }] → Q () t later) :
    wp c Q (stampCheck key now) s trail := by
  have hs : ∀ t, (after t trail.writes).sources = t.sources := fun t => by
    rw [hn]
    rfl
  have hk : ∀ t, Relies c trail s t → t.sources.get key = some row := fun t hr =>
    hr.keeps (P := fun s => s.sources.get key = some row)
      (fun _ _ h hg => (h.sourceLocked hl).trans hg) hg
  refine wp_bind.mpr (wp_updateRow (fun t hr _ found hf _ => ?_)
    fun t hr _ hm => ?_)
  · rw [hs, hk t hr] at hf
    cases hf
    exact hsp t _ hr ((hc.keeps hr).add (.head _) trivial) (.head _)
      (hk t hr) (by rw [Trail.extend, hn]; rfl)
  · rw [hs] at hm
    cases hm row (hk t hr)

theorem wp_periodicReconciler (hs : c.Starts s (.periodicReconciler key cutoff check now)) :
    wp c (fun _ => Final c) (checkOneRun key cutoff now check) s {} := by
  refine wp_bind.mpr (wp_readLocking fun t hrl _ _ => ?_)
  cases hmt : matching OnboardingDb.sources key (isEligible cutoff) t with
  | none =>
    rw [show matching OnboardingDb.sources key (isEligible cutoff)
      (onboardingSchema.view t ({} : OnboardingTrail).writes) = none from hmt]
    exact final_nothing
  | some row =>
    rw [show matching OnboardingDb.sources key (isEligible cutoff)
      (onboardingSchema.view t ({} : OnboardingTrail).writes) = some row from hmt]
    obtain ⟨hg, he⟩ := Option.filter_eq_some_iff.mp hmt
    simp only [isEligible, Bool.and_eq_true, decide_eq_true_eq, Option.isSome_iff_ne_none] at he
    obtain ⟨⟨hst, hrc⟩, -⟩ := he
    have hcv : Covered t (Trail.extend {} (some (.source key)) []) := covered_nil.locking _
    refine wp_bind.mpr (wp_stampCheck (.head _) hg hcv rfl
      fun u later hrl' hc' hl hf hw => ?_)
    have hc : Final c u later :=
      ⟨hc', .rechecked hl hf hst hrc hw⟩
    cases check with
    | decided decision =>
      dsimp only
      split
      · next hgp =>
        have hstd : c.steady → RunComplete u key.onboardingRunId := fun hstd =>
          hrl'.keeps (fun _ _ h => h.runComplete)
            (Relies.keeps hrl (fun _ _ h => h.runComplete) (hs hstd hgp))
        refine wp_bind.mpr (wp_bind.mpr (wp_updateRow
          (fun v hr' _ found hse _ => ?_) fun v hr' _ hms => ?_))
        · have hk : v.sources.get key = some row := Relies.keeps
            (P := fun s => s.sources.get key = some row) hr'
            (fun _ _ h hg => (h.sourceLocked hl).trans hg) hf
          have hsp : (after v later.writes).sources.get key =
              some { row with lastReconcileCheckAt := some now } := by
            rw [hw]
            exact Table.get_put_self _ _ _
          cases hse.symm.trans hsp
          have hr : Reopening c v (later.extend (some (.source key)) [.source key { row with
                lastReconcileCheckAt := some now
                status := .inProgress
                reconciliationPassCount := row.reconciliationPassCount + 1 }]) key row
              { row with
                status := .inProgress
                reconciliationPassCount := row.reconciliationPassCount + 1
                lastReconcileCheckAt := some now }
              [{ row with lastReconcileCheckAt := some now }, { row with
                lastReconcileCheckAt := some now
                status := .inProgress
                reconciliationPassCount := row.reconciliationPassCount + 1 }] [] [] [] :=
            { covered := (hc'.keeps hr').add (.head _) trivial
              lock := mem_cons_self
              found := hk
              reopens := .rechecked hst hrc fun h =>
                Relies.keeps hr' (fun _ _ h => h.runComplete) (hstd h)
              last := rfl
              marking := fun w hm => nomatch hm
              adding := fun w hm => nomatch hm
              writes := by rw [Trail.extend, hw]; rfl }
          exact wp_fillGaps hr row.tenantId decision.newShards (decision.filled hgp)
        · rw [hw] at hms
          cases hms _ (Table.get_put_self _ _ _)
      · exact hc
    | timeout | notImplemented | raises => exact hc

end FyralisCore.Onboarding
