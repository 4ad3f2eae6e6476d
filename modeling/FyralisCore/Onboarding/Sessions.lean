import FyralisCore.Onboarding.ReconcilerSessions
import FyralisCore.Onboarding.TenantSessions

/-! The sessions of the shard fetcher and of the bridge end as they should, and
with them every session of the services. -/
namespace FyralisCore.Onboarding

open Relational Transaction Ingestion ReadCommitted Discipline

variable {c : Promises} {s t : OnboardingDb} {trail later : OnboardingTrail} {id shardId : Nat}
  {data : OnboardingData} {consumedBy : String} {shard : OnboardingShard}

theorem Consistent.completion_of_closed (hgd : Consistent c s)
    (hg : s.shards.get shardId = some shard) (hc : shard.state.isOpen = false) :
    Present s (.shardCompleted shardId) :=
  (hgd.completion shardId).mpr ⟨shard, hg, hc⟩

theorem wp_handleShardRequested
    (hc : Claimed s trail id consumedBy (.shardRequested shardId) data) :
    wp c (fun _ => Final c) (handleShardRequested shardId) s trail := by
  refine wp_bind.mpr (wp_read fun t hr hgd _ => ?_)
  have hl := hc.keeps hr
  rw [hl.shards]
  cases hg : t.shards.get shardId with
  | none => exact hl.consumed trivial
  | some shard =>
    dsimp only
    split
    · next hs =>
      exact hl.wp_emit_present (hgd.completion_of_closed hg (by rw [hs]; rfl)) fun _ _ => trivial
    · next hs =>
      exact hl.wp_emit_present (hgd.completion_of_closed hg (by rw [hs]; rfl)) fun _ _ => trivial
    · refine wp_bind.mpr (wp_updateRow (fun u hr' _ found hf hp => ?_)
        fun u hr' _ _ => (hl.keeps hr').consumed trivial)
      have hn := hl.keeps hr'
      rw [hn.shards] at hf
      have hs : found.state = .pending := of_decide_eq_true hp
      have hw : (trail.extend (some (.shard shardId))
          [.shard shardId { found with state := .inProgress }]).writes =
            [.consume id consumedBy, .shard shardId { found with state := .inProgress }] := by
        simp [Trail.extend, hn.writes]
      exact ⟨hn.covered.add ⟨.head _, .inl ⟨found, hf, rfl⟩⟩ trivial,
        .started (hn.claims.mono (List.subset_append_right _ _)) (.head _) hf hs hw⟩
    · exact hl.consumed trivial
    · exact hl.consumed trivial

theorem wp_shardFetch (scan : List Nat) :
    wp c (fun _ => Final c) (OnboardingCall.shardFetch consumedBy scan).program s {} := by
  refine wp_processOneSignal fun t later id signal data hg hc hi => ?_
  cases signal with
  | shardRequested shardId => exact wp_handleShardRequested hc
  | runCreated | sourceCompleted | sourceRequested | shardCompleted | shardsCompleted |
    tenantCompleted => simp [inboxOf] at hi

def Unreconciled (s : OnboardingDb) (shardId : Nat) : Prop :=
  ∀ shard, s.shards.get shardId = some shard → shard.state.isOpen → ∀ source,
    s.sources.get shard.key = some source → source.reconciledAt = none

theorem Unreconciled.keeps (hu : Unreconciled s shardId)
    (hg : s.shards.get shardId = some shard) (hr : Relies c trail s t) :
    Unreconciled t shardId := by
  refine (hr.keeps (P := fun s => (∃ shard, s.shards.get shardId = some shard) ∧
    Unreconciled s shardId) ?_ ⟨⟨shard, hg⟩, hu⟩).2
  rintro u mine h ⟨⟨old, hold⟩, hn⟩
  obtain ⟨shard', hs', hk, hc⟩ := h.effect.shard h.good h.covered hold
  refine ⟨⟨shard', hs'⟩, fun found hf ho source hsr => ?_⟩
  cases hs'.symm.trans hf
  have hb : old.state.isOpen := by
    rcases hc with hs | ⟨hb, -⟩
    · exact (congrArg ShardSight.isOpen hs).symm.trans ho
    · exact hb
  rw [hk] at hsr
  exact h.unreconciled hold hb (hn old hold hb) source hsr

theorem wp_reportEnded (hg : s.shards.get shardId = some shard) (ho : shard.state.isOpen)
    (hky : ended.key = shard.key) (he : ended.state.isOpen = false)
    (hr : c.unfailing → ended.state = .failed → Unreconciled s shardId) :
    wp c (fun _ => Final c) (do
      let found ← Tx.read fun seen => seen.shards.get shardId
      match found with
      | none => return ()
      | some shard => emitShardCompleted shardId shard status reason) s
      (Trail.extend {} (some (.shard shardId)) [.shard shardId ended]) := by
  have hs : ∀ t, (after t [.shard shardId ended]).shards.get shardId = some ended :=
    fun t => Table.get_put_self _ _ _
  have hk : ∀ t, Relies c (Trail.extend {} (some (.shard shardId)) [.shard shardId ended]) s t →
      t.shards.get shardId = some shard := fun t hrl =>
    hrl.keeps (P := fun s => s.shards.get shardId = some shard)
      (fun _ _ h hg => (h.shields.shard _ (.head _)).trans hg) hg
  have hc : Covered s (Trail.extend {} (some (.shard shardId)) [.shard shardId ended]) :=
    covered_nil.add ⟨.head _, .inl ⟨shard, hg, hky.symm⟩⟩ trivial
  refine wp_bind.mpr (wp_read fun t hrl _ _ => ?_)
  rw [show (onboardingSchema.view t (Trail.extend {} (some (OnboardingLock.shard shardId))
    [OnboardingWrite.shard shardId ended]).writes).shards.get shardId = some ended from hs t]
  have hn : ¬ Inserted (Trail.extend {} (some (OnboardingLock.shard shardId))
      [OnboardingWrite.shard shardId ended]).writes (.shardCompleted shardId) := by
    rintro ⟨said, made, hm⟩
    simp [Trail.extend] at hm
  refine wp_bind.mpr (wp_emit_new (hc.keeps hrl) hn
    fun u later ws r hr' _ hc' hem hw hlk _ => ⟨hc', ?_⟩)
  have hl := Relies.trans hrl hr'
  refine .ended (hlk (.head _)) (hk u hl) ho hky he (fun hp hst => ?_) hem hw
  exact (hr hp hst).keeps hg hl shard (hk u hl) ho

theorem wp_terminateShard (hs : c.Starts s (.terminate shardId ending now)) :
    wp c (fun _ => Final c) (terminateShard shardId ending now) s {} := by
  obtain ⟨shard, hg, hu⟩ := hs
  have hr : c.unfailing → ending.data.status = .failed → Unreconciled s shardId := by
    intro hpr hfl found hf ho
    cases hg.symm.trans hf
    exact hu hpr hfl ho
  refine wp_bind.mpr (wp_bind.mpr (wp_updateRow
    (fun t hrl hgd found hf ho => ?_) fun t hrl hgd hms => ?_))
  · refine wp_reportEnded hf ho ?_ ?_ fun hpr hst => ?_
    · cases ending <;> rfl
    · cases ending <;> rfl
    · refine (hr hpr ?_).keeps hg hrl
      cases ending with
      | done => cases hst
      | failed reason => rfl
  · obtain ⟨old, hold, -⟩ := shardKey_keeps hg hrl
    have hcl : old.state.isOpen = false := hms old hold
    refine wp_bind.mpr (wp_read fun u hr' _ _ => ?_)
    have hp := (hgd.completion_of_closed hold hcl).keeps hr'
    obtain ⟨last, hl, -⟩ := shardKey_keeps hold hr'
    rw [show (onboardingSchema.view u ({} : OnboardingTrail).writes).shards.get shardId = some last
      from hl]
    refine wp_bind.mpr (wp_emit_new covered_nil (fun ⟨_, _, hm⟩ => nomatch hm)
      fun v later ws r hrl' _ hc he hw _ _ => ⟨hc, .nothing ?_⟩)
    rw [hw, he.eq_of_present hc (by rw [hw]; exact List.subset_append_right _ _) (hp.keeps hrl')]
    rfl

theorem wp_bridge (scan : List Nat) :
    wp c (fun _ => Final c) (OnboardingCall.bridge consumedBy scan).program s {} := by
  change wp c (fun _ => Final c) (processOneSignal ⟨"bridge", "bridge"⟩ consumedBy scan
    fun _ _ => .done ()) s {}
  refine wp_processOneSignal fun t later id signal data hg hc hi => ?_
  cases signal with
  | tenantCompleted run => exact hc.consumed trivial
  | runCreated | sourceCompleted | sourceRequested | shardRequested | shardCompleted |
    shardsCompleted => simp [inboxOf] at hi

theorem onboarding_sound (c : Promises) : (onboardingRules c).discipline.Sound := by
  intro call s _ hs
  cases call with
  | oauthPoller tenantId => exact wp_createOnboardingRun tenantId
  | tenantOnboarding consumedBy scan active => exact wp_tenantOnboarding scan active
  | sourceOnboarding consumedBy scan install now => exact wp_sourceOnboarding scan install now
  | reconciler consumedBy scan check now => exact wp_reconciler scan check now
  | periodicReconciler key cutoff check now => exact wp_periodicReconciler hs
  | shardFetch consumedBy scan => exact wp_shardFetch scan
  | terminate shardId ending now => exact wp_terminateShard hs
  | bridge consumedBy scan => exact wp_bridge scan

end FyralisCore.Onboarding
