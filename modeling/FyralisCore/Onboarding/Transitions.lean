import FyralisCore.Onboarding.Lifecycle

/-! From phase to phase. A source moves when a signal of its is handled, when
it is re-opened and when one of its shards ends. -/
namespace FyralisCore.Onboarding

open Relational Transaction Ingestion ReadCommitted SourceStatus

variable {c : Promises} {s t : OnboardingDb} {key : SourceKey} {row row' : SourceRun}
  {signal : OnboardingSignal} {data : OnboardingData} {pass : Nat} {reason : String}

/-- The state after a commit that emitted the signal and left the shards alone. -/
structure Emitted (s t : OnboardingDb) (key : SourceKey) (signal : OnboardingSignal)
    (data : OnboardingData) : Prop where
  sights : ∀ id, sight t key id = sight s key id
  emitted : Present t signal
  told : ¬ Present s signal → Says t signal data
  present : ∀ other, Present t other → Present s other ∨ other = signal
  heard : ∀ other, Open t other → Open s other ∨ other = signal ∧ ¬ Present s signal
  keptPresent : ∀ other, Present s other → Present t other
  keptSays : ∀ other said, Says s other said → Says t other said
  run : ∀ run, s.runs.get key.onboardingRunId = some run → run.status ≠ .pending →
    ∃ run', t.runs.get key.onboardingRunId = some run' ∧ run'.status ≠ .pending ∧
      (run.status = .complete → run'.status = .complete)

theorem Settled.of_row (hs : Settled c s key row) (hst : row'.status = row.status)
    (hr : row'.reconciledAt = row.reconciledAt)
    (hps : row'.reconciliationPassCount = row.reconciliationPassCount) : Settled c s key row' where
  run := hs.run
  passes := by simpa only [hps] using hs.passes
  unfailed := by simpa only [hr] using hs.unfailed
  phase := by
    have hp := hs.phase
    unfold Phase at hp ⊢
    rw [hst, hr]
    split <;> simp only [*] at hp
    · exact ⟨hp.unsharded, hp.unreported, hp.unhanded, hps.trans hp.first, hr.trans hp.unreconciled⟩
    · exact ⟨hp.live, hp.unreported, hp.heard, hps ▸ hp.unhanded⟩
    · exact ⟨hp.live, hp.reported, hps ▸ hp.unhanded, hp.steady⟩
    · exact ⟨hp.finished, hp.unfailed, hp.unreported, hps ▸ hp.handed, hps ▸ hp.current⟩
    · exact ⟨hp.reported, hps ▸ hp.handed, hp.steady⟩
    · refine ⟨hp.finished, hp.heard, hp.reason.imp (fun h => ?_) fun h => ?_⟩
      · exact ⟨h.reported, hps ▸ h.unhanded, h.failed⟩
      · exact ⟨h.reported, hps ▸ h.handed, h.unfailed⟩
    · exact hp

namespace Emitted

theorem runComplete (h : Emitted s t key signal data)
    (hc : RunComplete s key.onboardingRunId) : RunComplete t key.onboardingRunId :=
  runComplete_of_kept h.run hc

theorem started (h : Emitted s t key signal data) (hs : Settled c s key row) :
    ∃ run, t.runs.get key.onboardingRunId = some run ∧ run.status ≠ .pending := by
  obtain ⟨run, hg, hst⟩ := hs.run
  obtain ⟨run', hg', hs', -⟩ := h.run run hg hst
  exact ⟨run', hg', hs'⟩

/-! ### SourceOnboarding and the reconciler report the source -/

section

variable (h : Emitted s t key (.sourceCompleted key) data)

include h

theorem handed : Present t (.shardsCompleted key pass) ↔ Present s (.shardsCompleted key pass) :=
  ⟨fun hp => (h.present _ hp).resolve_right (by simp), h.keptPresent _⟩

theorem unheard (ho : Open t (.shardsCompleted key pass)) : Open s (.shardsCompleted key pass) :=
  (h.heard _ ho).resolve_right (by simp)

theorem settled (hs : Settled c s key row)
    (hps : row'.reconciliationPassCount = row.reconciliationPassCount)
    (hu : c.unfailing → row'.reconciledAt ≠ none → ¬ AnyFailed s key)
    (hp : Phase c t key row') : Settled c t key row' where
  run := h.started hs
  passes := fun pass hpr => hps ▸ hs.passes pass (h.handed.mp hpr)
  unfailed := fun hc hr => (anyFailed_congr h.sights).not.mpr (hu hc hr)
  phase := hp

end

theorem refused (h : Emitted s t key (.sourceCompleted key)
      { emittedBy := .sourceOnboarding, failureReason := some reason })
    (hse : Settled c s key row) (hst : row.status = .pending) :
    Settled c t key { row with status := .failed, failureReason := some reason } := by
  have hp := hse.phase
  simp only [Phase, hst] at hp
  have hu := (sharded_congr h.sights).not.mpr hp.unsharded
  refine h.settled hse rfl (fun _ hs => absurd hp.unreconciled hs) ?_
  simp only [Phase, hp.unreconciled]
  refine ⟨fun hun => hu ?_, fun pass ho => ?_, .inl ⟨?_, ?_, .inl hu⟩⟩
  · obtain ⟨id, shard, hsg, -⟩ := hun
    exact ⟨id, shard, hsg⟩
  · exact hp.unhanded pass (h.unheard ho).present
  · exact ⟨reason, h.told hp.unreported⟩
  · exact h.handed.not.mpr (hp.unhanded _)

theorem rolledUpFailed (h : Emitted s t key (.sourceCompleted key)
      { emittedBy := .sourceOnboarding, failureReason := some reason })
    (hse : Settled c s key row) (hst : row.status.isOpen)
    (hfn : ¬ Unfinished s key) (hf : AnyFailed s key) :
    Settled c t key { row with status := .failed, failureReason := some reason } := by
  have hp := hse.phase
  have hu : c.unfailing → row.reconciledAt = none := fun hc => by
    by_contra hs
    exact hse.unfailed hc hs hf
  refine h.settled hse rfl (fun hc hs => absurd (hu hc) hs) ?_
  unfold Phase at hp ⊢
  split at hp <;> simp only [*, isOpen, Bool.false_eq_true] at hst ⊢
  · exact absurd hf.sharded hp.unsharded
  · refine ⟨(unfinished_congr h.sights).not.mpr hfn,
      fun pass ho => hp.heard pass (h.unheard ho), .inl ⟨?_, ?_, ?_⟩⟩
    · exact ⟨reason, h.told hp.unreported⟩
    · exact h.handed.not.mpr hp.unhanded
    · exact .inr ((anyFailed_congr h.sights).mpr hf)
  · next hrc =>
    refine ⟨fun hc => ?_, h.keptSays _ _ hp.reported, fun hc => h.runComplete (hp.steady hc)⟩
    cases hrc.symm.trans (hu hc)

theorem rolledUpFailed_closed (h : Emitted s t key (.sourceCompleted key)
      { emittedBy := .sourceOnboarding, failureReason := some reason })
    (hse : Settled c s key row) (hst : row.status.isOpen = false)
    (hf : AnyFailed s key) : Settled c t key row := by
  have hp := hse.phase
  have hun : c.unfailing → row.reconciledAt = none := fun hc => by
    by_contra hs
    exact hse.unfailed hc hs hf
  refine h.settled hse rfl (fun hc hs => absurd (hun hc) hs) ?_
  unfold Phase at hp ⊢
  split <;> simp only [*, isOpen, reduceCtorEq] at hp hst
  · exact absurd hf hp.unfailed
  · next hrc =>
    refine ⟨h.keptSays _ _ hp.reported, fun hc => ?_,
      fun hc => (hp.steady hc).imp (unfinished_congr h.sights).not.mpr h.runComplete⟩
    cases hrc.symm.trans (hun hc)
  · refine ⟨(unfinished_congr h.sights).not.mpr hp.finished,
      fun pass ho => hp.heard pass (h.unheard ho), ?_⟩
    rcases hp.reason with ⟨⟨earlier, hrp⟩, hu, -⟩ | hrj
    · exact .inl ⟨⟨earlier, h.keptSays _ _ hrp⟩, h.handed.not.mpr hu,
        .inr ((anyFailed_congr h.sights).mpr hf)⟩
    · exact absurd hf hrj.unfailed
  · exact ⟨hp.failing, h.keptSays _ _ hp.reported, fun hc => h.runComplete (hp.steady hc)⟩

theorem cleaned (h : Emitted s t key (.sourceCompleted key) { emittedBy := .reconciler })
    (hs : Settled c s key row) (hst : row.status = .completed) (hu : row.reconciledAt = none) :
    Settled c t key { row with reconciledAt := some now } := by
  have hp := hs.phase
  simp only [Phase, hst, hu] at hp
  refine h.settled hs rfl (fun _ _ => hp.unfailed) ?_
  simp only [Phase, hst]
  exact ⟨h.told hp.unreported, fun _ => .inr (h.handed.mpr hp.handed),
    fun _ => .inl ((unfinished_congr h.sights).not.mpr hp.finished)⟩

theorem dispatchFailed (h : Emitted s t key (.sourceCompleted key)
      { emittedBy := .reconciler, failureReason := some reason })
    (hse : Settled c s key row) (hst : row.status = .completed)
    (hu : row.reconciledAt = none) (hb : Open s (.shardsCompleted key pass))
    (ht : ¬ Open t (.shardsCompleted key pass)) :
    Settled c t key { row with status := .failed, failureReason := some reason } := by
  have hp := hse.phase
  simp only [Phase, hst, hu] at hp
  refine h.settled hse rfl (fun _ hs => absurd hu hs) ?_
  simp only [Phase, hu]
  refine ⟨(unfinished_congr h.sights).not.mpr hp.finished, fun other ho => ?_,
    .inr ⟨⟨reason, h.told hp.unreported⟩, h.handed.mpr hp.handed,
      (anyFailed_congr h.sights).not.mpr hp.unfailed⟩⟩
  have hc := hp.current other (h.unheard ho)
  rw [hc, ← hp.current pass hb] at ho
  exact ht ho

/-! ### SourceOnboarding hands the source to the reconciler -/

section

variable (h : Emitted s t key (.shardsCompleted key row.reconciliationPassCount) data)

include h

theorem reported : Present t (.sourceCompleted key) ↔ Present s (.sourceCompleted key) :=
  ⟨fun hp => (h.present _ hp).resolve_right (by simp), h.keptPresent _⟩

theorem settled_handed (hse : Settled c s key row)
    (hps : row'.reconciliationPassCount = row.reconciliationPassCount)
    (hr : row'.reconciledAt = row.reconciledAt) (hp : Phase c t key row') :
    Settled c t key row' where
  run := h.started hse
  passes := by
    intro pass hpr
    rw [hps]
    rcases h.present _ hpr with hb | he
    · exact hse.passes pass hb
    · cases he
      exact Nat.le_refl _
  unfailed := by
    rw [hr]
    exact fun hc hs => (anyFailed_congr h.sights).not.mpr (hse.unfailed hc hs)
  phase := hp

theorem current (hh : ∀ pass, ¬ Open s (.shardsCompleted key pass)) (pass : Nat)
    (ho : Open t (.shardsCompleted key pass)) : pass = row.reconciliationPassCount := by
  rcases h.heard _ ho with hb | ⟨he, -⟩
  · exact absurd hb (hh pass)
  · cases he
    rfl

theorem emptied (hs : Settled c s key row) (hst : row.status = .pending) :
    Settled c t key { row with status := .completed } := by
  have hp := hs.phase
  simp only [Phase, hst] at hp
  have hu := (sharded_congr h.sights).not.mpr hp.unsharded
  refine h.settled_handed hs rfl rfl ?_
  simp only [Phase, hp.unreconciled]
  refine ⟨fun hun => hu ?_, fun hf => hu hf.sharded, h.reported.not.mpr hp.unreported, h.emitted,
    h.current fun pass ho => hp.unhanded pass ho.present⟩
  obtain ⟨id, shard, hsg, -⟩ := hun
  exact ⟨id, shard, hsg⟩

theorem rolledUp (hse : Settled c s key row) (hst : row.status.isOpen)
    (hs : Sharded s key) (hf : ¬ Unfinished s key) (hu : ¬ AnyFailed s key) :
    Settled c t key { row with status := .completed } := by
  have hp := hse.phase
  refine h.settled_handed hse rfl rfl ?_
  unfold Phase at hp ⊢
  split at hp <;> simp only [*, isOpen, Bool.false_eq_true] at hst ⊢
  · exact absurd hs hp.unsharded
  · exact ⟨(unfinished_congr h.sights).not.mpr hf,
      (anyFailed_congr h.sights).not.mpr hu, h.reported.not.mpr hp.unreported,
      h.emitted, h.current hp.heard⟩
  · exact ⟨h.keptSays _ _ hp.reported, fun _ => .inr h.emitted,
      fun hc => .inr (h.runComplete (hp.steady hc))⟩

theorem rolledUp_closed (hse : Settled c s key row) (hst : row.status.isOpen = false)
    (hs : Sharded s key) (hun : ¬ AnyFailed s key) : Settled c t key row := by
  have hp := hse.phase
  refine h.settled_handed hse rfl rfl ?_
  unfold Phase at hp ⊢
  split <;> simp only [*, isOpen, reduceCtorEq] at hp hst
  · refine ⟨(unfinished_congr h.sights).not.mpr hp.finished,
      (anyFailed_congr h.sights).not.mpr hp.unfailed,
      h.reported.not.mpr hp.unreported, h.emitted, fun pass ho => ?_⟩
    exact hp.current pass ((h.heard _ ho).resolve_right fun hn => hn.2 hp.handed)
  · exact ⟨h.keptSays _ _ hp.reported, fun _ => .inr h.emitted,
      fun hc => (hp.steady hc).imp (unfinished_congr h.sights).not.mpr h.runComplete⟩
  · rcases hp.reason with ⟨-, -, hu | hf⟩ | ⟨⟨earlier, hrp⟩, hh, hun⟩
    · exact absurd hs hu
    · exact absurd hf hun
    · refine ⟨(unfinished_congr h.sights).not.mpr hp.finished, fun pass ho => ?_,
        .inr ⟨⟨earlier, h.keptSays _ _ hrp⟩, h.emitted, (anyFailed_congr h.sights).not.mpr hun⟩⟩
      exact hp.heard pass ((h.heard _ ho).resolve_right fun hn => hn.2 hh)
  · exact ⟨hp.failing, h.keptSays _ _ hp.reported, fun hc => h.runComplete (hp.steady hc)⟩

end

end Emitted

/-! ### Shards are added to the source, or one ends -/

namespace Silent

variable (hsilent : Silent s t key)

include hsilent

theorem settled (hs : Settled c s key row)
    (hps : row.reconciliationPassCount ≤ row'.reconciliationPassCount)
    (hu : c.unfailing → row'.reconciledAt ≠ none → ¬ AnyFailed t key)
    (hp : Phase c t key row') : Settled c t key row' where
  run := hsilent.started hs
  passes := fun pass hpr =>
    Nat.le_trans (hs.passes pass ((hsilent.handed pass).mp hpr)) hps
  unfailed := hu
  phase := hp

theorem planned (hse : Settled c s key row) (hst : row.status = .pending)
    (hl : Live t key) : Settled c t key { row with status := .inProgress } := by
  have hp := hse.phase
  simp only [Phase, hst] at hp
  refine hsilent.settled hse (Nat.le_refl _) (fun _ hs => absurd hp.unreconciled hs) ?_
  simp only [Phase, hp.unreconciled]
  exact ⟨hl, hsilent.present.not.mpr hp.unreported,
    fun pass ho => hp.unhanded pass (hsilent.heard pass ho).present,
    (hsilent.handed _).not.mpr (hp.unhanded _)⟩

theorem unhanded (hs : Settled c s key row) :
    ¬ Present t (.shardsCompleted key (row.reconciliationPassCount + 1)) := by
  intro hp
  have := hs.passes _ ((hsilent.handed _).mp hp)
  omega

section

variable (hse : Settled c s key row)

include hse

theorem reshared (hst : row.status = .completed) (hu : row.reconciledAt = none) (hl : Live t key)
    (hb : Open s (.shardsCompleted key pass)) (ht : ¬ Open t (.shardsCompleted key pass)) :
    Settled c t key { row with
        status := .inProgress
        reconciliationPassCount := row.reconciliationPassCount + 1 } := by
  have hp := hse.phase
  simp only [Phase, hst, hu] at hp
  refine hsilent.settled hse (Nat.le_succ _) (fun _ hs => absurd hu hs) ?_
  simp only [Phase, hu]
  refine ⟨hl, hsilent.present.not.mpr hp.unreported, fun other ho => ?_, hsilent.unhanded hse⟩
  have hc := hp.current other (hsilent.heard other ho)
  rw [hc, ← hp.current pass hb] at ho
  exact ht ho

theorem rechecked (hst : row.status = .completed) (hr : row.reconciledAt ≠ none)
    (hl : Live t key) (hf : AnyFailed t key → AnyFailed s key)
    (hstd : c.steady → RunComplete s key.onboardingRunId) : Settled c t key { row with
        status := .inProgress
        reconciliationPassCount := row.reconciliationPassCount + 1
        lastReconcileCheckAt := checked } := by
  have hp := hse.phase
  obtain ⟨now, hn⟩ := Option.ne_none_iff_exists'.mp hr
  simp only [Phase, hst, hn] at hp
  refine hsilent.settled hse (Nat.le_succ _) (fun hc hs ha => hse.unfailed hc hr (hf ha)) ?_
  simp only [Phase, hn]
  exact ⟨hl, (hsilent.reported _).mpr hp.reported, hsilent.unhanded hse,
    fun hc => hsilent.runComplete (hstd hc)⟩

theorem ended (hu : Unfinished s key) (hl : Live t key) (hun : c.unfailing →
    row.reconciledAt ≠ none → ¬ AnyFailed t key) : Settled c t key row := by
  have hp := hse.phase
  have hs : Sharded s key := by
    obtain ⟨id, shard, hsg, -⟩ := hu
    exact ⟨id, shard, hsg⟩
  refine hsilent.settled hse (Nat.le_refl _) hun ?_
  unfold Phase at hp ⊢
  split <;> simp only [*] at hp
  · exact absurd hs hp.unsharded
  · exact ⟨hl, hsilent.present.not.mpr hp.unreported,
      fun pass ho => hp.heard pass (hsilent.heard pass ho), (hsilent.handed _).not.mpr hp.unhanded⟩
  · exact ⟨hl, (hsilent.reported _).mpr hp.reported,
      (hsilent.handed _).not.mpr hp.unhanded, fun h => hsilent.runComplete (hp.steady h)⟩
  · exact absurd hu hp.finished
  · exact ⟨(hsilent.reported _).mpr hp.reported, fun _ => .inl hl,
      fun h => .inr (hsilent.runComplete ((hp.steady h).resolve_left fun hf =>
        hf hu))⟩
  · exact absurd hu hp.finished
  · exact ⟨hp.failing, (hsilent.reported _).mpr hp.reported,
      fun h => hsilent.runComplete (hp.steady h)⟩

end

end Silent

theorem Quiet.tallied (hq : Quiet s t key) (hse : Settled c s key row)
    (hst : row.status = .inProgress) (hrp : Present s (.sourceCompleted key)) :
    Settled c t key { row with status := .completed } := by
  have hp := hse.phase
  unfold Phase at hp
  refine hq.toSilent.settled hse (Nat.le_refl _)
    (fun hc hs => hq.anyFailed.not.mpr (hse.unfailed hc hs)) ?_
  cases hr : row.reconciledAt with
  | none =>
    simp only [hst, hr] at hp
    exact absurd hrp hp.unreported
  | some now =>
    simp only [hst, hr] at hp
    exact ⟨(hq.reported _).mpr hp.reported, fun _ => .inl (hq.live hp.live),
      fun hc => .inr (hq.runComplete (hp.steady hc))⟩

end FyralisCore.Onboarding
