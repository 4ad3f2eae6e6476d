import FyralisCore.Onboarding.TenantCompletion

/-! The roll-up of a source. The handler of the last completion hands the source on
once for each pass: to the reconciler, or to TenantOnboarding when a shard has failed.
A failure behind a reconciled source is not handed on: TenantOnboarding was told
before that the source succeeded, and that signal is kept for ever. -/
namespace FyralisCore.Onboarding

open Relational Transaction Ingestion ReadCommitted Transition

variable {c : Promises} {s : OnboardingDb} {key : SourceKey} {row : SourceRun}
  {config : OnboardingConfig}

/-- A hand-off of SourceOnboarding for the pass of the row. What the reconciler reports
of a source comes after it. -/
def HandOff (key : SourceKey) (row : SourceRun) (signal : OnboardingRow) : Prop :=
  signal.key = .shardsCompleted key row.reconciliationPassCount ∨
    signal.key = .sourceCompleted key ∧ signal.signalData.emittedBy = .sourceOnboarding ∧
      signal.signalData.failureReason ≠ none

def OneHandOff (s : OnboardingDb) (key : SourceKey) (row : SourceRun) : Prop :=
  ∃! id, ∃ signal, s.signals.get id = some signal ∧ HandOff key row signal

def Drained (s : OnboardingDb) (key : SourceKey) : Prop :=
  ¬ Unfinished s key ∧ ∀ id, sight s key id ≠ none → ¬ Open s (.shardCompleted id)

/-- A planned source with nothing under way is rolled up and handed on. -/
def NoLostRollup (s : OnboardingDb) : Prop :=
  ∀ key row, s.sources.get key = some row → Sharded s key ∨ row.status ≠ .pending →
    Drained s key → (row.status = .completed ∨ row.status = .failed) ∧ OneHandOff s key row

def unfailing : Promises := { steady := False, counted := False, unfailing := True }

theorem Drained.not_live (hd : Drained s key) : ¬ Live s key := by
  rintro ⟨id, shard, hs, ho | ho⟩
  · exact hd.1 ⟨id, shard, hs, ho⟩
  · exact hd.2 id (by simp [hs]) ho

theorem oneHandOff_of_handed (hu : UniqueSignals s)
    (hh : Present s (.shardsCompleted key row.reconciliationPassCount))
    (hr : ∀ data, Says s (.sourceCompleted key) data →
      data.emittedBy = .sourceOnboarding → data.failureReason = none) : OneHandOff s key row := by
  obtain ⟨id, signal, hg, hk⟩ := hh
  refine ⟨id, ⟨signal, hg, .inl hk⟩, ?_⟩
  rintro other ⟨found, hf, hs | ⟨hc, hsr, hfl⟩⟩
  · exact hu other id found signal hf hg (hs.trans hk.symm)
  · exact absurd (hr _ ⟨other, found, hf, hc, rfl⟩ hsr) hfl

theorem oneHandOff_of_refused (hu : UniqueSignals s) (hr : Refused s key row) :
    OneHandOff s key row := by
  obtain ⟨reason, id, signal, hg, hk, hd⟩ := hr.reported
  refine ⟨id, ⟨signal, hg, .inr ⟨hk, by simp [hd], by simp [hd]⟩⟩, ?_⟩
  rintro other ⟨found, hf, hh | ⟨hc, -⟩⟩
  · exact absurd ⟨other, found, hf, hh⟩ hr.unhanded
  · exact hu other id found signal hf hg (hc.trans hk.symm)

theorem reported_elsewhere (hu : UniqueSignals s)
    (hr : Reported s key .reconciler failureReason) (data : OnboardingData)
    (ht : Says s (.sourceCompleted key) data) (hs : data.emittedBy = .sourceOnboarding) :
    data.failureReason = none := by
  obtain rfl := ht.unique hu hr
  cases hs

theorem Settled.rolledUp (hse : Settled c s key row) (hu : c.unfailing)
    (huq : UniqueSignals s) (hpl : Sharded s key ∨ row.status ≠ .pending)
    (hd : Drained s key) :
    (row.status = .completed ∨ row.status = .failed) ∧ OneHandOff s key row := by
  have hp := hse.phase
  cases hs : row.status with
  | pending =>
    simp only [Phase, hs] at hp
    exact absurd hs (hpl.resolve_left hp.unsharded)
  | inProgress =>
    cases hr : row.reconciledAt with
    | none =>
      simp only [Phase, hs, hr] at hp
      exact absurd hp.live hd.not_live
    | some now =>
      simp only [Phase, hs, hr] at hp
      exact absurd hp.live hd.not_live
  | completed =>
    refine ⟨.inl rfl, ?_⟩
    cases hr : row.reconciledAt with
    | none =>
      simp only [Phase, hs, hr] at hp
      exact oneHandOff_of_handed huq hp.handed fun data ht =>
        absurd ht.present hp.unreported
    | some now =>
      simp only [Phase, hs, hr] at hp
      have hh := (hp.handed hu).resolve_left hd.not_live
      exact oneHandOff_of_handed huq hh (reported_elsewhere huq hp.reported)
  | failed =>
    refine ⟨.inr rfl, ?_⟩
    cases hr : row.reconciledAt with
    | none =>
      simp only [Phase, hs, hr] at hp
      rcases hp.reason with hrf | hrj
      · exact oneHandOff_of_refused huq hrf
      · obtain ⟨reason, hrp⟩ := hrj.reported
        exact oneHandOff_of_handed huq hrj.handed (reported_elsewhere huq hrp)
    | some now =>
      simp only [Phase, hs, hr] at hp
      exact absurd hu hp.failing

theorem no_lost_rollup (hreach : unfailing.Reaches config) : NoLostRollup config.committed := by
  have hgood : Consistent unfailing config.committed := (coherent_of_reaches hreach).good
  intro key row hget hplanned hdrained
  exact (hgood.settled key row hget).rolledUp trivial hgood.unique hplanned hdrained

theorem no_lost_rollup_one_source : ∃ config : OnboardingConfig, unfailing.Reaches config ∧
    (config.committed.sources.get ⟨0, "slack"⟩).any (fun row =>
      decide (row.status = .completed)) ∧ NoLostRollup config.committed := by
  have hrun : (runChecked (Config.step onboardingSchema) keepsPromises onboardingStart
      (serially oneSource)).any (fun config =>
        (config.committed.sources.get ⟨0, "slack"⟩).any fun row =>
          decide (row.status = .completed)) := by
    decide +kernel
  obtain ⟨config, hconfig, hcheck⟩ := (Option.any_eq_true _ _).mp hrun
  exact ⟨config, reaches_of_keepsPromises hconfig, hcheck,
    no_lost_rollup (reaches_of_keepsPromises hconfig)⟩

/-! ### A failure behind a reconciled source -/

def isDrained (s : OnboardingDb) (key : SourceKey) : Bool :=
  ((shardsOf s key).all fun shard => !shard.2.sight.isOpen) && s.signals.rows.all fun entry =>
      match entry.2.key with
      | .shardCompleted _ => entry.2.consumedBy.isSome
      | _ => true

theorem drained_of_isDrained (hd : isDrained s key) : Drained s key := by
  simp only [isDrained, shardsOf, List.all_eq_true, List.mem_filter, Bool.and_eq_true,
    decide_eq_true_eq, and_imp, Prod.forall, Table.mem_rows_iff, Bool.not_eq_true'] at hd
  obtain ⟨hsh, hs⟩ := hd
  constructor
  · rintro ⟨id, shard, hsg, ho⟩
    obtain ⟨found, hf, hk, rfl⟩ := sight_eq_some.mp hsg
    simp [hsh id found hf hk] at ho
  · rintro id - ⟨signalId, signal, hg, hk, ho⟩
    have hc := hs signalId signal hg
    simp [hk, ho] at hc

def isUnhanded (s : OnboardingDb) (key : SourceKey) : Bool :=
  s.signals.rows.all fun entry =>
    match entry.2.key with
    | .shardsCompleted other pass => !decide (other = key ∧ pass = 1)
    | .sourceCompleted _ => entry.2.signalData.failureReason.isNone
    | _ => true

theorem not_oneHandOff_of_isUnhanded (hu : isUnhanded s key)
    (hp : row.reconciliationPassCount = 1) : ¬ OneHandOff s key row := by
  simp only [isUnhanded, List.all_eq_true, Prod.forall, Table.mem_rows_iff] at hu
  rintro ⟨id, ⟨signal, hg, hh⟩, -⟩
  have hn := hu id signal hg
  rcases hh with hk | ⟨hk, -, hf⟩
  · simp [hk, hp] at hn
  · simp only [hk] at hn
    exact hf (Option.isNone_iff_eq_none.mp hn)

/-- Slack is reconciled, PeriodicReconciler adds a shard, and the shard fails. -/
theorem rollup_lost_behind_success :
    ¬ ∀ config : OnboardingConfig, anyRun.Reaches config → NoLostRollup config.committed := by
  have hrun : (runChecked (Config.step onboardingSchema) endsFound onboardingStart
      (serially [(.oauthPoller 7, 4), (.tenantOnboarding "tenant" [1] ["slack"], 6),
        (.sourceOnboarding "source" [2] (some (.shards [⟨"channel", "C1"⟩])) 0, 7),
        (.shardFetch "fetch" [4], 3), (.terminate 3 .done 1, 4),
        (.sourceOnboarding "source" [5] none 2, 10), (.reconciler "reconciler" [6] .timeout 5, 5),
        (.periodicReconciler ⟨0, "slack"⟩ 6 (gapBehind 3) 6, 8), (.shardFetch "fetch" [9], 3),
        (.terminate 8 (.failed "gone") 7, 4),
        (.sourceOnboarding "source" [10] none 8, 11)])).any (fun config =>
        isDrained config.committed ⟨0, "slack"⟩ && isUnhanded config.committed ⟨0, "slack"⟩ &&
          (config.committed.sources.get ⟨0, "slack"⟩).any fun row =>
            decide (row.status = .failed ∧ row.reconciliationPassCount = 1)) := by
    decide +kernel
  obtain ⟨config, hconfig, hcheck⟩ := (Option.any_eq_true _ _).mp hrun
  simp only [Bool.and_eq_true] at hcheck
  obtain ⟨⟨hdrained, hunhanded⟩, hrow⟩ := hcheck
  obtain ⟨row, hget, hrow⟩ := (Option.any_eq_true _ _).mp hrow
  obtain ⟨hfailed, hpass⟩ := of_decide_eq_true hrow
  intro hall
  have hrolled := hall config (reaches_of_endsFound hconfig) ⟨0, "slack"⟩ row hget
    (.inr (by simp [hfailed])) (drained_of_isDrained hdrained)
  exact not_oneHandOff_of_isUnhanded hunhanded hpass hrolled.2

end FyralisCore.Onboarding
