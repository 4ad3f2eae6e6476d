import FyralisCore.Onboarding.Sessions

/-! When a run is complete. TenantOnboarding counts the sources by their status
alone, and a source is completed before it is reconciled: a count at that moment
takes it for done. And it counts only when a source reports for the first time: a
source that is re-opened behind its siblings' reports is never counted again. -/
namespace FyralisCore.Onboarding

open Relational Transaction Ingestion ReadCommitted Transition Option

abbrev OnboardingConfig : Type :=
  Config OnboardingDb OnboardingWrite OnboardingLock SignalError

variable {c : Promises} {s t : OnboardingDb} {trail mine : OnboardingTrail} {key : SourceKey}
  {row : SourceRun} {id : Nat} {config : OnboardingConfig}

def onboardingStart : OnboardingConfig := ⟨{}, 0, ∅⟩

abbrev Promises.Reaches (c : Promises) : OnboardingConfig → Prop :=
  Reach (Config.step onboardingSchema) (onboardingRules c).discipline.Admitted onboardingStart

def anyRun : Promises := ⟨False, False, False⟩

theorem consistent_empty : Consistent c {} where
  unique := fun _ _ _ _ hg => nomatch hg
  arrived := by
    intro key
    constructor
    · exact fun hm => nomatch hm
    · rintro ⟨_, _, hg, -⟩
      cases hg
  completion := by
    intro id
    constructor
    · rintro ⟨_, _, hg, -⟩
      cases hg
    · rintro ⟨_, hg, -⟩
      cases hg
  absent := by
    intro key _
    constructor
    · rintro ⟨id, shard, hs⟩
      cases hs
    · rintro ⟨_, _, hg, -⟩
      cases hg
    · rintro pass ⟨_, _, hg, -⟩
      cases hg
  settled := fun _ _ hg => nomatch hg
  failed := fun _ _ hg => nomatch hg
  awaited := fun _ _ _ hg => nomatch hg

theorem coherent_of_reaches (hr : c.Reaches config) :
    (onboardingRules c).discipline.Coherent config :=
  Discipline.coherent_of_reach (onboarding_sound c) (fun _ _ ha => ha)
    consistent_empty (fun _ _ => ⟨rfl, rfl, rfl⟩) hr

/-- Completed and reconciled, with no shard outside done, failed and
reconciliation_resharded. -/
def SourceSettled (s : OnboardingDb) (key : SourceKey) (row : SourceRun) : Prop :=
  row.status = .completed ∧ row.reconciledAt ≠ none ∧ ¬ Unfinished s key

def Completes (trail : OnboardingTrail) (run : Nat) : Prop :=
  ∃ row, .run run row ∈ trail.writes ∧ row.status = .complete

/-- Every source of a run is settled at the moment at which a session commits that
marks the run complete. -/
def CompletesSettled (config : OnboardingConfig) : Prop :=
  ∀ sid session run, config.sessions.get sid = some session → session.rest = .done () →
    Completes session.trail run → ∀ key row, key.onboardingRunId = run →
      (after config.committed session.trail.writes).sources.get key = some row →
      SourceSettled (after config.committed session.trail.writes) key row

/-- PeriodicReconciler re-shares only sources of complete runs, and TenantOnboarding
does not count while the sources of the run are all completed and one of them waits for
its reconciliation. -/
def settledCounts : Promises := { steady := True, counted := True, unfailing := False }

theorem Effect.settled_of_completes {run : Nat} (he : Effect c s mine)
    (hgd : Consistent c s) (hstd : c.steady) (hcn : c.counted)
    (hc : Completes mine run) (hrn : key.onboardingRunId = run)
    (hg : (after s mine.writes).sources.get key = some row) :
    SourceSettled (after s mine.writes) key row := by
  obtain ⟨found, hm, hcp⟩ := hc
  cases (he.wrote hgd hm).moves with
  | created _ hpd =>
    rw [hcp] at hpd
    cases hpd
  | opened _ _ _ hr =>
    rw [hcp] at hr
    cases hr
  | closed _ _ _ hf =>
    rw [hcp] at hf
    cases hf
  | completed old hold hop _ hrp ha hshr =>
    subst hrn
    have hu : ¬ RunComplete s key.onboardingRunId := by
      rintro ⟨before, hb, hst⟩
      cases hold.symm.trans hb
      rw [hst] at hop
      cases hop
    cases hb : s.sources.get key with
    | none =>
      obtain ⟨before, hpd, hst, -⟩ := he.newSource hgd hb hg
      obtain ⟨other, ho, hpr⟩ := hrp
      rw [← ho] at hpd
      exact absurd hst (hgd.runStarted_of_reported hpr hpd)
    | some before =>
      obtain ⟨hst, hrc⟩ := ha hstd hcn key before rfl hb
      obtain ⟨now, hn⟩ := ne_none_iff_exists'.mp hrc
      have hp := (hgd.settled key before hb).phase
      simp only [Phase, hst, hn] at hp
      have hd := (hp.steady hstd).resolve_right hu
      have hsha : ∀ id, (after s mine.writes).shards.get id = s.shards.get id := by
        intro id
        rcases get_shards_after_cases s mine.writes id with hs | ⟨shard, hsh, -⟩
        · exact hs
        · exact absurd hsh (hshr _ _)
      refine ⟨?_, ?_, (unfinished_congr (sight_congr hsha key)).not.mpr hd⟩
      all_goals
        obtain ⟨kept, hk, hcs⟩ := he.source hgd hb
        cases hg.symm.trans hk
        rcases hcs with rfl | had
      · exact hst
      · exact (had.steady hstd hst hrc).resolve_right hu
      · exact hrc
      · exact had.kept hrc

/-- In every run that keeps the promises. -/
theorem completes_settled (hreach : settledCounts.Reaches config) : CompletesSettled config := by
  intro sid session run hsession hdone hcompletes key row hrun hget
  have hcoherent := coherent_of_reaches hreach
  have hfinal : Final settledCounts config.committed session.trail := hcoherent.final hsession hdone
  exact hfinal.2.settled_of_completes hcoherent.good trivial trivial hcompletes hrun hget

abbrev CallLength : Type := OnboardingCall × Nat

def underWay (call : CallLength) : List (Action OnboardingCall) :=
  .begin 0 call.1 :: List.replicate call.2 (.statement 0)

def serially (calls : List CallLength) : List (Action OnboardingCall) :=
  calls.flatMap fun call => underWay call ++ [.commit 0]

def endsFound (config : OnboardingConfig) : Action OnboardingCall → Bool
  | .begin _ (.terminate shardId _ _) => (config.committed.shards.get shardId).isSome
  | _ => true

theorem reaches_of_endsFound
    (hr : runChecked (Config.step onboardingSchema) endsFound onboardingStart actions =
      some config) : anyRun.Reaches config := by
  refine reach_of_runChecked (fun config action hc => ?_) hr
  cases action with
  | begin sid call =>
    cases call with
    | terminate shardId ending now =>
      obtain ⟨shard, hs⟩ := isSome_iff_exists.mp hc
      exact ⟨shard, hs, False.elim⟩
    | periodicReconciler key cutoff check now =>
      cases check with
      | decided decision => exact False.elim
      | timeout | notImplemented | raises => trivial
    | oauthPoller | tenantOnboarding | sourceOnboarding | reconciler | shardFetch | bridge =>
      trivial
  | statement sid => exact fun _ _ => False.elim
  | commit sid | rollback sid => trivial

/-- No periodic check, no shard that fails, and no count before the sources are
reconciled. -/
def keepsPromises (config : OnboardingConfig) : Action OnboardingCall → Bool
  | .begin _ (.periodicReconciler ..) => false
  | .begin _ (.terminate shardId .done _) => (config.committed.shards.get shardId).isSome
  | .begin _ (.terminate _ (.failed _) _) => false
  | .statement sid => (config.sessions.get sid).all fun session =>
      match session.trail.writes.getLast? with
      | some (.counting key) =>
        (sourcesOf (after config.committed session.trail.writes) key.onboardingRunId).all
          fun entry => entry.2.reconciledAt.isSome
      | _ => true
  | _ => true

theorem reaches_of_keepsPromises
    (hr : runChecked (Config.step onboardingSchema) keepsPromises onboardingStart actions =
      some config) : c.Reaches config := by
  refine reach_of_runChecked (fun config action hc => ?_) hr
  cases action with
  | begin sid call =>
    cases call with
    | terminate shardId ending now =>
      cases ending with
      | done =>
        obtain ⟨shard, hsh⟩ := isSome_iff_exists.mp hc
        exact ⟨shard, hsh, fun _ hf => nomatch hf⟩
      | failed reason => cases hc
    | periodicReconciler => cases hc
    | oauthPoller | tenantOnboarding | sourceOnboarding | reconciler | shardFetch | bridge =>
      trivial
  | statement sid =>
    intro session hss _ key hl
    rintro ⟨-, other, row, hr, hg, hn⟩
    simp only [keepsPromises, hss, all_some, hl, sourcesOf, List.all_eq_true,
      List.mem_filter, decide_eq_true_eq] at hc
    have hs := hc (other, row) ⟨(Table.mem_rows_iff _ _ _).mpr hg, hr⟩
    rw [hn] at hs
    cases hs
  | commit sid | rollback sid => trivial

def isDone : OnboardingTx Unit → Bool
  | .done _ => true
  | _ => false

theorem eq_done_of_isDone (hd : isDone body) : body = .done () := by
  cases body with
  | done => rfl
  | raise | statement | mint => cases hd

def completesFirst (session : Session OnboardingDb OnboardingWrite OnboardingLock SignalError) :
    Bool :=
  isDone session.rest && session.trail.writes.any fun write =>
    match write with
    | .run 0 row => decide (row.status = .complete)
    | _ => false

theorem completes_of_completesFirst (hc : completesFirst session) :
    session.rest = .done () ∧ Completes session.trail 0 := by
  obtain ⟨hd, ha⟩ := Bool.and_eq_true_iff.mp hc
  obtain ⟨w, hm, hw⟩ := List.any_eq_true.mp ha
  refine ⟨eq_done_of_isDone hd, ?_⟩
  split at hw
  · exact ⟨_, hm, of_decide_eq_true hw⟩
  · cases hw

def oneSource : List CallLength :=
  [(.oauthPoller 7, 4), (.tenantOnboarding "tenant" [1] ["slack"], 6),
    (.sourceOnboarding "source" [2] (some (.shards [⟨"channel", "C1"⟩])) 0, 7),
    (.shardFetch "fetch" [4], 3), (.terminate 3 .done 1, 4),
    (.sourceOnboarding "source" [5] none 2, 10), (.reconciler "reconciler" [6] .timeout 3, 5)]

theorem completes_settled_one_source : ∃ config : OnboardingConfig,
    settledCounts.Reaches config ∧ (config.sessions.get 0).any completesFirst ∧
      CompletesSettled config := by
  have hrun : (runChecked (Config.step onboardingSchema) keepsPromises onboardingStart
      (serially oneSource ++ underWay (.tenantOnboarding "tenant" [7] [], 9))).any
        (fun config => (config.sessions.get 0).any completesFirst) := by
    decide +kernel
  obtain ⟨config, hconfig, hcheck⟩ := (any_eq_true _ _).mp hrun
  exact ⟨config, reaches_of_keepsPromises hconfig, hcheck,
    completes_settled (reaches_of_keepsPromises hconfig)⟩

/-- Slack is reconciled and reported, github is completed and waits for its
reconciliation. -/
theorem completes_unreconciled :
    ¬ ∀ config : OnboardingConfig, anyRun.Reaches config → CompletesSettled config := by
  have hrun : (runChecked (Config.step onboardingSchema) endsFound onboardingStart
      (serially [(.oauthPoller 7, 4), (.tenantOnboarding "tenant" [1] ["slack", "github"], 9),
        (.sourceOnboarding "source" [2] (some (.shards [])) 0, 6),
        (.sourceOnboarding "source" [3] (some (.shards [])) 0, 6),
        (.reconciler "reconciler" [4] .timeout 1, 5)] ++
          underWay (.tenantOnboarding "tenant" [6] [], 9))).any (fun config =>
        (config.sessions.get 0).any fun session => completesFirst session &&
          ((after config.committed session.trail.writes).sources.get ⟨0, "github"⟩).any
            fun row => row.reconciledAt.isNone) := by
    decide +kernel
  obtain ⟨config, hconfig, hcheck⟩ := (any_eq_true _ _).mp hrun
  obtain ⟨session, hsession, hboth⟩ := (any_eq_true _ _).mp hcheck
  obtain ⟨hcompletes, hrow⟩ := Bool.and_eq_true_iff.mp hboth
  obtain ⟨row, hget, hnone⟩ := (any_eq_true _ _).mp hrow
  obtain ⟨hdone, hcompletes⟩ := completes_of_completesFirst hcompletes
  intro hall
  obtain ⟨-, hreconciled, -⟩ := hall config (reaches_of_endsFound hconfig) 0 session 0 hsession
    hdone hcompletes ⟨0, "github"⟩ row rfl hget
  exact hreconciled (isNone_iff_eq_none.mp hnone)

def Started (s : OnboardingDb) (run : Nat) : Prop :=
  ∃ key row, key.onboardingRunId = run ∧ s.sources.get key = some row

def Quiescent (config : OnboardingConfig) : Prop :=
  (∀ sid, config.sessions.get sid = none) ∧
    ∀ id signal, config.committed.signals.get id = some signal → signal.consumedBy ≠ none

/-- A run whose sources are all settled is complete when everything is quiet. -/
def NoLostCompletion (config : OnboardingConfig) : Prop :=
  Quiescent config → ∀ run row, config.committed.runs.get run = some row →
    Started config.committed run →
    (∀ key source, key.onboardingRunId = run → config.committed.sources.get key = some source →
      SourceSettled config.committed key source) → row.status = .complete

def steadyChecks : Promises := { steady := True, counted := False, unfailing := False }

theorem no_lost_completion (hreach : steadyChecks.Reaches config) : NoLostCompletion config := by
  rintro ⟨-, hconsumed⟩ run row hget hstarted hsettled
  have hgood : Consistent steadyChecks config.committed := (coherent_of_reaches hreach).good
  have hcompleted : ¬ SomeSource config.committed run fun _ source => source.status = .failed := by
    rintro ⟨key, source, hkey, hsource, hfailed⟩
    have hstatus := (hsettled key source hkey hsource).1
    rw [hfailed] at hstatus
    cases hstatus
  cases hstatus : row.status with
  | complete => rfl
  | pending =>
    obtain ⟨key, source, rfl, hsource⟩ := hstarted
    obtain ⟨found, hfound, hne⟩ := hgood.runStarted hsource
    cases hget.symm.trans hfound
    exact absurd hstatus hne
  | failed =>
    obtain ⟨key, source, hkey, hsource⟩ := hstarted
    exact absurd (hgood.failed run row hget hstatus ⟨key, source, hkey, hsource, trivial⟩)
      hcompleted
  | running =>
    rcases hgood.awaited trivial run row hget hstatus with
      ⟨key, source, hkey, hsource, hfailed | hunheard⟩ | ⟨key, -, id, signal, hsignal, -, hopen⟩
    · exact absurd ⟨key, source, hkey, hsource, hfailed⟩ hcompleted
    · obtain ⟨-, hreconciled, -⟩ := hsettled key source hkey hsource
      exact absurd ((hgood.arrived key).mpr (hgood.reported_of_reconciled hsource hreconciled))
        hunheard
    · exact absurd hopen (hconsumed id signal hsignal)

def isQuiescent (config : OnboardingConfig) : Bool :=
  config.sessions.rows.isEmpty &&
    config.committed.signals.rows.all fun entry => entry.2.consumedBy.isSome

theorem quiescent_of_isQuiescent (hq : isQuiescent config) : Quiescent config := by
  simp only [isQuiescent, Bool.and_eq_true, List.isEmpty_iff, List.all_eq_true,
    isSome_iff_ne_none] at hq
  obtain ⟨hs, hsg⟩ := hq
  constructor
  · intro sid
    cases hg : config.sessions.get sid with
    | none => rfl
    | some session =>
      have hm := (Table.mem_rows_iff config.sessions sid session).mpr hg
      rw [hs] at hm
      cases hm
  · intro id signal hg
    exact hsg _ ((Table.mem_rows_iff config.committed.signals id signal).mpr hg)

def allSettled (s : OnboardingDb) (run : Nat) : Bool :=
  (sourcesOf s run).all fun entry =>
    decide (entry.2.status = .completed) && entry.2.reconciledAt.isSome &&
      (shardsOf s entry.1).all fun shard => !shard.2.sight.isOpen

theorem settled_of_allSettled (ha : allSettled s run)
    (hr : key.onboardingRunId = run) (hg : s.sources.get key = some row) :
    SourceSettled s key row := by
  simp only [allSettled, sourcesOf, shardsOf, List.all_eq_true, List.mem_filter,
    Bool.and_eq_true, decide_eq_true_eq, isSome_iff_ne_none, and_imp, Prod.forall,
    Table.mem_rows_iff, Bool.not_eq_true'] at ha
  obtain ⟨⟨hst, hrc⟩, hs⟩ := ha key row hg hr
  refine ⟨hst, hrc, ?_⟩
  rintro ⟨id, shard, hsg, ho⟩
  obtain ⟨found, hf, hk, rfl⟩ := sight_eq_some.mp hsg
  have hc := hs id found hf hk
  rw [hc] at ho
  cases ho

theorem no_lost_completion_one_source : ∃ config : OnboardingConfig,
    steadyChecks.Reaches config ∧ isQuiescent config ∧
      (config.committed.runs.get 0).any (fun row => decide (row.status = .complete)) ∧
      NoLostCompletion config := by
  have hrun : (runChecked (Config.step onboardingSchema) keepsPromises onboardingStart
      (serially (oneSource ++
        [(.tenantOnboarding "tenant" [7] [], 9), (.bridge "bridge" [8], 1)]))).any
        (fun config => isQuiescent config &&
          (config.committed.runs.get 0).any fun row => decide (row.status = .complete)) := by
    decide +kernel
  obtain ⟨config, hconfig, hcheck⟩ := (any_eq_true _ _).mp hrun
  obtain ⟨hquiescent, hcomplete⟩ := Bool.and_eq_true_iff.mp hcheck
  exact ⟨config, reaches_of_keepsPromises hconfig, hquiescent, hcomplete,
    no_lost_completion (reaches_of_keepsPromises hconfig)⟩

def gapBehind (shardId : Nat) : GapCheck :=
  .decided ⟨true, [⟨⟨"channel", "C1"⟩, shardId⟩], fun _ => nofun⟩

/-- PeriodicReconciler re-opens slack, which has reported, before github reports: the
count at github's report finds slack open, and slack's second report is dropped. -/
theorem completion_lost_after_reshare :
    ¬ ∀ config : OnboardingConfig, anyRun.Reaches config → NoLostCompletion config := by
  have hrun : (runChecked (Config.step onboardingSchema) endsFound onboardingStart
      (serially [(.oauthPoller 7, 4), (.tenantOnboarding "tenant" [1] ["slack", "github"], 9),
        (.sourceOnboarding "source" [2] (some (.shards [⟨"channel", "C1"⟩])) 0, 7),
        (.shardFetch "fetch" [5], 3), (.terminate 4 .done 1, 4),
        (.sourceOnboarding "source" [6] none 2, 10),
        (.reconciler "reconciler" [7] .timeout 5, 5), (.tenantOnboarding "tenant" [8] [], 4),
        (.periodicReconciler ⟨0, "slack"⟩ 6 (gapBehind 4) 6, 8),
        (.sourceOnboarding "source" [3] (some (.shards [])) 7, 6),
        (.reconciler "reconciler" [11] .timeout 8, 5), (.tenantOnboarding "tenant" [12] [], 4),
        (.shardFetch "fetch" [10], 3), (.terminate 9 .done 9, 4),
        (.sourceOnboarding "source" [13] none 10, 10),
        (.reconciler "reconciler" [14] .timeout 11, 5)])).any (fun config =>
        isQuiescent config && allSettled config.committed 0 &&
          (config.committed.sources.get ⟨0, "slack"⟩).isSome &&
          (config.committed.runs.get 0).any fun row => decide (row.status = .running)) := by
    decide +kernel
  obtain ⟨config, hconfig, hcheck⟩ := (any_eq_true _ _).mp hrun
  simp only [Bool.and_eq_true] at hcheck
  obtain ⟨⟨⟨hquiescent, hsettled⟩, hsource⟩, hrunning⟩ := hcheck
  obtain ⟨source, hsource⟩ := isSome_iff_exists.mp hsource
  obtain ⟨row, hget, hstatus⟩ := (any_eq_true _ _).mp hrunning
  intro hall
  have hcomplete := hall config (reaches_of_endsFound hconfig)
    (quiescent_of_isQuiescent hquiescent) 0 row hget ⟨_, source, rfl, hsource⟩
    fun key other hrun hother => settled_of_allSettled hsettled hrun hother
  rw [of_decide_eq_true hstatus] at hcomplete
  cases hcomplete

end FyralisCore.Onboarding
