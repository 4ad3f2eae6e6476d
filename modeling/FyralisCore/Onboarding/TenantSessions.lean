import FyralisCore.Onboarding.Statements

/-! The sessions of the OAuth poller and of TenantOnboarding end as they should. -/
namespace FyralisCore.Onboarding

open Relational Transaction Ingestion ReadCommitted List Discipline Trail

variable {c : Promises} {s t : OnboardingDb} {trail later : OnboardingTrail} {key : SourceKey}
  {row : SourceRun} {id run : Nat} {signal : OnboardingSignal} {data : OnboardingData}
  {consumedBy : String}

theorem wp_createOnboardingRun (tenantId : Nat) :
    wp c (fun _ => Final c) (createOnboardingRun tenantId) s {} := by
  refine wp_bind.mpr (wp_newId fun t run _ _ hu _ => ?_)
  refine wp_bind.mpr (wp_insertRow fun u hr _ => ?_)
  have hun' := hu.keeps (.head _) hr
  have hc : Covered u ((mint {} run).extend (some (.run run)) [.run run { tenantId }]) :=
    (covered_nil.mint run).add ⟨.head _, .inr ⟨.head _, hun'⟩⟩ trivial
  refine wp_bind.mpr (wp_emit_new hc ?_ fun v later ws _ hr' _ hc' he hw
    _ hmi => ⟨hc', ?_⟩)
  · rintro ⟨said, made, hm⟩
    simp [extend, mint] at hm
  · have hm : run ∈ ((mint {} run).extend (some (OnboardingLock.run run))
        [OnboardingWrite.run run { tenantId }]).minted := mem_cons_self
    exact .created (hmi hm) (hun'.keeps hm hr') he hw

theorem Claims.runPending {row : OnboardingRun}
    (hc : Claims s trail id (.runCreated run) data) (hg : s.runs.get run = some row)
    (hp : row.status = .pending) (hr : Relies c trail s t) : t.runs.get run = some row :=
  (hr.keeps (P := fun s => Claims s trail id (.runCreated run) data ∧ s.runs.get run = some row)
    (fun _ _ h ⟨hc, hg⟩ => ⟨h.claims hc, h.runPending hc rfl hg hp⟩) ⟨hc, hg⟩).2

theorem wp_markRunFailed (hc : Claimed s trail id consumedBy signal data)
    (hcs : ∀ t row, Relies c trail s t → Consistent c t → t.runs.get run = some row →
      row.status.isOpen → (signal = .runCreated run ∧ row.status = .pending) ∨
        ∃ key source, signal = .sourceCompleted key ∧ key.onboardingRunId = run ∧
          t.sources.get key = some source ∧ source.status = .failed)
    (hi : ∀ t, Relies c trail s t → Consistent c t →
      (∀ row, t.runs.get run = some row → row.status.isOpen = false) → Idle c t trail signal) :
    wp c (fun _ => Final c) (markRunFailed run summary) s trail := by
  refine wp_bind.mpr (wp_updateRow (fun t hr hgd row hg ho => ?_)
    fun t hr hgd hm => ?_)
  · have hl := hc.keeps hr
    rw [hl.runs] at hg
    refine ⟨hl.covered.add ⟨.head _, .inl ⟨row, hg⟩⟩ trivial, ?_⟩
    have hw : (trail.extend (some (.run run))
        [.run run { row with status := .failed, errorSummary := some summary }]).writes =
          [.consume id consumedBy,
            .run run { row with status := .failed, errorSummary := some summary }] := by
      simp [extend, hc.writes]
    exact .closed (hl.claims.mono (subset_append_right _ _)) (.head _) hg
      ho (hcs t row hr hgd hg ho) hw
  · have hl := hc.keeps hr
    rw [hl.runs] at hm
    exact hl.consumed (hi t hr hgd hm)

structure OpeningRun (s : OnboardingDb) (trail : OnboardingTrail) (id : Nat) (consumedBy : String)
    (run : Nat) (row : OnboardingRun) (writes : List OnboardingWrite) : Prop where
  claims : ∃ data, Claims s trail id (.runCreated run) data
  covered : Covered s trail
  pending : row.status = .pending
  found : s.runs.get run = some row
  opening : ∀ w ∈ writes, Opening run w
  writes : trail.writes = .consume id consumedBy :: writes

section

variable {found : OnboardingRun} {writes ws : List OnboardingWrite}

theorem OpeningRun.keeps (ho : OpeningRun s trail id consumedBy run found writes)
    (hr : Relies c trail s t) : OpeningRun t trail id consumedBy run found writes := by
  obtain ⟨said, hc⟩ := ho.claims
  exact { ho with
      claims := ⟨said, hc.keeps hr⟩
      covered := ho.covered.keeps hr
      found := hc.runPending ho.found ho.pending hr }

theorem OpeningRun.grow (hopg : OpeningRun s trail id consumedBy run found writes)
    (hc : Covered s later) (hl : trail.locks ⊆ later.locks)
    (hw : later.writes = trail.writes ++ ws) (hop : ∀ w ∈ ws, Opening run w) :
    OpeningRun s later id consumedBy run found (writes ++ ws) := by
  obtain ⟨said, hcl⟩ := hopg.claims
  refine { hopg with
      claims := ⟨said, hcl.mono hl⟩
      covered := hc
      opening := fun w hm => ?_
      writes := by rw [hw, hopg.writes, cons_append] }
  rcases mem_append.mp hm with ho | hn
  · exact hopg.opening w ho
  · exact hop w hn

theorem Consistent.get_sources_of_pending (hgd : Consistent c s)
    (hg : s.runs.get run = some found) (hp : found.status = .pending) (source : String) :
    s.sources.get ⟨run, source⟩ = none := by
  cases hr : s.sources.get ⟨run, source⟩ with
  | none => rfl
  | some row =>
    obtain ⟨started, hs, hst⟩ := (hgd.settled _ row hr).run
    cases hg.symm.trans hs
    exact absurd hp hst

def HasOpened (run : Nat) (source : String) (writes : List OnboardingWrite) : Prop :=
  ∃ row, .source ⟨run, source⟩ row ∈ writes

section

variable (ho : OpeningRun s trail id consumedBy run found writes)

include ho

theorem wp_requestSource (tenantId : Nat) (source : String) : wp c (fun _ t later => ∃ writes,
    OpeningRun t later id consumedBy run found writes ∧ HasOpened run source writes)
    (requestSource run tenantId source) s trail := by
  refine wp_seq (R := fun _ t later => ∃ writes,
    OpeningRun t later id consumedBy run found writes ∧ HasOpened run source writes) ?_ ?_
  · refine wp_query fun t hr hg _ ws v ha => ?_
    cases ha
    have hl := ho.keeps hr
    split
    · next hsm =>
      rw [extend_nothing]
      refine ⟨writes, hl, ?_⟩
      rcases get_sources_after_cases t trail.writes ⟨run, source⟩ with hs | ⟨row, hm, -⟩
      · rw [hs, hg.get_sources_of_pending hl.found hl.pending] at hsm
        cases hsm
      · rw [hl.writes] at hm
        exact ⟨row, by simpa using hm⟩
    · refine ⟨_, hl.grow (hl.covered.add (.head _) trivial)
        (subset_append_right _ _) rfl ?_, _, mem_append_right _ (.head _)⟩
      intro w hm
      exact .inl ⟨source, tenantId, mem_singleton.mp hm⟩
  · rintro _ t later ⟨writes, hl, row, hm⟩
    refine wp_bind.mpr (wp_emit hl.covered
      fun u final ws r hr hg hc he hw hlk hmi => ?_)
    refine ⟨_, (hl.keeps hr).grow hc hlk hw ?_, row, mem_append_left _ hm⟩
    rcases he with ⟨rfl, -⟩ | ⟨newId, rfl⟩
    · intro w hm
      cases hm
    · intro w hm
      exact .inr ⟨newId, _, _, mem_singleton.mp hm⟩

theorem wp_markRunRunning (hsm : ∃ source, HasOpened run source writes) : wp c (fun _ => Final c)
    (markRunRunning run) s trail := by
  have hr : ∀ t, (after t trail.writes).runs.get run = t.runs.get run := by
    intro t
    rcases get_runs_after_cases t trail.writes run with hs | ⟨row, hm, -⟩
    · exact hs
    · rw [ho.writes] at hm
      rcases mem_cons.mp hm with he | hm
      · cases he
      · rcases ho.opening _ hm with ⟨_, _, he⟩ | ⟨_, _, _, he⟩ <;> cases he
  refine wp_bind.mpr (wp_updateRow (fun t hrl hgd row hg _ => ?_)
    fun t hrl hgd hms => ?_)
  · have hl := ho.keeps hrl
    rw [hr t, hl.found] at hg
    cases hg
    obtain ⟨said, hc⟩ := hl.claims
    obtain ⟨source, row, hm⟩ := hsm
    refine ⟨hl.covered.add ⟨.head _, .inl ⟨_, hl.found⟩⟩ trivial, ?_⟩
    have hw : (trail.extend (some (.run run)) [.run run { found with status := .running }]).writes =
          .consume id consumedBy :: (writes ++ [.run run { found with status := .running }]) := by
      simp [extend, ho.writes]
    exact .opened (hc.mono (subset_append_right _ _)) (.head _) hl.found
      hl.pending hl.opening ⟨source, row, hm⟩ hw
  · have hl := ho.keeps hrl
    have hf := hms found ((hr t).trans hl.found)
    rw [hl.pending] at hf
    cases hf

end

end

theorem wp_handleRunCreated (hc : Claimed s trail id consumedBy (.runCreated run) data)
    (tenantId : Nat) (active : List String) :
    wp c (fun _ => Final c) (handleRunCreated run tenantId active) s trail := by
  refine wp_bind.mpr (wp_read fun t hr hgd _ => ?_)
  have hlt := hc.keeps hr
  rw [hlt.runs]
  cases hf : t.runs.get run with
  | none => exact hlt.consumed trivial
  | some found =>
    dsimp only
    split
    · next hp =>
      split
      · refine wp_markRunFailed hlt (fun u row hr _ hg _ => ?_) fun _ _ _ _ => trivial
        cases hg.symm.trans (hlt.claims.runPending hf hp hr)
        exact .inl ⟨rfl, hp⟩
      · next source rest _ =>
        have ho : OpeningRun t trail id consumedBy run found [] :=
          { claims := ⟨data, hlt.claims⟩
            covered := hlt.covered
            pending := hp
            found := hf
            opening := fun w hm => nomatch hm
            writes := hlt.writes }
        refine wp_seq (R := fun _ t later => ∃ writes,
          OpeningRun t later id consumedBy run found writes ∧
            ∃ source, HasOpened run source writes) ?_ ?_
        · refine wp_seq (wp_requestSource ho tenantId source) ?_
          rintro _ u grown ⟨writes, hgr, hop⟩
          refine wp_forEach ⟨writes, hgr, source, hop⟩ ?_
          rintro other - v last ⟨writes, hl, -⟩
          refine wp_mono (wp_requestSource hl tenantId other) ?_
          rintro _ _ _ ⟨writes, hl, hop⟩
          exact ⟨writes, hl, other, hop⟩
        · rintro _ u grown ⟨writes, hgr, hs⟩
          exact wp_markRunRunning hgr hs
    · exact hlt.consumed trivial

theorem Consistent.failed_of_reported (hg : Consistent c s)
    (ht : Says s (.sourceCompleted key) data) (hrs : data.failureReason ≠ none) :
    ∃ row, s.sources.get key = some row ∧ row.status = .failed := by
  obtain ⟨row, hr⟩ := hg.source_of_reported ht.present
  have hd : ¬ Reported s key .reconciler none := by
    intro hrp
    rw [ht.unique hg.unique hrp] at hrs
    exact hrs rfl
  refine ⟨row, hr, ?_⟩
  have hp := (hg.settled key row hr).phase
  unfold Phase at hp
  split at hp
  · exact absurd ht.present hp.unreported
  · exact absurd ht.present hp.unreported
  · exact absurd hp.reported hd
  · exact absurd ht.present hp.unreported
  · exact absurd hp.reported hd
  · next hs _ => exact hs
  · next hs _ => exact hs

theorem wp_failRun (hc : Claimed s trail id consumedBy (.sourceCompleted key) data)
    (hrs : data.failureReason ≠ none) (reason summary : String) : wp c (fun _ => Final c)
      ((markSourceFailed key reason).bind fun _ => markRunFailed key.onboardingRunId summary)
      s trail := by
  refine wp_bind.mpr (wp_bind.mpr (wp_updateRow
    (fun t hrl hgd row hg ho => ?_) fun t hrl hgd _ => ?_))
  · have hl := hc.keeps hrl
    obtain ⟨found, hf, hfl⟩ := hgd.failed_of_reported hl.claims.told hrs
    rw [hl.sources, hf] at hg
    cases hg
    rw [hfl] at ho
    cases ho
  · have hl := hc.keeps hrl
    refine wp_markRunFailed hl (fun u _ hrl _ _ _ => ?_) fun u hrl hgd hcls _ => ?_
    · have hcl := hl.claims.keeps hrl
      obtain ⟨source, hs, hfl⟩ := Consistent.failed_of_reported ‹_› hcl.told hrs
      exact .inr ⟨key, source, rfl, rfl, hs, hfl⟩
    · have hcl := hl.claims.keeps hrl
      obtain ⟨row, hr⟩ := hgd.source_of_reported hcl.told.present
      obtain ⟨found, hf, -⟩ := hgd.runStarted hr
      exact .inl ⟨found, hf, hcls found hf⟩

def Marked (s : OnboardingDb) (trail : OnboardingTrail) (key : SourceKey)
    (marks : List SourceRun) : Prop :=
  marks = [] ∨ ∃ row, .source key ∈ trail.locks ∧ s.sources.get key = some row ∧
    row.status = .inProgress ∧ marks = [{ row with status := .completed }]

variable {marks : List SourceRun}

theorem Marked.keeps (hm : Marked s trail key marks)
    (hrl : Relies c trail s t) : Marked t trail key marks :=
  hrl.keeps (P := fun s => Marked s trail key marks)
    (fun _ _ h => Or.imp_right fun ⟨row, hl, hr, ht⟩ =>
      ⟨row, hl, (h.sourceLocked hl).trans hr, ht⟩) hm

theorem Marked.mono (hm : Marked s trail key marks)
    (hlk : trail.locks ⊆ later.locks) : Marked s later key marks :=
  hm.imp_right fun ⟨row, hl, ht⟩ => ⟨row, hlk hl, ht⟩

structure Counting (s : OnboardingDb) (trail : OnboardingTrail) (id : Nat) (consumedBy : String)
    (key : SourceKey) (data : OnboardingData) (marks : List SourceRun)
    (runs : List OnboardingRun) : Prop where
  claims : Claims s trail id (.sourceCompleted key) data
  covered : Covered s trail
  marked : Marked s trail key marks
  writes : trail.writes = .consume id consumedBy ::
    (marks.map (.source key) ++ .counting key :: runs.map (.run key.onboardingRunId))

section

variable {marks : List SourceRun} {runs : List OnboardingRun} {other : SourceKey}

section

variable (hc : Counting s trail id consumedBy key data marks runs)

include hc

theorem Counting.keeps (hr : Relies c trail s t) :
    Counting t trail id consumedBy key data marks runs :=
  { hc with
    claims := hc.claims.keeps hr
    covered := hc.covered.keeps hr
    marked := hc.marked.keeps hr }

theorem Counting.get_sources (other : SourceKey) : (after s trail.writes).sources.get other =
      if other = key then marks.getLast?.or (s.sources.get other) else s.sources.get other := by
  rw [hc.writes]
  have hf : Sourceless [.consume id consumedBy] := sourceless_nil.cons (by simp)
  refine get_sources_after_rows hf ?_ s key other marks
  exact (sourceless_map_run _ runs).cons (by simp)

theorem Counting.get_of_ne_completed (hg : (after s trail.writes).sources.get other = some row)
    (hs : row.status ≠ .completed) : s.sources.get other = some row := by
  rw [hc.get_sources] at hg
  split at hg
  · rcases hc.marked with rfl | ⟨found, -, -, -, rfl⟩
    · exact hg
    · cases hg
      exact absurd rfl hs
  · exact hg

end

end

theorem exists_unfinished_source : 0 < countUnfinishedSources seen run ↔
    ∃ key row, key.onboardingRunId = run ∧ seen.sources.get key = some row ∧
      row.status.isOpen := by
  simp only [countUnfinishedSources, sourcesOf, countP_pos_iff, mem_filter,
    decide_eq_true_eq, Prod.exists, Table.mem_rows_iff]
  grind

theorem anySourceFailed_eq_true : anySourceFailed seen run ↔
    ∃ key row, key.onboardingRunId = run ∧ seen.sources.get key = some row ∧
      row.status = .failed := by
  simp only [anySourceFailed, sourcesOf, any_eq_true, mem_filter, decide_eq_true_eq,
    Prod.exists, Table.mem_rows_iff]
  grind

theorem Consistent.passed_of_open (hgd : Consistent c s)
    (hr : other.onboardingRunId = key.onboardingRunId) (hg : s.sources.get other = some row)
    (ho : row.status.isOpen) : Passed c s key := by
  intro hs
  have hp := (hgd.settled other row hg).phase
  have hh : ¬ Present s (.sourceCompleted other) → SomeSource s key.onboardingRunId
      (Holding s) := fun hu =>
    ⟨other, row, hr, hg, .inr ((hgd.arrived other).not.mpr hu)⟩
  unfold Phase at hp
  split at hp
  · exact .inr (.inl (hh hp.unreported))
  · exact .inr (.inl (hh hp.unreported))
  · obtain ⟨found, hf, hc⟩ := hp.steady hs
    rw [hr] at hf
    exact .inl ⟨found, hf, by rw [hc]; rfl⟩
  all_goals
    next hst _ =>
      rw [hst] at ho
      cases ho

section Tally

variable {marks : List SourceRun} {runs : List OnboardingRun}

theorem Counting.reconciled (hc : Counting s trail id consumedBy key data marks [])
    (hgd : Consistent c s) (hs : c.steady)
    (hd : ¬ 0 < countUnfinishedSources (after s trail.writes) key.onboardingRunId)
    (hcn : ¬ Miscounts (after s trail.writes) key.onboardingRunId) :
    SomeSource s key.onboardingRunId (fun _ row => row.status = .failed) ∨
      EachSource s key.onboardingRunId SourceRun.isReconciled := by
  by_cases hfl : SomeSource s key.onboardingRunId fun _ row => row.status = .failed
  · exact .inl hfl
  by_cases hcm : RunComplete s key.onboardingRunId
  · exact .inr (.inl hcm)
  have hcp : ∀ other row, other.onboardingRunId = key.onboardingRunId →
      (after s trail.writes).sources.get other = some row → row.status = .completed := by
    intro other row hr hg
    by_contra hst
    have hold := hc.get_of_ne_completed hg hst
    have hcl : row.status.isOpen ≠ true := fun hop =>
      hd (exists_unfinished_source.mpr ⟨other, row, hr, hg, hop⟩)
    refine hfl ⟨other, row, hr, hold, ?_⟩
    cases hcs : row.status with
    | failed => exact hcs
    | completed => exact absurd hcs hst
    | pending | inProgress => rw [hcs] at hcl; exact absurd rfl hcl
  have hrc : ∀ other row, other.onboardingRunId = key.onboardingRunId →
      (after s trail.writes).sources.get other = some row → row.reconciledAt ≠ none :=
    fun other row hr hg hn => hcn ⟨hcp, other, row, hr, hg, hn⟩
  refine .inr (.inr fun other row hr hg => ?_)
  by_cases hm : other = key ∧ marks ≠ []
  · obtain ⟨rfl, hne⟩ := hm
    obtain rfl | ⟨found, -, hf, hst, rfl⟩ := hc.marked
    · exact absurd rfl hne
    cases hg.symm.trans hf
    have hse : (after s trail.writes).sources.get other =
        some { row with status := .completed } := by
      rw [hc.get_sources, if_pos rfl]
      rfl
    obtain ⟨now, hnw⟩ := Option.ne_none_iff_exists'.mp (hrc other _ hr hse)
    have hp := (hgd.settled other row hg).phase
    simp only [Phase, hst, show row.reconciledAt = some now from hnw] at hp
    exact absurd (hp.steady hs) hcm
  · have hse : (after s trail.writes).sources.get other = some row := by
      rw [hc.get_sources]
      split
      · next ho =>
        rw [not_not.mp (not_and.mp hm ho)]
        exact hg
      · exact hg
    exact ⟨hcp other row hr hse, hrc other row hr hse⟩

theorem EachSource.keeps (hs : c.steady) (hr : Present s (.sourceCompleted key))
    (he : EachSource s key.onboardingRunId SourceRun.isReconciled)
    (hrl : Relies c trail s t) : EachSource t key.onboardingRunId SourceRun.isReconciled :=
  (hrl.keeps (P := fun s => Present s (.sourceCompleted key) ∧
      EachSource s key.onboardingRunId SourceRun.isReconciled)
    (fun _ _ h ⟨hp, he⟩ => ⟨hp.of_shields h.shields,
      h.allReconciled hs (fun _ => h.good.runStarted_of_reported hp) he⟩) ⟨hr, he⟩).2

theorem Counting.final
    (hc : Counting s trail id consumedBy key data marks runs) (hcv : Covered s later)
    (hl : trail.locks ⊆ later.locks) (hw : later.writes = trail.writes ++ ws)
    (ht : Tally c s later key runs ws) : Final c s later := by
  have ha : later.writes = .consume id consumedBy :: (marks.map (.source key) ++
      .counting key :: (runs.map (.run key.onboardingRunId) ++ ws)) := by
    rw [hw, hc.writes]
    simp
  exact ⟨hcv, .tallied (hc.claims.mono hl) (hc.marked.mono hl) ht ha⟩

theorem Counting.left (hc : Counting s trail id consumedBy key data marks [])
    (hp : Passed c s key) : Final c s trail :=
  hc.final hc.covered (List.Subset.refl _) (append_nil _).symm (.left hp)

theorem wp_emitTenantCompleted (hc : Counting s trail id consumedBy key data marks runs)
    (ht : ∀ t later said ws, Relies c trail s t → trail.locks ⊆ later.locks →
      Emits t (.tenantCompleted key.onboardingRunId) said ws → Tally c t later key runs ws) :
    wp c (fun _ => Final c) (do
      let found ← Tx.read fun seen => seen.runs.get key.onboardingRunId
      let _ ← emit (.tenantCompleted key.onboardingRunId)
        { emittedBy := .tenantOnboarding, tenantId := found.map OnboardingRun.tenantId }
      return ()) s trail := by
  refine wp_bind.mpr (wp_read fun t hr _ _ => ?_)
  have hl := hc.keeps hr
  have hn : ¬ Inserted trail.writes (.tenantCompleted key.onboardingRunId) := by
    rintro ⟨said, made, hm⟩
    rw [hc.writes] at hm
    simp at hm
  refine wp_bind.mpr (wp_emit_new hl.covered hn
    fun u final ws r hr' _ hcv he hw hlk _ => ?_)
  exact (hl.keeps hr').final hcv hlk hw (ht u final _ ws (hr.trans hr') hlk he)

theorem Counting.get_runs (hc : Counting s trail id consumedBy key data marks []) :
    (after s trail.writes).runs.get key.onboardingRunId = s.runs.get key.onboardingRunId := by
  rcases get_runs_after_cases s trail.writes key.onboardingRunId with hs | ⟨row, hm, -⟩
  · exact hs
  · rw [hc.writes] at hm
    simp at hm

theorem wp_completeRunIfDone (hcn : Counting s trail id consumedBy key data marks [])
    (hmk : trail.writes.getLast? = some (.counting key)) :
    wp c (fun _ => Final c) (completeRunIfDone key.onboardingRunId) s trail := by
  refine wp_bind.mpr (wp_read fun t hrl hgd had => ?_)
  have hlt := hcn.keeps hrl
  split
  · next hu =>
    obtain ⟨other, row, hrn, hg, hop⟩ := exists_unfinished_source.mp hu
    have hold := hlt.get_of_ne_completed hg fun hst => by
      rw [hst] at hop
      cases hop
    exact hlt.left (hgd.passed_of_open hrn hold hop)
  next hd =>
  refine wp_bind.mpr (wp_read fun u hrl' hgd' _ => ?_)
  have hcnt := hlt.keeps hrl'
  split
  · next hfl =>
    obtain ⟨other, row, hrn, hg, hst⟩ := anySourceFailed_eq_true.mp hfl
    have hold := hcnt.get_of_ne_completed hg (by simp [hst])
    exact hcnt.left fun _ => .inr (.inl ⟨other, row, hrn, hold, .inl hst⟩)
  next hun =>
  have ha : c.steady → c.counted → EachSource u key.onboardingRunId SourceRun.isReconciled := by
    intro hs hp
    rcases hlt.reconciled hgd hs hd (had hp key hmk) with
      ⟨other, row, hrn, hg, hst⟩ | he
    · have hk : u.sources.get other = some row :=
        Relies.keeps (P := fun s => s.sources.get other = some row) hrl'
          (fun _ _ h hg => h.sourceFailed hg hst) hg
      refine absurd (anySourceFailed_eq_true.mpr ⟨other, row, hrn, ?_, hst⟩) hun
      rw [hcnt.get_sources]
      split
      · next ho =>
        rcases hcnt.marked with rfl | ⟨found, -, hf, hop, -⟩
        · exact hk
        · cases (ho ▸ hk).symm.trans hf
          rw [hst] at hop
          cases hop
      · exact hk
    · exact he.keeps hs hlt.claims.open.present hrl'
  refine wp_bind.mpr (wp_bind.mpr (wp_updateRow
    (fun v hr' hg' run hg hop => ?_) fun v hr' hg' hm => ?_))
  · have hn := hcnt.keeps hr'
    rw [hn.get_runs] at hg
    have hc : Counting v (trail.extend (some (.run key.onboardingRunId))
        [.run key.onboardingRunId { run with status := .complete }]) id consumedBy key data marks
        [{ run with status := .complete }] :=
      { claims := hn.claims.mono (subset_append_right _ _)
        covered := hn.covered.add ⟨.head _, .inl ⟨run, hg⟩⟩ trivial
        marked := hn.marked.mono (subset_append_right _ _)
        writes := by simp [extend, hn.writes] }
    refine wp_emitTenantCompleted hc fun w later said ws hre hlk hem => ?_
    have hl : OnboardingLock.run key.onboardingRunId ∈ later.locks := hlk (.head _)
    have hrn : w.runs.get key.onboardingRunId = some run :=
      (hre.keeps (P := fun s => s.runs.get key.onboardingRunId = some run)
        (fun _ _ h hg => (h.shields.run _ (.head _)).trans hg) hg)
    refine .completed hl hrn hop (fun hs hp other row ho hr => ?_) hem
    have hw := hre.weaken (subset_append_right _ _) (List.Subset.refl _)
    have he := (ha hs hp).keeps hs hcnt.claims.open.present (hr'.trans hw)
    rcases he with ⟨found, hf, hcp⟩ | he
    · cases hrn.symm.trans hf
      rw [hcp] at hop
      cases hop
    · exact he other row ho hr
  · have hn := hcnt.keeps hr'
    obtain ⟨source, hsr⟩ := hg'.source_of_reported hn.claims.open.present
    obtain ⟨run, hrn, -⟩ := hg'.runStarted hsr
    have hov := hm run (hn.get_runs.trans hrn)
    refine wp_emitTenantCompleted hn fun w later said ws hre _ hem => ?_
    exact .isOver (hre.keeps (P := fun s => s.runs.get key.onboardingRunId = some run)
      (fun _ _ h hg => h.runClosed hg hov) hrn) hov hem

end Tally

theorem Consistent.inProgress_of_reported (hgd : Consistent c s)
    (hr : Present s (.sourceCompleted key)) (hg : s.sources.get key = some row)
    (ho : row.status.isOpen) : row.status = .inProgress := by
  have hp := (hgd.settled key row hg).phase
  cases hs : row.status with
  | pending =>
    simp only [Phase, hs] at hp
    exact absurd hr hp.unreported
  | inProgress => rfl
  | completed | failed =>
    rw [hs] at ho
    cases ho

theorem wp_countSources (hcl : Claims s trail id (.sourceCompleted key) data)
    (hc : Covered s trail) (hm : Marked s trail key marks)
    (hw : trail.writes = .consume id consumedBy :: marks.map (.source key)) :
    wp c (fun _ => Final c)
      ((Tx.query (fun _ => none) fun _ => .ok ([.counting key], ())).bind fun _ =>
        completeRunIfDone key.onboardingRunId) s trail := by
  refine wp_bind.mpr (wp_query fun t hr hg _ ws v ha => ?_)
  cases ha
  have hcn : Counting t (trail.extend none [.counting key]) id consumedBy key data marks [] :=
    { claims := hcl.keeps hr
      covered := (hc.keeps hr).add trivial trivial
      marked := hm.keeps hr
      writes := by simp [extend, hw] }
  exact wp_completeRunIfDone hcn (by simp [extend])

theorem wp_handleSourceCompleted (hc : Claimed s trail id consumedBy (.sourceCompleted key) data) :
    wp c (fun _ => Final c) (handleSourceCompleted key data.failureReason) s trail := by
  unfold handleSourceCompleted
  dsimp only
  split
  · refine wp_bind.mpr (wp_bind.mpr (wp_updateRow
      (fun t hr hgd row hg ho => ?_) fun t hr hgd _ => ?_))
    · have hl := hc.keeps hr
      rw [hl.sources] at hg
      have hs := hgd.inProgress_of_reported hl.claims.open.present hg ho
      have hm : Marked t (trail.extend (some (.source key))
          [.source key { row with status := .completed }]) key
          [{ row with status := .completed }] := .inr ⟨row, .head _, hg, hs, rfl⟩
      have hcv : Covered t (trail.extend (some (.source key))
          [.source key { row with status := .completed }]) := hl.covered.add (.head _) trivial
      have hw : (trail.extend (some (.source key))
          [.source key { row with status := .completed }]).writes = .consume id consumedBy ::
            [{ row with status := .completed }].map (.source key) := by
        simp [extend, hl.writes]
      exact wp_countSources (hl.claims.mono (subset_append_right _ _)) hcv hm hw
    · have hl := hc.keeps hr
      exact wp_countSources hl.claims hl.covered (.inl rfl) hl.writes
  · next hrs =>
    refine wp_failRun hc (fun hn => hrs ?_) _ _
    simp [hn]

theorem wp_tenantOnboarding (scan active) :
    wp c (fun _ => Final c) (OnboardingCall.tenantOnboarding consumedBy scan active).program s {} := by
  refine wp_processOneSignal fun t later id signal data hg hc hi => ?_
  cases signal with
  | runCreated run => exact wp_handleRunCreated hc _ _
  | sourceCompleted key => exact wp_handleSourceCompleted hc
  | sourceRequested | shardRequested | shardCompleted | shardsCompleted | tenantCompleted =>
    simp [inboxOf] at hi

end FyralisCore.Onboarding
