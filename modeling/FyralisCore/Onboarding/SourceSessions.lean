import FyralisCore.Onboarding.Statements

/-! The sessions of SourceOnboarding end as they should. -/
namespace FyralisCore.Onboarding

open Relational Transaction Ingestion ReadCommitted List Discipline

variable {c : Promises} {s t : OnboardingDb} {trail later : OnboardingTrail} {key : SourceKey}
  {row row' : SourceRun} {rows : List SourceRun} {id : Nat} {signal : OnboardingSignal}
  {data : OnboardingData} {consumedBy : String}

structure Turning (s : OnboardingDb) (trail : OnboardingTrail) (id : Nat) (consumedBy : String)
    (signal : OnboardingSignal) (data : OnboardingData) (key : SourceKey) (row : SourceRun)
    (rows : List SourceRun) : Prop where
  claims : Claims s trail id signal data
  covered : Covered s trail
  lock : .source key ∈ trail.locks
  found : s.sources.get key = some row
  writes : trail.writes = .consume id consumedBy :: rows.map (.source key)

def current (row : SourceRun) (rows : List SourceRun) : SourceRun := rows.getLast?.getD row

namespace Turning

section

variable (ht : Turning s trail id consumedBy signal data key row rows)

include ht

theorem keeps (hr : Relies c trail s t) : Turning t trail id consumedBy signal data key row rows :=
  { ht with
    claims := ht.claims.keeps hr
    covered := ht.covered.keeps hr
    found := hr.keeps (P := fun s => s.sources.get key = some row)
      (fun _ _ h hf => (h.sourceLocked ht.lock).trans hf) ht.found }

theorem get_sources : (after s trail.writes).sources.get key = some (current row rows) := by
  have hf : Sourceless [.consume id consumedBy] := sourceless_nil.cons (by simp)
  have hg := get_sources_after_rows hf sourceless_nil s key key rows
  rw [if_pos rfl, ht.found, append_nil] at hg
  rw [ht.writes, ← singleton_append, hg, current]
  cases rows.getLast? <;> rfl

theorem shards (other : Nat) : (after s trail.writes).shards.get other = s.shards.get other := by
  rcases get_shards_after_cases s trail.writes other with hs | ⟨shard, hm, -⟩
  · exact hs
  · rw [ht.writes] at hm
    simp at hm

theorem wp_updateSource {change : SourceRun → SourceRun} (hu : condition (current row rows) →
    ∀ t later, Relies c trail s t → trail.locks ⊆ later.locks → trail.minted ⊆ later.minted →
    Turning t later id consumedBy signal data key row (rows ++ [change (current row rows)]) →
    Q (some (change (current row rows))) t later) (hm : condition (current row rows) = false → ∀ t,
    Relies c trail s t → Turning t trail id consumedBy signal data key row rows → Q none t trail) :
    wp c Q (updateSource key condition change) s trail := by
  refine wp_updateRow (fun t hr hgd found hg hc => ?_) fun t hr hgd hn => ?_
  · have hl := ht.keeps hr
    cases hl.get_sources.symm.trans hg
    refine hu hc t _ hr (subset_append_right _ _) (List.Subset.refl _) ?_
    exact
      { claims := hl.claims.mono (subset_append_right _ _)
        covered := hl.covered.add (.head _) trivial
        lock := mem_cons_self
        found := hl.found
        writes := by simp [Trail.extend, hl.writes] }
  · have hl := ht.keeps hr
    exact hm (hn _ hl.get_sources) t hr hl

end

theorem wp_emit (htr : Turning s trail id consumedBy signal data key row rows)
    (ht : ∀ t ws, Relies c trail s t → Emits t other said ws → Turn t key row signal rows ws) :
    wp c (fun _ => Final c) ((emit other said).bind fun _ => .done ()) s trail := by
  have hn : ¬ Inserted trail.writes other := by
    rintro ⟨said, made, hm⟩
    rw [htr.writes] at hm
    simp at hm
  refine wp_bind.mpr (wp_emit_new htr.covered hn
    fun t later ws r hr _ hc he hw hlk _ => ⟨hc, ?_⟩)
  have hl := htr.keeps hr
  have ha : later.writes = .consume id consumedBy :: (rows.map (.source key) ++ ws) := by
    rw [hw, htr.writes, cons_append]
  exact .turned (hl.claims.mono hlk) (hlk hl.lock) hl.found (ht t ws hr he) ha

end Turning

theorem Claimed.wp_updateSource {change : SourceRun → SourceRun}
    (hcl : Claimed s trail id consumedBy signal data)
    (hf : ∀ t, Relies c trail s t → Consistent c t → t.sources.get key = some row)
    (hc : condition row)
    (hu : ∀ t later, Relies c trail s t → trail.locks ⊆ later.locks → trail.minted ⊆ later.minted →
      Turning t later id consumedBy signal data key row [change row] →
      Q (some (change row)) t later) :
    wp c Q (updateSource key condition change) s trail := by
  refine wp_updateRow (fun t hr hgd found hg _ => ?_) fun t hr hgd hn => ?_
  · have hl := hcl.keeps hr
    rw [hl.sources, hf t hr hgd] at hg
    cases hg
    refine hu t _ hr (subset_append_right _ _) (List.Subset.refl _) ?_
    exact
      { claims := hl.claims.mono (subset_append_right _ _)
        covered := hl.covered.add (.head _) trivial
        lock := mem_cons_self
        found := hf t hr hgd
        writes := by simp [Trail.extend, hl.writes] }
  · have hl := hcl.keeps hr
    rw [hl.sources] at hn
    rw [hn row (hf t hr hgd)] at hc
    cases hc

theorem Turning.wp_failSource (htrn : Turning s trail id consumedBy signal data key row rows)
    (htr : ∀ t ws, Relies c trail s t → Emits t (.sourceCompleted key)
        { emittedBy := .sourceOnboarding, failureReason := some reason } ws →
      Turn t key row signal (if (current row rows).status.isOpen then
        rows ++ [{ current row rows with status := .failed, failureReason := some reason }]
        else rows) ws) :
    wp c (fun _ => Final c) (failSource key reason) s trail := by
  refine wp_bind.mpr (wp_bind.mpr (htrn.wp_updateSource
    (fun ho t later hr hlk hm hl => ?_) fun hc t hr hl => ?_))
  · refine hl.wp_emit fun u ws hr' he => ?_
    have ht := htr u ws (hr.trans (hr'.weaken hlk hm)) he
    rwa [if_pos ho] at ht
  · refine hl.wp_emit fun u ws hr' he => ?_
    have ht := htr u ws (hr.trans hr') he
    rwa [if_neg (by simp [hc])] at ht

structure Reopening (c : Promises) (s : OnboardingDb) (trail : OnboardingTrail) (key : SourceKey)
    (row row' : SourceRun) (rows : List SourceRun) (claim marks added : List OnboardingWrite) :
    Prop where
  covered : Covered s trail
  lock : .source key ∈ trail.locks
  found : s.sources.get key = some row
  reopens : Reopens c s trail key row row' claim
  last : rows.getLast? = some row'
  marking : ∀ w ∈ marks, Marking s trail w
  adding : ∀ w ∈ added, Adding s trail key w
  writes : trail.writes = claim ++ (rows.map (.source key) ++ (marks ++ added))

section

variable {claim marks added ws : List OnboardingWrite}

theorem Reopens.mono (hro : Reopens c s trail key row row' claim)
    (hl : trail.locks ⊆ later.locks) : Reopens c s later key row row' claim := by
  cases hro with
  | planned hc hst => exact .planned (hc.mono hl) hst
  | reshared hc hst hu =>
    exact .reshared (hc.mono hl) hst hu
  | rechecked hst hr hs => exact .rechecked hst hr hs

theorem Marking.mono (hm : Marking s trail w)
    (hlk : trail.locks ⊆ later.locks) : Marking s later w := by
  obtain ⟨id, shard, rfl, hl, ht⟩ := hm
  exact ⟨id, shard, rfl, hlk hl, ht⟩

theorem Adding.mono (ha : Adding s trail key w)
    (hmi : trail.minted ⊆ later.minted) : Adding s later key w := by
  obtain ⟨id, shard, rfl, hk, hp, hm, hu⟩ | hi := ha
  · exact .inl ⟨id, shard, rfl, hk, hp, hmi hm, hu⟩
  · exact .inr hi

section

variable (hr : Reopening c s trail key row row' rows claim marks added)

include hr

theorem Reopening.keeps (hrl : Relies c trail s t) :
    Reopening c t trail key row row' rows claim marks added :=
  hrl.keeps (P := fun s => Reopening c s trail key row row' rows claim marks added) (fun _ _ h hr =>
      { hr with
        covered := hr.covered.of_shields h.shields
        found := (h.sourceLocked hr.lock).trans hr.found
        reopens := h.reopens hr.reopens
        marking := fun w hm => h.marking (hr.marking w hm)
        adding := fun w hm => h.adding (hr.adding w hm) }) hr

theorem Reopening.grow (hc : Covered s later) (hl : trail.locks ⊆ later.locks)
    (hmi : trail.minted ⊆ later.minted) (hw : later.writes = trail.writes ++ ws) (ha : ∀ w ∈ ws,
    Adding s later key w) : Reopening c s later key row row' rows claim marks (added ++ ws) where
  covered := hc
  lock := hl hr.lock
  found := hr.found
  reopens := hr.reopens.mono hl
  last := hr.last
  marking := fun w hm => (hr.marking w hm).mono hl
  adding := by
    intro w hm
    rcases mem_append.mp hm with ho | hn
    · exact (hr.adding w ho).mono hmi
    · exact ha w hn
  writes := by simp [hw, hr.writes]

end

def HasAdded (added : List OnboardingWrite) : Prop :=
  ∃ id shard, .shard id shard ∈ added

theorem wp_addShard (hr : Reopening c s trail key row row' rows claim marks added)
    (service : Service) (tenantId : Nat) (shard : Shard) (parentShardId : Option Nat) :
    wp c (fun _ t later => ∃ added, Reopening c t later key row row' rows claim marks added ∧
      HasAdded added) (addShard service key tenantId shard parentShardId) s trail := by
  refine wp_bind.mpr (wp_newId fun t shardId hrl _ hu _ => ?_)
  refine wp_bind.mpr (wp_insertRow fun u hr' _ => ?_)
  have hu' : Unused u shardId := Unused.keeps hu (.head _) hr'
  have hmi : shardId ∈ (trail.mint shardId).minted := mem_cons_self
  have hwk : Relies c trail t u := hr'.weaken (List.Subset.refl _) (subset_cons_self _ _)
  have hn := (hr.keeps hrl).keeps hwk
  have hc : Covered u ((trail.mint shardId).extend (some (.shard shardId))
      [.shard shardId { key, tenantId, shard, parentShardId }]) :=
    (hn.covered.mint shardId).add ⟨.head _, .inr ⟨hmi, hu'⟩⟩ trivial
  have hi := hn.grow hc (subset_append_right _ _) (subset_cons_self _ _) rfl
    fun w hm => .inl ⟨shardId, _, mem_singleton.mp hm, rfl, rfl, hmi, hu'⟩
  refine wp_bind.mpr (wp_emit hi.covered
    fun v later ws r hrl' _ hc he hw hl hmi => ?_)
  refine ⟨_, (hi.keeps hrl').grow hc hl hmi hw ?_, shardId, _,
    mem_append_left _ (mem_append_right _ (.head _))⟩
  rcases he with ⟨rfl, -⟩ | ⟨newId, rfl⟩
  · intro w hm
    cases hm
  · intro w hm
    exact .inr ⟨newId, shardId, _, mem_singleton.mp hm⟩

theorem wp_addShards (service : Service) (tenantId : Nat) (shardOf : β → Shard)
    (parentOf : β → Option Nat) (items : List β) (hs : items ≠ [])
    (hr : Reopening c s trail key row row' rows claim marks added) :
    wp c (fun _ => Final c) (Tx.forEach items fun item =>
      addShard service key tenantId (shardOf item) (parentOf item)) s trail := by
  cases items with
  | nil => exact absurd rfl hs
  | cons item rest =>
    refine wp_seq (wp_addShard hr service tenantId _ _) ?_
    rintro _ t grown ⟨added, hg, ha⟩
    refine wp_mono (wp_forEach (I := fun t later => ∃ added,
      Reopening c t later key row row' rows claim marks added ∧ HasAdded added)
      ⟨added, hg, ha⟩ ?_) ?_
    · rintro other - u last ⟨added, hl, -⟩
      exact wp_addShard hl service tenantId _ _
    · rintro _ u last ⟨added, hl, ha⟩
      exact ⟨hl.covered, .reopened hl.lock hl.found hl.reopens hl.last hl.marking
        hl.adding ha hl.writes⟩

end

theorem Claims.sourcePending (hc : Claims s trail id (.sourceRequested key) data)
    (hg : s.sources.get key = some row) (hp : row.status = .pending)
    (hr : Relies c trail s t) : t.sources.get key = some row :=
  (hr.keeps (P := fun s => Claims s trail id (.sourceRequested key) data ∧
      s.sources.get key = some row)
    (fun _ _ h ⟨hc, hg⟩ => ⟨h.claims hc, h.sourcePending hc hg hp⟩) ⟨hc, hg⟩).2

theorem wp_planSource (ht : Turning s trail id consumedBy (.sourceRequested key) data key row
      [{ row with status := .inProgress }]) (hp : row.status = .pending) (tenantId : Nat)
    (planning : Planning) : wp c (fun _ => Final c) (planSource key tenantId planning) s trail := by
  cases planning with
  | notImplemented message =>
    exact ht.wp_failSource fun t ws _ he => .refused message hp rfl he
  | raises failure =>
    exact ht.wp_failSource fun t ws _ he => .refused failure.reason hp rfl he
  | shards shards =>
    cases shards with
    | nil =>
      refine wp_bind.mpr (wp_bind.mpr (ht.wp_updateSource
        (fun _ t later _ _ _ hl => ?_) fun hc => ?_))
      · exact hl.wp_emit fun u ws _ he => .emptied hp rfl he
      · cases hc
    | cons shard rest =>
      have hr : Reopening c s trail key row { row with status := .inProgress }
          [{ row with status := .inProgress }] [.consume id consumedBy] [] [] :=
        { covered := ht.covered
          lock := ht.lock
          found := ht.found
          reopens := .planned ht.claims hp
          last := rfl
          marking := fun w hm => nomatch hm
          adding := fun w hm => nomatch hm
          writes := ht.writes }
      exact wp_addShards .sourceOnboarding tenantId (fun shard => shard) (fun _ => none)
        (shard :: rest) (cons_ne_nil _ _) hr

theorem wp_handleSourceRequested
    (hc : Claimed s trail id consumedBy (.sourceRequested key) data) (tenantId : Nat)
    (install : Option Planning) :
    wp c (fun _ => Final c) (handleSourceRequested key tenantId install) s trail := by
  unfold handleSourceRequested
  split
  · refine wp_bind.mpr (wp_read fun t hr hgd _ => ?_)
    have hl := hc.keeps hr
    rw [hl.sources]
    cases hg : t.sources.get key with
    | none => exact hl.consumed trivial
    | some row =>
      dsimp only
      split
      · next hp =>
        have hf : ∀ u, Relies c trail t u → Consistent c u → u.sources.get key = some row :=
          fun u hr _ => hl.claims.sourcePending hg hp hr
        cases install with
        | none =>
          refine wp_bind.mpr (wp_bind.mpr (hl.wp_updateSource hf
            (by rw [hp]; rfl) fun u later _ _ _ ht => ?_))
          exact ht.wp_emit fun v ws _ he => .refused _ hp rfl he
        | some planning =>
          refine wp_bind.mpr (wp_bind.mpr (hl.wp_updateSource hf
            (by simp [hp]) fun u later _ _ _ ht => ?_))
          exact wp_planSource ht hp tenantId planning
      · exact hl.consumed trivial
  · exact hc.consumed trivial

variable {seen : OnboardingDb} {shardId : Nat}

theorem exists_unfinished_shard : 0 < countUnfinishedShards seen key ↔ Unfinished seen key := by
  simp only [countUnfinishedShards, shardsOf, countP_pos_iff, mem_filter,
    decide_eq_true_eq, Prod.exists, Table.mem_rows_iff, Unfinished, sight_eq_some]
  constructor
  · rintro ⟨id, shard, ⟨hg, hk⟩, ho⟩
    exact ⟨id, _, ⟨shard, hg, hk, rfl⟩, ho⟩
  · rintro ⟨id, _, ⟨shard, hg, hk, rfl⟩, ho⟩
    exact ⟨id, shard, ⟨hg, hk⟩, ho⟩

theorem failedShards_ne_nil : (!(failedShards seen key).isEmpty) ↔ AnyFailed seen key := by
  simp only [failedShards, shardsOf, Bool.not_eq_true', isEmpty_eq_false_iff_exists_mem,
    mem_filter, decide_eq_true_eq, Prod.exists, Table.mem_rows_iff, AnyFailed, sight_eq_some]
  constructor
  · rintro ⟨id, shard, ⟨hg, hk⟩, hf⟩
    exact ⟨id, _, ⟨shard, hg, hk, rfl⟩, decide_eq_true hf⟩
  · rintro ⟨id, _, ⟨shard, hg, hk, rfl⟩, hf⟩
    exact ⟨id, shard, ⟨hg, hk⟩, of_decide_eq_true hf⟩

theorem sight_congr (hs : ∀ id, seen.shards.get id = s.shards.get id) (key : SourceKey)
    (id : Nat) : sight seen key id = sight s key id := by
  simp [sight, hs]

def Finished (s : OnboardingDb) (key : SourceKey) (shardId : Nat) : Prop :=
  sight s key shardId ≠ none ∧ ¬ Unfinished s key

theorem Finished.keeps (hfn : Finished s key shardId) (hl : .source key ∈ trail.locks)
    (hr : Relies c trail s t) : Finished t key shardId ∧ (AnyFailed t key ↔ AnyFailed s key) :=
  hr.keeps (P := fun u => Finished u key shardId ∧ (AnyFailed u key ↔ AnyFailed s key))
    (fun _ _ h ⟨⟨hsg, hd⟩, hf⟩ =>
      have hs := h.sights hl hd
      ⟨⟨hs shardId ▸ hsg, (unfinished_congr hs).not.mpr hd⟩,
        (anyFailed_congr hs).trans hf⟩) ⟨hfn, Iff.rfl⟩

theorem wp_handOff (ht : Turning s trail id consumedBy (.shardCompleted shardId) data key row rows)
    (hr : rows = if row.status.isOpen then [{ row with status := .completed }] else [])
    (hfn : Finished s key shardId) (hu : ¬ AnyFailed s key) (tenantId : Nat) :
    wp c (fun _ => Final c) (do
      let found ← Tx.read fun seen => seen.sources.get key
      emitShardsCompleted key (some tenantId)
        ((found.map SourceRun.reconciliationPassCount).getD 0)) s trail := by
  refine wp_bind.mpr (wp_read fun t hrl _ _ => ?_)
  have hl := ht.keeps hrl
  have hp : (current row rows).reconciliationPassCount = row.reconciliationPassCount := by
    rw [hr]
    split <;> rfl
  rw [hl.get_sources, Option.map_some, Option.getD_some, hp]
  refine hl.wp_emit fun u ws hr' he => ?_
  obtain ⟨⟨hs, hd⟩, hf⟩ := hfn.keeps ht.lock (hrl.trans hr')
  exact .rolledUp hs hd (hf.not.mpr hu) hr he

theorem wp_rollUpSource
    (ht : Turning s trail id consumedBy (.shardCompleted shardId) data key row [])
    (hfn : Finished s key shardId) (tenantId : Nat) :
    wp c (fun _ => Final c) (rollUpSource key tenantId) s trail := by
  refine wp_bind.mpr (wp_read fun t hr _ _ => ?_)
  have hl := ht.keeps hr
  have hk := (hfn.keeps ht.lock hr).1
  have hse : AnyFailed (after t trail.writes) key ↔ AnyFailed t key :=
    anyFailed_congr (sight_congr hl.shards key)
  split
  · next hf =>
    have hf := hse.mp (failedShards_ne_nil.mp hf)
    refine wp_bind.mpr (wp_read fun u hr' _ _ => ?_)
    refine (hl.keeps hr').wp_failSource fun v ws hrl' he => ?_
    obtain ⟨⟨hsg, hd⟩, hs⟩ := hk.keeps ht.lock (hr'.trans hrl')
    exact .rolledUpFailed _ hsg hd (hs.mpr hf) rfl he
  · next hn =>
    have hu : ¬ AnyFailed t key := fun hf =>
      hn (failedShards_ne_nil.mpr (hse.mpr hf))
    refine wp_bind.mpr (wp_bind.mpr (hl.wp_updateSource
      (fun ho u later hr' _ _ hc => ?_) fun hcl u hr' hs => ?_))
    · obtain ⟨hfn, hf⟩ := hk.keeps ht.lock hr'
      exact wp_handOff hc (if_pos ho).symm hfn (hf.not.mpr hu) tenantId
    · obtain ⟨hfn, hf⟩ := hk.keeps ht.lock hr'
      exact wp_handOff hs (if_neg (Bool.eq_false_iff.mp hcl)).symm hfn (hf.not.mpr hu) tenantId

theorem shardKey_keeps (hg : s.shards.get shardId = some shard) (hr : Relies c trail s t) :
    ∃ shard', t.shards.get shardId = some shard' ∧ shard'.key = shard.key :=
  hr.keeps (P := fun s => ∃ shard', s.shards.get shardId = some shard' ∧ shard'.key = shard.key)
    (fun _ _ h ⟨_, hg, hk⟩ =>
      have ⟨shard', hg', hk'⟩ := h.shields.keptShard shardId _ hg
      ⟨shard', hg', hk'.trans hk⟩) ⟨shard, hg, rfl⟩

theorem Claims.shardClosed
    (hcl : Claims s trail id (.shardCompleted shardId) data) (hgd : Consistent c s)
    (hg : s.shards.get shardId = some shard) : shard.state.isOpen = false := by
  obtain ⟨found, hf, hc⟩ := (hgd.completion shardId).mp hcl.open.present
  cases hg.symm.trans hf
  exact hc

theorem wp_handleShardCompleted
    (hcl : Claimed s trail id consumedBy (.shardCompleted shardId) data) (now : Nat) :
    wp c (fun _ => Final c) (handleShardCompleted shardId data now) s trail := by
  refine wp_bind.mpr (wp_read fun t hrl hgd _ => ?_)
  have hlt := hcl.keeps hrl
  rw [hlt.shards]
  cases hg : t.shards.get shardId with
  | none =>
    refine hlt.consumed fun shard hf => ?_
    cases hg.symm.trans hf
  | some shard =>
    refine wp_bind.mpr (wp_readLocking fun u hrl' hgd' _ => ?_)
    have hn := hlt.keeps hrl'
    obtain ⟨kept, hk, hky⟩ := shardKey_keeps hg hrl'
    obtain ⟨row, hr⟩ := hgd'.source_of_sharded ⟨shardId, _, hky ▸ sight_of_get hk⟩
    rw [hn.sources, hr]
    have ht : Turning u (trail.extend (some (.source shard.key)) []) id consumedBy
        (.shardCompleted shardId) data shard.key row [] :=
      { claims := hn.claims.mono (subset_append_right _ _)
        covered := hn.covered.locking _
        lock := mem_cons_self
        found := hr
        writes := (hn.locking _).writes }
    dsimp [Option.map_some]
    refine wp_bind.mpr (wp_bind.mpr (wp_updateRow
      (fun v hr' hg' found hf ho => ?_) fun v hr' hg' _ => ?_))
    · have hlk := ht.keeps hr'
      rw [hlk.shards] at hf
      rw [hlk.claims.shardClosed hg' hf] at ho
      cases ho
    · have hlk := ht.keeps hr'
      refine wp_bind.mpr (wp_read fun w hre hgood _ => ?_)
      have hc := hlk.keeps hre
      obtain ⟨last, hl, hs⟩ := shardKey_keeps hk (hr'.trans hre)
      have hse : Unfinished (after w (trail.extend (some (.source shard.key)) []).writes)
          shard.key ↔ Unfinished w shard.key :=
        unfinished_congr (sight_congr hc.shards shard.key)
      split
      · next hu =>
        obtain ⟨other, sibling, hsg, ho⟩ := hse.mp (exists_unfinished_shard.mp hu)
        refine ⟨hc.covered, .consumed hc.claims ?_ hc.writes⟩
        intro found hf
        cases hl.symm.trans hf
        rw [hs, hky]
        refine ⟨hc.lock, other, sibling, ?_, hsg, .inl ho⟩
        rintro rfl
        rw [← hky, ← hs, sight_of_get hl] at hsg
        cases hsg
        rw [OnboardingShard.sight, hc.claims.shardClosed hgood hl] at ho
        cases ho
      · next hfn =>
        refine wp_rollUpSource hc ⟨?_, fun hu =>
          hfn (exists_unfinished_shard.mpr (hse.mpr hu))⟩ shard.tenantId
        rw [← hky, ← hs, sight_of_get hl]
        exact Option.some_ne_none _

theorem wp_sourceOnboarding (scan : List Nat) (install : Option Planning) (now : Nat) :
    wp c (fun _ => Final c) (OnboardingCall.sourceOnboarding consumedBy scan install now).program
      s {} := by
  refine wp_processOneSignal fun t later id signal data hg hc hi => ?_
  cases signal with
  | sourceRequested key => exact wp_handleSourceRequested hc _ _
  | shardCompleted shardId => exact wp_handleShardCompleted hc _
  | runCreated | sourceCompleted | shardRequested | shardsCompleted | tenantCompleted =>
    simp [inboxOf] at hi

end FyralisCore.Onboarding
