import FyralisCore.Onboarding.Interference

/-! The statements of the services, one rule each: what a session knows after
an update, an insert, an emit or a claim, whatever the others have committed
before it. -/
namespace FyralisCore.Onboarding

open Relational Transaction Ingestion ReadCommitted List Option Discipline

variable {c : Promises} {s t : OnboardingDb} {trail later : OnboardingTrail} {key : SourceKey}
  {row : SourceRun} {id : Nat} {signal : OnboardingSignal} {data : OnboardingData}
  {w : OnboardingWrite} {lock : Option OnboardingLock}

abbrev wp {α : Type} (c : Promises) (Q : α → OnboardingDb → OnboardingTrail → Prop) :
    OnboardingTx α → OnboardingDb → OnboardingTrail → Prop :=
  (onboardingRules c).discipline.wp Q

def Allowed (s : OnboardingDb) (trail : OnboardingTrail) : OnboardingWrite → Prop
  | .run id _ => .run id ∈ trail.locks ∧
      ((∃ old, s.runs.get id = some old) ∨ (id ∈ trail.minted ∧ Unused s id))
  | .source key _ => .source key ∈ trail.locks
  | .shard id row => .shard id ∈ trail.locks ∧
      ((∃ old, s.shards.get id = some old ∧ old.key = row.key) ∨ (id ∈ trail.minted ∧ Unused s id))
  | .insert id signal _ =>
      id ∈ trail.minted ∧ Unused s id ∧ .entry signal ∈ trail.locks ∧ ¬ Present s signal
  | .consume id _ => .signal id ∈ trail.locks ∧
      ∃ row, s.signals.get id = some row ∧ row.consumedBy = none
  | .counting _ => True

/-- Neither the identifier nor the signal of an insert occurs in one before. -/
def Fresh (trail : OnboardingTrail) : OnboardingWrite → Prop
  | .insert id signal _ => (∀ other data, .insert id other data ∉ trail.writes) ∧
      ¬ Inserted trail.writes signal
  | _ => True

theorem Allowed.mono (ha : Allowed s trail w) (hl : trail.locks ⊆ later.locks)
    (hm : trail.minted ⊆ later.minted) : Allowed s later w := by
  cases w with
  | run id row => exact ⟨hl ha.1, ha.2.imp_right (And.imp_left (hm ·))⟩
  | source key row => exact hl ha
  | shard id row => exact ⟨hl ha.1, ha.2.imp_right (And.imp_left (hm ·))⟩
  | insert id signal data =>
    exact ⟨hm ha.1, ha.2.1, hl ha.2.2.1, ha.2.2.2⟩
  | consume id consumedBy => exact ⟨hl ha.1, ha.2⟩
  | counting key => trivial

theorem Covered.allowed (hc : Covered s trail) (hm : w ∈ trail.writes) : Allowed s trail w := by
  cases w with
  | run id row => exact hc.run id row hm
  | source key row => exact hc.source key row hm
  | shard id row => exact hc.shard id row hm
  | insert id signal data => exact hc.insert id signal data hm
  | consume id consumedBy => exact hc.consume id consumedBy hm
  | counting key => trivial

theorem covered_of_allowed (ha : ∀ w ∈ trail.writes, Allowed s trail w)
    (ho : ∀ id signal signal' data data', .insert id signal data ∈ trail.writes →
      .insert id signal' data' ∈ trail.writes → signal = signal' ∧ data = data')
    (hon : ∀ id id' signal data data', .insert id signal data ∈ trail.writes →
      .insert id' signal data' ∈ trail.writes → id = id') : Covered s trail where
  run := fun _ _ hm => ha _ hm
  source := fun _ _ hm => ha _ hm
  shard := fun _ _ hm => ha _ hm
  insert := fun _ _ _ hm => ha _ hm
  oneKey := ho
  oneId := hon
  consume := fun _ _ hm => ha _ hm

theorem covered_nil : Covered s {} :=
  covered_of_allowed (fun _ hm => nomatch hm) (fun _ _ _ _ _ hm => nomatch hm)
    fun _ _ _ _ _ hm => nomatch hm

section

variable (hc : Covered s trail)

include hc

theorem Covered.grow (hl : trail.locks ⊆ later.locks) (hmi : trail.minted ⊆ later.minted)
    (hw : later.writes = trail.writes) : Covered s later :=
  covered_of_allowed (fun _ hm => (hc.allowed (hw ▸ hm)).mono hl hmi)
    (by rw [hw]; exact hc.oneKey) (by rw [hw]; exact hc.oneId)

theorem Covered.mint (id : Nat) : Covered s (trail.mint id) :=
  hc.grow (List.Subset.refl _) (subset_cons_self _ _) rfl

theorem Covered.locking (lock : Option OnboardingLock) : Covered s (trail.extend lock []) :=
  hc.grow (subset_append_right _ _) (List.Subset.refl _) (append_nil _)

theorem Covered.add (ha : Allowed s (trail.extend lock [w]) w) (hf : Fresh trail w) : Covered s
    (trail.extend lock [w]) := by
  apply covered_of_allowed
  · intro found hm
    rcases mem_append.mp hm with hm | hm
    · exact (hc.allowed hm).mono (subset_append_right _ _) (List.Subset.refl _)
    · rw [mem_singleton.mp hm]
      exact ha
  · intro id signal signal' data data' hm hm'
    simp only [Trail.extend, mem_append, mem_singleton] at hm hm'
    rcases hm with hm | rfl <;> rcases hm' with hm' | he
    · exact hc.oneKey id signal signal' data data' hm hm'
    · subst he
      exact absurd hm (hf.1 _ _)
    · exact absurd hm' (hf.1 _ _)
    · cases he
      exact ⟨rfl, rfl⟩
  · intro id id' signal data data' hm hm'
    simp only [Trail.extend, mem_append, mem_singleton] at hm hm'
    rcases hm with hm | rfl <;> rcases hm' with hm' | he
    · exact hc.oneId id id' signal data data' hm hm'
    · subst he
      exact absurd ⟨_, _, hm⟩ hf.2
    · exact absurd ⟨_, _, hm'⟩ hf.2
    · cases he
      rfl

end

theorem Claims.mono (hc : Claims s trail id signal data)
    (hl : trail.locks ⊆ later.locks) : Claims s later id signal data :=
  ⟨hc.1, hl hc.2⟩

theorem Idle.mono (hi : Idle c s trail signal) (hlk : trail.locks ⊆ later.locks) :
    Idle c s later signal := by
  cases signal with
  | shardCompleted shardId =>
    intro shard hg
    obtain ⟨hl, hs⟩ := hi shard hg
    exact ⟨hlk hl, hs⟩
  | shardsCompleted | sourceCompleted => exact hi
  | runCreated | sourceRequested | shardRequested | tenantCompleted => trivial

theorem Relies.weaken (hr : Relies c later s t) (hl : trail.locks ⊆ later.locks)
    (hm : trail.minted ⊆ later.minted) : Relies c trail s t :=
  CommitRules.Rely.weaken hr hl hm

theorem Relies.trans (h1 : Relies c trail s t) (h2 : Relies c trail t u) : Relies c trail s u :=
  Relation.ReflTransGen.trans h1 h2

theorem Covered.keeps (hc : Covered s trail) (hr : Relies c trail s t) : Covered t trail :=
  hr.keeps (fun _ _ h hc => Covered.of_shields hc h.shields) hc

theorem Claims.keeps (hc : Claims s trail id signal data) (hr : Relies c trail s t) :
    Claims t trail id signal data :=
  hr.keeps (fun _ _ h => h.claims) hc

theorem Present.keeps (hp : Present s signal) (hr : Relies c trail s t) : Present t signal :=
  hr.keeps (fun _ _ h hp => Present.of_shields hp h.shields) hp

theorem Unused.keeps (hu : Unused s id) (hm : id ∈ trail.minted)
    (hr : Relies c trail s t) : Unused t id :=
  hr.keeps (fun _ _ h => h.shields.unused id hm) hu

theorem wp_updateRow {K : Type} [DecidableEq K] {table : OnboardingDb → Table K V}
    {write : K → V → OnboardingWrite} {lock : K → OnboardingLock} {key : K}
    {condition : V → Bool} {change : V → V} {Q : Option V → OnboardingDb → OnboardingTrail → Prop}
    (hu : ∀ t, Relies c trail s t → Consistent c t → ∀ row,
      (table (after t trail.writes)).get key = some row → condition row →
      Q (some (change row)) t (trail.extend (some (lock key)) [write key (change row)]))
    (hms : ∀ t, Relies c trail s t → Consistent c t →
      (∀ row, (table (after t trail.writes)).get key = some row → condition row = false) →
      Q none t trail) : wp c Q (updateRow table write lock key condition change) s trail := by
  refine wp_query fun t hr hgd _ ws v ha => ?_
  cases hm : matching table key condition (after t trail.writes) with
  | none =>
    simp only [hm, map_none, toList_none, Except.ok.injEq, Prod.mk.injEq] at ha
    obtain ⟨rfl, rfl⟩ := ha
    rw [map_none, Trail.extend_nothing]
    refine hms t hr hgd fun row hg => ?_
    simpa [matching, hg, filter_eq_none_iff] using hm
  | some row =>
    simp only [hm, map_some, toList_some, Except.ok.injEq, Prod.mk.injEq] at ha
    obtain ⟨rfl, rfl⟩ := ha
    obtain ⟨hg, hc⟩ := filter_eq_some_iff.mp hm
    exact hu t hr hgd row hg hc

theorem wp_insertRow {lock : OnboardingLock}
    (hi : ∀ t, Relies c trail s t → Consistent c t → Q () t (trail.extend (some lock) [w])) :
    wp c Q (insertRow lock w) s trail := by
  refine wp_query fun t hr hg _ ws v ha => ?_
  cases ha
  exact hi t hr hg

theorem isSome_findSignal_after (hc : Covered t trail) :
    (findSignal (after t trail.writes).signals signal).isSome ↔
      Present t signal ∨ Inserted trail.writes signal :=
  isSome_findSignal.trans hc.present_after

theorem wp_emit (hco : Covered s trail)
    (he : ∀ t later ws r, Relies c trail s t → Consistent c t → Covered t later →
      (ws = [] ∧ (Present t signal ∨ Inserted trail.writes signal) ∨
        ∃ id, ws = [.insert id signal data]) →
      later.writes = trail.writes ++ ws → trail.locks ⊆ later.locks →
      trail.minted ⊆ later.minted → Q r t later) : wp c Q (emit signal data) s trail := by
  refine wp_seq (R := fun _ t later => s = t ∧ trail = later) (wp_ensure fun _ => ⟨rfl, rfl⟩) ?_
  rintro _ _ _ ⟨rfl, rfl⟩
  refine wp_bind.mpr (wp_newId fun t newId hrl hg hun hfr => ?_)
  have hcv := (hco.keeps hrl).mint newId
  refine wp_bind.mpr (wp_query fun u hr hgd _ writes inserted ha => ?_)
  have hc := hcv.keeps hr
  have hw : Relies c trail t u := hr.weaken (List.Subset.refl _) (subset_cons_self _ _)
  split at ha
  · next hf =>
    cases ha
    rw [if_pos hf, Trail.extend_nothing]
    have hp := (isSome_findSignal_after hc).mp hf
    refine wp_bind.mpr (wp_query fun v hre hgood _ writes existing ha => ?_)
    have hn : writes = [] := by
      split at ha <;> cases ha
      rfl
    rw [hn, Trail.extend_nothing]
    have hwk : Relies c trail u v :=
      hre.weaken (List.Subset.refl _) (subset_cons_self _ _)
    refine he v _ [] _ ((hrl.trans hw).trans hwk) hgood (hc.keeps hre)
      (.inl ⟨rfl, hp.imp_left (·.keeps hre)⟩) (append_nil _).symm
      (List.Subset.refl _) (subset_cons_self _ _)
  · next hms =>
    cases ha
    rw [if_neg hms]
    have hab := (isSome_findSignal_after hc).not.mp hms
    rw [not_or] at hab
    have hu : Unused u newId := Unused.keeps hun (.head _) hr
    refine he u _ [.insert newId signal data] _ (hrl.trans hw) hgd ?_
      (.inr ⟨newId, rfl⟩) rfl (subset_append_right _ _) (subset_cons_self _ _)
    refine hc.add ⟨.head _, hu, .head _, hab.1⟩ ⟨?_, hab.2⟩
    intro other said hm
    exact hfr ((hco.keeps hrl).insert newId other said hm).1

theorem wp_emit_new (hc : Covered s trail) (hn : ¬ Inserted trail.writes signal)
    (he : ∀ t later ws r, Relies c trail s t → Consistent c t → Covered t later →
      Emits t signal data ws → later.writes = trail.writes ++ ws → trail.locks ⊆ later.locks →
      trail.minted ⊆ later.minted → Q r t later) : wp c Q (emit signal data) s trail := by
  refine wp_emit hc fun t later ws r hr hg hc hem => ?_
  refine he t later ws r hr hg hc ?_
  rcases hem with ⟨rfl, hp⟩ | ⟨id, rfl⟩
  · exact .found (hp.resolve_right hn)
  · exact .inserted id

structure Claimed (s : OnboardingDb) (trail : OnboardingTrail) (id : Nat) (consumedBy : String)
    (signal : OnboardingSignal) (data : OnboardingData) : Prop where
  claims : Claims s trail id signal data
  covered : Covered s trail
  writes : trail.writes = [.consume id consumedBy]

variable {consumedBy : String}

section

variable (hc : Claimed s trail id consumedBy signal data)

include hc

theorem Claimed.keeps (hr : Relies c trail s t) : Claimed t trail id consumedBy signal data :=
  ⟨hc.claims.keeps hr, hc.covered.keeps hr, hc.writes⟩

theorem Claimed.runs : (after s trail.writes).runs = s.runs := by
  rw [hc.writes]
  rfl

theorem Claimed.sources : (after s trail.writes).sources = s.sources := by
  rw [hc.writes]
  rfl

theorem Claimed.shards : (after s trail.writes).shards = s.shards := by
  rw [hc.writes]
  rfl

theorem Claimed.consumed (hi : Idle c s trail signal) : Final c s trail :=
  ⟨hc.covered, .consumed hc.claims hi hc.writes⟩

theorem Claimed.locking (lock : Option OnboardingLock) : Claimed s
    (trail.extend lock []) id consumedBy signal data :=
  ⟨hc.claims.mono (subset_append_right _ _), hc.covered.locking lock,
    (append_nil _).trans hc.writes⟩

end

theorem final_nothing : Final c s {} := ⟨covered_nil, .nothing rfl⟩

theorem wp_processOneSignal (hh : ∀ t later id signal data, Consistent c t →
      Claimed t later id consumedBy signal data → inboxOf signal = inbox →
      wp c (fun _ => Final c) (handle signal data) t later) :
    wp c (fun _ => Final c) (processOneSignal inbox consumedBy scan handle) s {} := by
  cases scan with
  | nil => exact final_nothing
  | cons id rest =>
    refine wp_bind.mpr (wp_bind.mpr (wp_bind.mpr (wp_query fun t hr hgd _ ws claimed ha => ?_)))
    split at ha
    · next row hc =>
      cases ha
      rw [hc]
      obtain ⟨hg, ht⟩ := filter_eq_some_iff.mp hc
      simp only [Bool.and_eq_true, isNone_iff_eq_none, decide_eq_true_eq] at ht
      obtain ⟨key, said, taken⟩ := row
      obtain ⟨rfl, hi⟩ := ht
      have hcl : Claims t (Trail.extend {} (some (.signal id)) [.consume id consumedBy]) id key
          said := ⟨hg, .head _⟩
      refine hh t _ id key said hgd ⟨hcl, ?_, rfl⟩ hi
      exact covered_nil.add ⟨.head _, _, hg, rfl⟩ trivial
    · next hm =>
      cases ha
      rw [hm]
      exact final_nothing

end FyralisCore.Onboarding