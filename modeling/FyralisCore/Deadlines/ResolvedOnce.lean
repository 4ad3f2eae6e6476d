import FyralisCore.Deadlines.Counts

/-! A prediction is resolved at most once. Its trigger is applied at most once,
so the law stands on the enqueueing: it holds in the runs in which a resolver
enqueues a prediction that nobody is about to resolve, and that nobody has. -/
namespace FyralisCore.Deadlines

open Relational Transaction Transition Think.Applier List Table

variable {start system after : System}

section

variable (system : System) (triggerId : Nat)

def System.modelOf : Option Nat :=
  (system.queue.get triggerId).map OverdueRow.modelId

def System.Open : Prop :=
  ∃ row, system.queue.get triggerId = some row ∧ row.completedAt = none

def System.AtWork : Prop :=
  ∃ worker run, system.runs.get worker = some run ∧ run.triggerId = triggerId ∧ run.ended = false

def System.Live : Prop :=
  system.applied.get triggerId = none ∧ (system.Open triggerId ∨ system.AtWork triggerId)

end

def System.resolutions (system : System) (modelId : Nat) : Nat :=
  system.resolved.countP fun entry => entry.modelId = modelId

structure ResolvedOnce (start system : System) : Prop where
  resolved : ∀ modelId, system.resolutions modelId ≤ 1
  counted : ∀ modelId, counted system.domain modelId ≤ counted start.domain modelId + 1
  nudged : ∀ modelId contributor,
    (system.resolved.filter fun entry => entry.modelId = modelId).countP
      (fun entry => contributor ∈ entry.nudged) ≤ 1 ∧
    ∀ entry ∈ system.resolved, entry.nudged.count contributor ≤ 1
  pending : ∀ first second, system.Open first → system.Open second →
    system.modelOf first = system.modelOf second → first = second

structure System.Unresolved (system : System) (modelId : Nat) : Prop where
  completed : ∀ triggerId, system.modelOf triggerId = some modelId → ¬ system.Open triggerId
  idle : ∀ triggerId, system.modelOf triggerId = some modelId → ¬ system.AtWork triggerId
  unresolved : ∀ entry ∈ system.resolved, entry.modelId ≠ modelId

/-- The condition on the steps of a run: a resolver enqueues only predictions that
are unresolved. -/
def EnqueuesUnresolved (system : System) : Action → Prop
  | .enqueue resolver _ => ∀ cycle, system.resolvers.get resolver = some cycle →
      ∀ prediction ∈ cycle.predictions.head?, system.Unresolved prediction.1
  | _ => True

/-- Where runs start: nothing is resolved or at work, and no prediction has two
open triggers. -/
structure Calm (system : System) : Prop where
  fresh : ∀ triggerId, system.nextTrigger ≤ triggerId → system.queue.get triggerId = none
  runs : ∀ worker, system.runs.get worker = none
  resolved : system.resolved = []
  pending : ∀ first second, system.Open first → system.Open second →
    system.modelOf first = system.modelOf second → first = second

/-- What is kept: each open trigger is the only one of its model, and so is each
one that may still resolve its model, which then is not resolved yet. -/
structure Accounted (start system : System) : Prop where
  fresh : ∀ triggerId, system.nextTrigger ≤ triggerId → system.queue.get triggerId = none
  runs : ∀ worker run, system.runs.get worker = some run →
    system.modelOf run.triggerId = some run.modelId
  pending : ∀ first second, system.Open first → system.Open second →
    system.modelOf first = system.modelOf second → first = second
  live : ∀ first second, system.Live first → system.Live second →
    system.modelOf first = system.modelOf second → first = second
  settled : ∀ entry ∈ system.resolved, ∀ triggerId,
    system.modelOf triggerId = some entry.modelId → ¬ system.Live triggerId
  once : ∀ modelId, system.resolutions modelId ≤ 1
  counted : ∀ modelId, counted system.domain modelId ≤
    counted start.domain modelId + system.resolutions modelId
  fits : ∀ worker run, system.runs.get worker = some run → run.ended = false →
    system.applied.get run.triggerId = none → Fits system.domain run.modelId run.resolution
  nudged : ∀ entry ∈ system.resolved, entry.nudged.Nodup

theorem Accounted.of_calm (hc : Calm system) : Accounted system system where
  fresh := hc.fresh
  runs := fun worker run hg => by
    rw [hc.runs worker] at hg
    cases hg
  pending := hc.pending
  live := by
    have ho : ∀ triggerId, system.Live triggerId → system.Open triggerId := by
      rintro triggerId ⟨-, ho | ⟨worker, run, hg, -⟩⟩
      · exact ho
      · rw [hc.runs worker] at hg
        cases hg
    exact fun first second h1 h2 =>
      hc.pending first second (ho first h1) (ho second h2)
  settled := by simp [hc.resolved]
  once := by simp [System.resolutions, hc.resolved]
  counted := fun modelId => Nat.le_add_right _ _
  fits := fun worker run hg => by
    rw [hc.runs worker] at hg
    cases hg
  nudged := by simp [hc.resolved]

theorem Accounted.resolvedOnce (ha : Accounted start system) : ResolvedOnce start system where
  resolved := ha.once
  counted := fun modelId =>
    (ha.counted modelId).trans (Nat.add_le_add_left (ha.once modelId) _)
  nudged := by
    intro modelId contributor
    refine ⟨?_, fun e he =>
      nodup_iff_count_le_one.mp (ha.nudged e he) contributor⟩
    calc (system.resolved.filter fun e => e.modelId = modelId).countP
          (fun e => contributor ∈ e.nudged)
        ≤ (system.resolved.filter fun e => e.modelId = modelId).length :=
          countP_le_length
      _ = system.resolutions modelId := countP_eq_length_filter.symm
      _ ≤ 1 := ha.once modelId
  pending := ha.pending

structure Subsides (system after : System) : Prop where
  domain : after.domain = system.domain
  resolved : after.resolved = system.resolved
  applied : after.applied = system.applied
  next : after.nextTrigger = system.nextTrigger
  models : ∀ triggerId, after.modelOf triggerId = system.modelOf triggerId
  opens : ∀ triggerId, after.Open triggerId → system.Open triggerId
  runs : ∀ worker run, after.runs.get worker = some run →
    ∃ before, system.runs.get worker = some before ∧ before.triggerId = run.triggerId ∧
      before.modelId = run.modelId ∧ before.resolution = run.resolution ∧
        (run.ended = false → before.ended = false)

theorem Subsides.live (hsb : Subsides system after)
    (hl : after.Live triggerId) : system.Live triggerId := by
  obtain ⟨ha, ho | ⟨worker, run, hg, ht, he⟩⟩ := hl
  · exact ⟨hsb.applied ▸ ha, .inl (hsb.opens triggerId ho)⟩
  · obtain ⟨before, hb, hs, -, -, hr⟩ := hsb.runs worker run hg
    exact ⟨hsb.applied ▸ ha, .inr ⟨worker, before, hb, hs.trans ht, hr he⟩⟩

theorem Accounted.subside (ha : Accounted start system)
    (hsb : Subsides system after) : Accounted start after where
  fresh := by
    intro triggerId hf
    have hn := hsb.models triggerId
    rw [System.modelOf, System.modelOf, ha.fresh triggerId (hsb.next ▸ hf)] at hn
    exact Option.map_eq_none_iff.mp hn
  runs := by
    intro worker run hg
    obtain ⟨before, hb, ht, hm, -⟩ := hsb.runs worker run hg
    rw [hsb.models, ← ht, ← hm]
    exact ha.runs worker before hb
  pending := by
    intro first second h1 h2 hs
    rw [hsb.models, hsb.models] at hs
    exact ha.pending first second (hsb.opens first h1) (hsb.opens second h2) hs
  live := by
    intro first second h1 h2 hs
    rw [hsb.models, hsb.models] at hs
    exact ha.live first second (hsb.live h1) (hsb.live h2) hs
  settled := by
    intro e he triggerId hm hl
    rw [hsb.resolved] at he
    rw [hsb.models] at hm
    exact ha.settled e he triggerId hm (hsb.live hl)
  once := by
    intro modelId
    rw [System.resolutions, hsb.resolved]
    exact ha.once modelId
  counted := by
    intro modelId
    rw [System.resolutions, hsb.resolved, hsb.domain]
    exact ha.counted modelId
  fits := by
    intro worker run hg hed hap
    obtain ⟨before, hb, ht, hm, hr, hrn⟩ := hsb.runs worker run hg
    rw [hsb.domain, ← hm, ← hr]
    exact ha.fits worker before hb (hrn hed) (by rwa [ht, ← hsb.applied])
  nudged := by
    rw [hsb.resolved]
    exact ha.nudged

theorem Subsides.of_same (hd : after.domain = system.domain)
    (hrs : after.resolved = system.resolved) (ha : after.applied = system.applied)
    (hn : after.nextTrigger = system.nextTrigger) (hq : after.queue = system.queue)
    (hr : after.runs = system.runs) : Subsides system after where
  domain := hd
  resolved := hrs
  applied := ha
  next := hn
  models := fun triggerId => by rw [System.modelOf, hq, System.modelOf]
  opens := fun triggerId ho => by rwa [System.Open, hq] at ho
  runs := fun worker run hg => ⟨run, hr ▸ hg, rfl, rfl, rfl, id⟩

section

variable {predictionId tenantId : Nat} {provisionalOutcome : ProvisionalOutcome}

theorem modelOf_enqueueT2 (triggerId : Nat) :
    (system.enqueueT2 predictionId tenantId provisionalOutcome).modelOf triggerId =
      if triggerId = system.nextTrigger then some predictionId else system.modelOf triggerId := by
  simp only [System.modelOf, System.enqueueT2, get_put]
  split <;> rfl

variable {triggerId : Nat}

theorem open_enqueueT2
    (ho : (system.enqueueT2 predictionId tenantId provisionalOutcome).Open triggerId) :
    triggerId = system.nextTrigger ∨ triggerId ≠ system.nextTrigger ∧ system.Open triggerId := by
  obtain ⟨row, hr, hc⟩ := ho
  simp only [System.enqueueT2, get_put] at hr
  by_cases hn : triggerId = system.nextTrigger
  · exact .inl hn
  · rw [if_neg hn] at hr
    exact .inr ⟨hn, row, hr, hc⟩

theorem Accounted.ne_of_atWork (ha : Accounted start system)
    (hw : system.AtWork triggerId) : triggerId ≠ system.nextTrigger := by
  rintro rfl
  obtain ⟨worker, run, hg, ht, -⟩ := hw
  have hm := ha.runs worker run hg
  rw [ht, System.modelOf, ha.fresh _ (Nat.le_refl _)] at hm
  cases hm

theorem Accounted.live_enqueueT2 (hac : Accounted start system)
    (hl : (system.enqueueT2 predictionId tenantId provisionalOutcome).Live triggerId) :
    triggerId = system.nextTrigger ∨ triggerId ≠ system.nextTrigger ∧ system.Live triggerId := by
  obtain ⟨ha, ho | hw⟩ := hl
  · exact (open_enqueueT2 ho).imp_right fun hold => ⟨hold.1, ha, .inl hold.2⟩
  · exact .inr ⟨hac.ne_of_atWork hw, ha, .inr hw⟩

theorem System.Unresolved.not_live (hu : system.Unresolved predictionId)
    (hm : system.modelOf triggerId = some predictionId) : ¬ system.Live triggerId := by
  rintro ⟨-, ho | hw⟩
  · exact hu.completed triggerId hm ho
  · exact hu.idle triggerId hm hw

theorem eq_of_enqueueT2 {property : Nat → Prop}
    (hn : ∀ triggerId, system.modelOf triggerId = some predictionId → ¬ property triggerId)
    (hu : ∀ first second, property first → property second →
      system.modelOf first = system.modelOf second → first = second)
    (h1 : first = system.nextTrigger ∨ first ≠ system.nextTrigger ∧ property first)
    (h2 : second = system.nextTrigger ∨ second ≠ system.nextTrigger ∧ property second)
    (hs : (system.enqueueT2 predictionId tenantId provisionalOutcome).modelOf first =
      (system.enqueueT2 predictionId tenantId provisionalOutcome).modelOf second) :
    first = second := by
  rw [modelOf_enqueueT2, modelOf_enqueueT2] at hs
  rcases h1 with rfl | ⟨h1, hp⟩
  · rcases h2 with rfl | ⟨h2, ho⟩
    · rfl
    · rw [if_pos rfl, if_neg h2] at hs
      exact absurd ho (hn second hs.symm)
  · rcases h2 with rfl | ⟨h2, ho⟩
    · rw [if_pos rfl, if_neg h1] at hs
      exact absurd hp (hn first hs)
    · rw [if_neg h1, if_neg h2] at hs
      exact hu first second hp ho hs

theorem Accounted.enqueueT2 (ha : Accounted start system)
    (hu : system.Unresolved predictionId) (tenantId : Nat)
    (provisionalOutcome : ProvisionalOutcome) :
    Accounted start (system.enqueueT2 predictionId tenantId provisionalOutcome) where
  fresh := by
    intro triggerId hf
    have hne : triggerId ≠ system.nextTrigger := Nat.ne_of_gt hf
    simp only [System.enqueueT2, get_put, if_neg hne]
    exact ha.fresh triggerId (Nat.le_of_succ_le hf)
  runs := by
    intro worker run hg
    have hm := ha.runs worker run hg
    rw [modelOf_enqueueT2, if_neg, hm]
    intro hn
    rw [hn, System.modelOf, ha.fresh _ (Nat.le_refl _)] at hm
    cases hm
  pending := fun first second h1 h2 hs =>
    eq_of_enqueueT2 hu.completed ha.pending (open_enqueueT2 h1) (open_enqueueT2 h2) hs
  live := fun first second h1 h2 hs =>
    eq_of_enqueueT2 (fun _ => hu.not_live) ha.live (ha.live_enqueueT2 h1) (ha.live_enqueueT2 h2) hs
  settled := by
    intro e he triggerId hm hl
    rw [modelOf_enqueueT2] at hm
    rcases ha.live_enqueueT2 hl with hn | ⟨ho, hb⟩
    · rw [if_pos hn] at hm
      exact hu.unresolved e he (Option.some.inj hm).symm
    · rw [if_neg ho] at hm
      exact ha.settled e he triggerId hm hb
  once := ha.once
  counted := ha.counted
  fits := ha.fits
  nudged := ha.nudged

end

variable {worker : Nat} {run : Run}

theorem Accounted.handle {residual : Bool} (hac : Accounted start system)
    (hs : system.handle worker triggerId residual = some after) :
    Accounted start after := by
  obtain ⟨row, hr, hgr⟩ := Option.bind_eq_some_iff.mp hs
  obtain ⟨hf, ha⟩ := Option.ite_none_left_eq_some.mp hgr
  cases ha
  simp only [Bool.or_eq_true, Option.isSome_iff_ne_none, ne_eq, not_or, not_not] at hf
  have hop : system.Open triggerId := ⟨row, hr, hf.2⟩
  have hm : system.modelOf triggerId = some row.modelId := by simp [System.modelOf, hr]
  let next : System := { system with
    runs := system.runs.put worker
      { triggerId
        modelId := row.modelId
        tenantId := row.tenantId
        resolution := handleT2Prediction system.domain system.due row.modelId
          row.provisionalOutcome residual system.clock } }
  have hl : ∀ other, next.Live other → system.Live other := by
    rintro other ⟨hap, ho | ⟨taker, run, hg, ht, hed⟩⟩
    · exact ⟨hap, .inl ho⟩
    · simp only [next, get_put] at hg
      split at hg
      · cases hg
        cases ht
        exact ⟨hap, .inl hop⟩
      · exact ⟨hap, .inr ⟨taker, run, hg, ht, hed⟩⟩
  exact
    { fresh := hac.fresh
      runs := by
        intro taker run hg
        simp only [get_put] at hg
        split at hg
        · cases hg
          exact hm
        · exact hac.runs taker run hg
      pending := hac.pending
      live := fun first second h1 h2 =>
        hac.live first second (hl first h1) (hl second h2)
      settled := fun e he other ho ha =>
        hac.settled e he other ho (hl other ha)
      once := hac.once
      counted := hac.counted
      fits := by
        intro taker run hg hed hap
        simp only [get_put] at hg
        split at hg
        · cases hg
          exact fits_handleT2Prediction _ _ _ _ _ _
        · exact hac.fits taker run hg hed hap
      nudged := hac.nudged }

theorem subsides_ended (hg : system.runs.get worker = some run) (supply : Nat) :
    Subsides system { system with
      supply, runs := system.runs.put worker { run with ended := true } } where
  domain := rfl
  resolved := rfl
  applied := rfl
  next := rfl
  models := fun _ => rfl
  opens := fun _ => id
  runs := by
    intro taker found hf
    simp only [get_put] at hf
    split at hf
    · next hs =>
      cases hf
      exact ⟨run, hs ▸ hg, rfl, rfl, rfl, nofun⟩
    · exact ⟨found, hf, rfl, rfl, rfl, id⟩

theorem of_get_remove {runs : Table Nat Run}
    (hf : (runs.remove worker).get taker = some found) : runs.get taker = some found := by
  rw [get_remove] at hf
  split at hf
  · cases hf
  · exact hf

theorem subsides_left (worker : Nat) :
    Subsides system { system with runs := system.runs.remove worker } where
  domain := rfl
  resolved := rfl
  applied := rfl
  next := rfl
  models := fun _ => rfl
  opens := fun _ => id
  runs := fun _ found hf => ⟨found, of_get_remove hf, rfl, rfl, rfl, id⟩

theorem subsides_completed (worker : Nat) (run : Run) : Subsides system { system with
      queue := system.queue.update run.triggerId fun row =>
        { row with completedAt := some system.clock }
      runs := system.runs.remove worker } where
  domain := rfl
  resolved := rfl
  applied := rfl
  next := rfl
  models := by
    intro triggerId
    simp only [System.modelOf, get_update]
    split
    · cases system.queue.get triggerId <;> rfl
    · rfl
  opens := by
    rintro triggerId ⟨row, hr, hc⟩
    simp only [get_update] at hr
    split at hr
    · obtain ⟨old, -, rfl⟩ := Option.map_eq_some_iff.mp hr
      cases hc
    · exact ⟨row, hr, hc⟩
  runs := fun _ found hf => ⟨found, of_get_remove hf, rfl, rfl, rfl, id⟩

theorem Fits.other {db : DomainDb} {other : Nat}
    {ctx : ApplyContext} {n : Nat} (hf : Fits db other resolution)
    (hap : Fits db modelId applied) (ho : other ≠ modelId) :
    Fits ((applyResolution ctx applied).exec change db n).state other resolution where
  confirmed := by
    intro op hop count hc
    obtain ⟨hother, hm, hbe⟩ := hf.confirmed op hop count hc
    refine ⟨hother, hm, fun belief ha => ?_⟩
    obtain ⟨before, hb, hs, -⟩ := hap.counts_other ho ha
    rw [hs]
    exact hbe before hb
  contested := by
    intro op hop count hc
    obtain ⟨hother, hm, hbe⟩ := hf.contested op hop count hc
    refine ⟨hother, hm, fun belief ha => ?_⟩
    obtain ⟨before, hb, -, hs⟩ := hap.counts_other ho ha
    rw [hs]
    exact hbe before hb

theorem Run.mem_resolved (hm : e ∈ run.resolved) : e.modelId = run.modelId ∧ e.nudged.Nodup := by
  obtain ⟨outcome, -, rfl⟩ := mem_map.mp hm
  exact ⟨rfl, nodup_dedup _⟩

theorem Run.length_resolved (run : Run) :
    run.resolved.length = run.resolution.outcome.toList.length :=
  length_map _

theorem Run.countP_resolved_le (run : Run) (modelId : Nat) :
    run.resolved.countP (fun e => e.modelId = modelId) ≤ 1 := by
  calc run.resolved.countP (fun e => e.modelId = modelId)
      ≤ run.resolved.length := countP_le_length
    _ ≤ 1 := by
      rw [run.length_resolved]
      cases run.resolution.outcome <;> simp

theorem Run.countP_resolved (run : Run) : run.resolved.countP (fun e => e.modelId = run.modelId) =
      run.resolution.outcome.toList.length := by
  rw [← run.length_resolved, countP_eq_length]
  exact fun e he => decide_eq_true (Run.mem_resolved he).1

/-- A run commits: its trigger is applied, and was the only one that could still
resolve its model. -/
theorem Accounted.commit (hac : Accounted start system)
    (hg : system.runs.get worker = some run) (hed : run.ended = false)
    (hn : system.applied.get run.triggerId = none) (ctx : ApplyContext) (supply : Nat)
    (row : AppliedRow) : Accounted start { system with
      domain := ((applyResolution ctx run.resolution).exec change system.domain system.supply).state
      supply
      runs := system.runs.put worker { run with ended := true }
      applied := system.applied.put run.triggerId row
      resolved := system.resolved ++ run.resolved } := by
  have hm := hac.runs worker run hg
  have hft := hac.fits worker run hg hed hn
  have hl : system.Live run.triggerId := ⟨hn, .inr ⟨worker, run, hg, rfl, hed⟩⟩
  have hun : system.resolutions run.modelId = 0 := by
    refine countP_eq_zero.mpr fun entry he hs => ?_
    exact hac.settled entry he run.triggerId (by rw [hm, of_decide_eq_true hs]) hl
  have hnt : ∀ {triggerId}, (system.applied.put run.triggerId row).get triggerId = none →
      triggerId ≠ run.triggerId ∧ system.applied.get triggerId = none := by
    intro triggerId hap
    rw [get_put] at hap
    split at hap
    · cases hap
    · next hne => exact ⟨hne, hap⟩
  have hr : ∀ {taker found}, (system.runs.put worker { run with ended := true }).get taker =
      some found → found.ended = false → system.runs.get taker = some found := by
    intro taker found hf hrn
    rw [get_put] at hf
    split at hf
    · cases hf
      cases hrn
    · exact hf
  let next : System := { system with
    supply
    runs := system.runs.put worker { run with ended := true }
    applied := system.applied.put run.triggerId row }
  have hb : ∀ triggerId, next.Live triggerId → triggerId ≠ run.triggerId ∧
      system.Live triggerId := by
    rintro triggerId ⟨hap, ho | ⟨taker, found, hf, ht, hrn⟩⟩
    · exact ⟨(hnt hap).1, (hnt hap).2, .inl ho⟩
    · exact ⟨(hnt hap).1, (hnt hap).2, .inr ⟨taker, found, hr hf hrn, ht, hrn⟩⟩
  constructor
  · exact hac.fresh
  · intro taker found hf
    rw [get_put] at hf
    split at hf
    · cases hf
      exact hm
    · exact hac.runs taker found hf
  · exact hac.pending
  · exact fun first second h1 h2 =>
      hac.live first second (hb first h1).2 (hb second h2).2
  · intro entry he triggerId ht ha
    obtain ⟨hne, hbf⟩ := hb triggerId ha
    rcases mem_append.mp he with hold | hnw
    · exact hac.settled entry hold triggerId ht hbf
    · apply hne
      apply hac.live triggerId run.triggerId hbf hl
      rw [hm, ← (Run.mem_resolved hnw).1]
      exact ht
  · intro modelId
    rw [System.resolutions, countP_append]
    by_cases hs : modelId = run.modelId
    · subst hs
      have hz : system.resolved.countP (fun entry => entry.modelId = run.modelId) = 0 :=
        hun
      have hon := run.countP_resolved_le run.modelId
      omega
    · have hother : run.resolved.countP (fun entry => entry.modelId = modelId) = 0 := by
        refine countP_eq_zero.mpr fun entry he hen => hs ?_
        rw [← of_decide_eq_true hen, (Run.mem_resolved he).1]
      rw [hother]
      exact hac.once modelId
  · intro modelId
    rw [System.resolutions, countP_append]
    dsimp only
    have hc := hac.counted modelId
    rw [System.resolutions] at hc
    by_cases hs : modelId = run.modelId
    · subst hs
      have had := hft.counted_le ctx system.supply
      rw [← run.countP_resolved] at had
      omega
    · have hk := hft.counted_other_le ctx system.supply hs
      omega
  · intro taker found hf hrn hap
    obtain ⟨hne, hu⟩ := hnt hap
    have hold := hr hf hrn
    refine (hac.fits taker found hold hrn hu).other hft fun hs => ?_
    apply hne
    apply hac.live found.triggerId run.triggerId ⟨hu, .inr ⟨taker, found, hold, rfl, hrn⟩⟩ hl
    rw [hac.runs taker found hold, hm, hs]
  · intro entry he
    rcases mem_append.mp he with hold | hnw
    · exact hac.nudged entry hold
    · exact (Run.mem_resolved hnw).2

theorem Accounted.applyRun (ha : Accounted start system)
    (hg : system.runs.get worker = some run) (he : run.ended = false) (ctx : ApplyContext) :
    Accounted start (system.applyRun worker run ctx) := by
  unfold System.applyRun
  split
  · exact ha.subside (subsides_ended hg system.supply)
  · next hap =>
    have hn : system.applied.get run.triggerId = none := by simpa using hap
    split
    · next domain supply hx =>
      have hc := ha.commit hg he hn ctx supply
        { tenantId := run.tenantId, appliedAt := system.clock }
      rwa [hx] at hc
    · next error domain supply hx => exact ha.subside (subsides_ended hg supply)

theorem Accounted.step (hac : Accounted start system)
    (hal : EnqueuesUnresolved system action) (hs : system.step action = some after) :
    Accounted start after := by
  have hc : ∀ resolver cycle, Subsides system (system.withCycle resolver cycle) :=
    fun _ _ => .of_same rfl rfl rfl rfl rfl rfl
  cases action
  case tick seconds =>
    cases hs
    exact hac.subside (.of_same rfl rfl rfl rfl rfl rfl)
  case begin resolver =>
    obtain ⟨-, ha⟩ := Option.ite_none_left_eq_some.mp hs
    cases ha
    exact hac.subside (hc _ _)
  case enqueue resolver provisionalOutcome =>
    obtain ⟨cycle, hg, ha⟩ := Option.bind_eq_some_iff.mp hs
    split at ha
    · next predictionId tenantId rest _ hp =>
      cases ha
      have hu := hal cycle hg (predictionId, tenantId) (by simp [hp])
      exact (hac.enqueueT2 hu tenantId provisionalOutcome).subside
        (.of_same rfl rfl rfl rfl rfl rfl)
    · cases ha
  case crash resolver =>
    obtain ⟨cycle, -, ha⟩ := Option.map_eq_some_iff.mp hs
    cases ha
    exact hac.subside (.of_same rfl rfl rfl rfl rfl rfl)
  case handle worker triggerId residual => exact hac.handle hs
  case apply worker ctx =>
    obtain ⟨run, hg, ha⟩ := Option.bind_eq_some_iff.mp hs
    obtain ⟨he, hap⟩ := Option.ite_none_left_eq_some.mp ha
    cases hap
    exact hac.applyRun hg (by simpa using he) ctx
  case fail worker =>
    obtain ⟨run, hg, ha⟩ := Option.bind_eq_some_iff.mp hs
    obtain ⟨-, he⟩ := Option.ite_none_left_eq_some.mp ha
    cases he
    exact hac.subside (subsides_ended hg system.supply)
  case complete worker =>
    obtain ⟨run, hg, ha⟩ := Option.bind_eq_some_iff.mp hs
    obtain ⟨-, hcp⟩ := Option.ite_none_right_eq_some.mp ha
    cases hcp
    exact hac.subside (subsides_completed worker run)
  case leave worker =>
    obtain ⟨run, hg, ha⟩ := Option.map_eq_some_iff.mp hs
    cases ha
    exact hac.subside (subsides_left worker)
  all_goals obtain ⟨cycle, -, ha⟩ := Option.bind_eq_some_iff.mp hs
  case scan resolver limit =>
    split at ha
    · cases ha
      exact hac.subside (hc _ _)
    · cases ha
      exact hac.subside (.of_same rfl rfl rfl rfl rfl rfl)
    · cases ha
  all_goals
    split at ha
    · cases ha
      exact hac.subside (hc _ _)
    · cases ha

/-- In every run in which resolvers enqueue only unresolved predictions, a
prediction is resolved at most once. -/
theorem resolved_once (hcalm : Calm start)
    (hreach : Reach System.step EnqueuesUnresolved start system) : ResolvedOnce start system :=
  (hreach.invariant (Accounted.of_calm hcalm)
    fun _ _ _ haccounted hallowed hstep => haccounted.step hallowed hstep).resolvedOnce

def enqueuesUnresolved (system : System) : Action → Bool
  | .enqueue resolver _ => (system.resolvers.get resolver).all fun cycle =>
      cycle.predictions.head?.all fun prediction =>
        !(system.queue.any fun _ row => row.modelId = prediction.1) &&
          system.resolved.all fun entry => entry.modelId != prediction.1
  | _ => true

theorem enqueuesUnresolved_of_check
    (hch : enqueuesUnresolved system action) : EnqueuesUnresolved system action := by
  cases action with
  | enqueue resolver provisionalOutcome =>
    intro cycle hc prediction hp
    simp only [enqueuesUnresolved, hc, Option.all_some, Option.mem_def.mp hp,
      Bool.and_eq_true, Bool.not_eq_true', all_eq_true, bne_iff_ne] at hch
    have hn : ∀ triggerId, system.modelOf triggerId ≠ some prediction.1 := by
      intro triggerId hm
      obtain ⟨row, hr, hs⟩ := Option.map_eq_some_iff.mp hm
      have ha : (system.queue.any fun _ row => row.modelId = prediction.1) :=
        (any_iff _ _).mpr ⟨triggerId, row, hr, decide_eq_true hs⟩
      rw [hch.1] at ha
      cases ha
    exact ⟨fun triggerId hm => absurd hm (hn triggerId),
      fun triggerId hm => absurd hm (hn triggerId), hch.2⟩
  | _ => trivial

def dueModel : Models.ModelRow where
  tenantId := 0
  proposition := .object []
  createdAt := 0

def oneDue : System where
  clock := 100
  domain :=
    { acts := { tenants := [0] }
      models := { models := (∅ : Table Nat Models.ModelRow).put 7 dueModel }
      beliefs := (∅ : Table Nat BeliefRow).put 7 { confidence := 1 / 2 } }
  supply := 1000
  due := (∅ : Table Nat DueRow).put 7 { evaluateAt := some 50, falsifier := .predictionDeadline }
  nextTrigger := 1

theorem oneDue_calm : Calm oneDue where
  fresh := fun _ _ => rfl
  runs := fun _ => rfl
  resolved := rfl
  pending := by
    rintro first - ⟨row, hr, -⟩
    cases hr

def deadlineContext : ApplyContext where
  clock := ⟨0, 0⟩
  tenantId := 0
  decimal := fun _ => ""

def resolves (triggerId : Nat) : List Action :=
  [.begin 0, .scan 0 50, .checkPending 0, .checkApplied 0, .enqueue 0 .confirmed, .scan 0 50,
    .handle 0 triggerId false, .apply 0 deadlineContext, .complete 0]

/-- Two resolvers find the prediction due, and two workers take the trigger of the first. -/
theorem resolved_once_shared : ∃ system, Reach System.step EnqueuesUnresolved oneDue system ∧
      system.resolutions 7 = 1 ∧ ResolvedOnce oneDue system := by
  have hrun : (runChecked System.step enqueuesUnresolved oneDue
      [.begin 0, .begin 1, .scan 0 50, .scan 1 50, .checkPending 0, .checkApplied 0,
        .enqueue 0 .confirmed, .checkPending 1, .handle 0 1 false, .handle 1 1 false,
        .apply 0 deadlineContext, .apply 1 deadlineContext, .complete 0, .complete 1]).any
      (fun system => system.resolutions 7 = 1) := by
    decide +kernel
  obtain ⟨system, hsystem, hresolved⟩ := (Option.any_eq_true _ _).mp hrun
  have hreach := reach_of_runChecked (fun _ _ => enqueuesUnresolved_of_check) hsystem
  exact ⟨system, hreach, of_decide_eq_true hresolved, resolved_once oneDue_calm hreach⟩

/-- The model stays active and due: after the lookback it is resolved again. -/
theorem resolved_twice : ¬ ∀ start system : System, Calm start →
    Reach System.step anyStep start system → ResolvedOnce start system := by
  have hrun : (runAll System.step oneDue (resolves 1 ++ .tick 3601 :: resolves 2)).any
      (fun system => system.resolutions 7 = 2) := by
    decide +kernel
  obtain ⟨system, hsystem, htwice⟩ := (Option.any_eq_true _ _).mp hrun
  intro hall
  have honce := (hall oneDue system oneDue_calm (reach_of_run hsystem)).resolved 7
  rw [of_decide_eq_true htwice] at honce
  exact absurd honce (by decide)

end FyralisCore.Deadlines
