import FyralisCore.Ingestion.CircuitBreaker
import FyralisCore.Lib.Reach

/-! The breaker sets a flag to FALSE only after a full window of ticks in breach.
Its counter is all it knows of the window, so the law stands on the counter being
no higher than the run of such ticks: when the flag is switched on it has to be
cleared, and no crash may bring a higher one back. -/
namespace FyralisCore.Ingestion

open Transition Option Function

variable {Tenant : Type} [DecidableEq Tenant] {config : BreakerConfig}
  {system after : BreakerSystem Tenant} {process : BreakerProcess Tenant}

/-- The latest active ticks in breach, with no other and no switching on among them. -/
def breachRun (history : List TickEvent) : Nat :=
  (history.takeWhile (· = .breached)).length

def TripsSound (config : BreakerConfig) (system : BreakerSystem Tenant) : Prop :=
  ∀ trip ∈ system.trips, config.breachWindowTicks ≤ breachRun trip.2

/-- The counter is at zero, or will be when the flag is next seen on. -/
def Clear (found : Option TenantBreachState) : Prop :=
  ∀ entry ∈ found, entry.tripped ∨ entry.consecutiveBreachTicks = 0

/-- What the breaker knows of the tenant: its memory, or the table while no process
runs. -/
def BreakerSystem.bookkeeping (system : BreakerSystem Tenant) (tenant : Tenant) :
    Option TenantBreachState :=
  match system.process with
  | some process => process.state tenant
  | none => system.rows tenant

/-- The row would not bring back a higher counter than the one in memory. -/
def NotAhead (row found : Option TenantBreachState) : Prop :=
  Clear row ∨ ∀ stored ∈ row, ∃ entry ∈ found, entry.tripped = false ∧
    stored.consecutiveBreachTicks ≤ entry.consecutiveBreachTicks

/-- The condition on the steps of a run. A flag is switched on only while the
bookkeeping is clear; a process is gone only while no row of a tenant whose flag is on is
ahead of its memory; a failed read of a flag gives its value, or finds the counter
clear, or passes over a breach. -/
def BookkeepingStands (config : BreakerConfig) (system : BreakerSystem Tenant) :
    BreakerAction Tenant → Prop
  | .operator tenant value => system.enabled config tenant = false →
      value.getD config.pathDefault → Clear (system.bookkeeping tenant)
  | .crash => ∀ process, system.process = some process → ∀ tenant,
      system.enabled config tenant → NotAhead (system.rows tenant) (process.state tenant)
  | .flag .readFails => ∀ process, system.process = some process → ∀ tick tenant lanes,
      process.phase = .deciding tick tenant lanes →
        config.pathDefault = system.enabled config tenant ∨ Clear (process.state tenant) ∨
          config.pathDefault = false ∧ tickEvent config tick lanes = .breached
  | _ => True

/-! ### What a process may answer without a new SELECT -/

def FlagReader.MayAnswer (pathDefault : Bool) (now : Nat) (reader : FlagReader Tenant Unit)
    (tenant : Tenant) (value : Bool) : Prop :=
  reader.fresh now tenant = some value ∨
    ∃ row, reader.reading = some ⟨tenant, (), some row⟩ ∧ row.getD pathDefault = value

section

variable {pathDefault value : Bool} {ttl now u : Nat} {flags : Tenant → Option Bool}
  {reader reader' : FlagReader Tenant Unit} {move : FlagMove Tenant Unit} {tenant : Tenant}
  {answer : Option (FlagAnswer Tenant Unit)}

omit [DecidableEq Tenant] in
theorem mayAnswer_of_le (hl : now ≤ u) (hm : reader.MayAnswer pathDefault u tenant value) :
    reader.MayAnswer pathDefault now tenant value :=
  hm.imp_left (fresh_of_le hl)

theorem mayAnswer_move (hmv : reader.move pathDefault ttl now flags move = some (reader', answer))
    (hm : reader'.MayAnswer pathDefault now tenant value) :
    reader.MayAnswer pathDefault now tenant value ∨ value = (flags tenant).getD pathDefault := by
  cases move with
  | lookUp other caller =>
    obtain ⟨_, -, he⟩ := map_eq_some_iff.mp hmv
    cases he
    exact .inl hm
  | beginRead other caller =>
    obtain ⟨-, he⟩ := ite_none_right_eq_some.mp hmv
    cases he
    rcases hm with hf | ⟨row, hr, -⟩
    · exact .inl (.inl hf)
    · cases hr
  | select =>
    simp only [FlagReader.move] at hmv
    split at hmv
    · cases hmv
      rcases hm with hf | ⟨row, hr, hv⟩
      · exact .inl (.inl hf)
      · cases hr
        exact .inr hv.symm
    · cases hmv
  | endRead =>
    simp only [FlagReader.move] at hmv
    split at hmv
    · next other caller row hr =>
      cases hmv
      rcases hm with hf | ⟨found, ho, -⟩
      · by_cases hs : tenant = other
        · subst hs
          exact .inl (.inr ⟨row, hr, (fresh_store_self hf).symm⟩)
        · rw [fresh_store hs] at hf
          exact .inl (.inl hf)
      · cases ho
    · cases hmv
  | readFails =>
    obtain ⟨_, -, he⟩ := map_eq_some_iff.mp hmv
    cases he
    rcases hm with hf | ⟨row, hr, -⟩
    · exact .inl (.inl hf)
    · cases hr
  | abandon =>
    cases hmv
    rcases hm with hf | ⟨row, hr, -⟩
    · exact .inl (.inl hf)
    · cases hr
  | invalidate other =>
    cases hmv
    rcases hm with hf | hr
    · refine .inl (.inl ?_)
      by_cases hs : tenant = other
      · subst hs
        simp [FlagReader.fresh] at hf
      · simpa only [FlagReader.fresh, update_of_ne hs] using hf
    · exact .inl (.inr hr)

/-- An answer is one that might be given, or the default of a failed read; afterwards the
process can answer nothing else. -/
theorem mayAnswer_of_answer (hc : reader.Current pathDefault now)
    (hmv : reader.move pathDefault ttl now flags move = some (reader', some ⟨tenant, (), value⟩)) :
    (reader.MayAnswer pathDefault now tenant value ∨ move = .readFails ∧ value = pathDefault) ∧
      ∀ other, reader'.MayAnswer pathDefault now tenant other → other = value := by
  have hs := hc.reading_stale
  cases move with
  | lookUp found caller =>
    obtain ⟨answered, hf, he⟩ := map_eq_some_iff.mp hmv
    cases he
    refine ⟨.inl (.inl hf), fun other hm => ?_⟩
    rcases hm with ho | ⟨row, hr, -⟩
    · exact Option.some.inj (ho.symm.trans hf)
    · have hn := hs _ hr
      rw [hf] at hn
      cases hn
  | endRead =>
    simp only [FlagReader.move] at hmv
    split at hmv
    · next found caller row hr =>
      cases hmv
      refine ⟨.inl (.inr ⟨row, hr, rfl⟩), fun other hm => ?_⟩
      rcases hm with hf | ⟨_, ho, -⟩
      · exact fresh_store_self hf
      · cases ho
    · cases hmv
  | readFails =>
    obtain ⟨read, hr, he⟩ := map_eq_some_iff.mp hmv
    cases he
    refine ⟨.inr ⟨rfl, rfl⟩, fun other hm => ?_⟩
    rcases hm with hf | ⟨_, ho, -⟩
    · have hn := hs _ hr
      rw [show reader.fresh now read.tenant = some other from hf] at hn
      cases hn
    · cases ho
  | beginRead | select | abandon | invalidate =>
    simp only [FlagReader.move] at hmv
    grind

end

/-- The counter is no higher than the run of breaches, or will be reset. -/
def Counts (history : List TickEvent) (found : Option TenantBreachState) : Prop :=
  ∀ entry ∈ found, entry.tripped ∨ entry.consecutiveBreachTicks ≤ breachRun history

structure TenantKept (config : BreakerConfig) (system : BreakerSystem Tenant)
    (process : BreakerProcess Tenant) (tenant : Tenant) : Prop where
  enabled : system.enabled config tenant →
    Counts (system.history tenant) (process.state tenant)
  staleOff : system.enabled config tenant →
    process.flags.MayAnswer config.pathDefault system.clock tenant false →
      Clear (process.state tenant)
  staleOn : system.enabled config tenant = false →
    process.flags.MayAnswer config.pathDefault system.clock tenant true →
      Counts (system.history tenant) (process.state tenant)
  flipping : ∀ tick, process.phase = .flipping tick tenant → ∃ entry,
    process.state tenant = some entry ∧ entry.tripped = false ∧
      config.breachWindowTicks ≤ entry.consecutiveBreachTicks ∧
        entry.consecutiveBreachTicks ≤ breachRun (system.history tenant)

structure BreakerKept (config : BreakerConfig) (system : BreakerSystem Tenant) : Prop where
  trips : TripsSound config system
  stored : system.process = none → ∀ tenant, system.enabled config tenant →
    Counts (system.history tenant) (system.rows tenant)
  current : ∀ process, system.process = some process →
    process.flags.Current config.pathDefault system.clock
  tenants : ∀ process, system.process = some process → ∀ tenant,
    TenantKept config system process tenant

omit [DecidableEq Tenant] in
theorem breachRun_breached (history : List TickEvent) :
    breachRun (.breached :: history) = breachRun history + 1 := by
  simp [breachRun]

theorem Clear.counts (hc : Clear found) (history : List TickEvent) : Counts history found := by
  intro e he
  refine (hc e he).imp_right fun hz => ?_
  rw [hz]
  exact Nat.zero_le _

theorem Counts.breached (hc : Counts history found) : Counts (.breached :: history) found := by
  intro e he
  refine (hc e he).imp_right fun hl => ?_
  exact Nat.le_succ_of_le hl

omit [DecidableEq Tenant] in
variable (config) in
theorem counts_updateBreachCounter
    (hc : Counts history found) (tick : Tick Tenant) (lanes : SourcePartitions) :
    let counted := updateBreachCounter config (entryForTenant found tick.now)
      (worstLaneForTenant tick.lagPerSource lanes)
    counted.tripped = false ∧
      counted.consecutiveBreachTicks ≤ breachRun (tickEvent config tick lanes :: history) := by
  have he : (entryForTenant found tick.now).tripped = false ∧
      (entryForTenant found tick.now).consecutiveBreachTicks ≤ breachRun history := by
    unfold entryForTenant
    split
    · next e =>
      split
      · exact ⟨rfl, Nat.zero_le _⟩
      · next hn => exact ⟨by simpa using hn, (hc e rfl).resolve_left hn⟩
    · exact ⟨rfl, Nat.zero_le _⟩
  unfold updateBreachCounter tickEvent
  split
  · rw [breachRun_breached]
    exact ⟨he.1, Nat.succ_le_succ he.2⟩
  · exact ⟨he.1, Nat.zero_le _⟩

omit [DecidableEq Tenant] in
theorem TenantKept.of_same (hk : TenantKept config system process tenant)
    (he : after.enabled config tenant = system.enabled config tenant)
    (hh : after.history tenant = system.history tenant)
    (hs : u.state tenant = process.state tenant)
    (ha : ∀ value, u.flags.MayAnswer config.pathDefault after.clock tenant value →
      process.flags.MayAnswer config.pathDefault system.clock tenant value ∨
        value = system.enabled config tenant)
    (hp : ∀ tick, u.phase = .flipping tick tenant → process.phase = .flipping tick tenant) :
    TenantKept config after u tenant where
  enabled := by
    rw [he, hh, hs]
    exact hk.enabled
  staleOff := by
    rw [he, hs]
    intro hon hm
    rcases ha _ hm with hb | hv
    · exact hk.staleOff hon hb
    · rw [hon] at hv
      cases hv
  staleOn := by
    rw [he, hh, hs]
    intro ho hm
    rcases ha _ hm with hb | hv
    · exact hk.staleOn ho hb
    · rw [ho] at hv
      cases hv
  flipping := by
    intro tick hf
    rw [hh, hs]
    exact hk.flipping tick (hp tick hf)

omit [DecidableEq Tenant] in
/-- The tenant's flag has changed, and is not switched on unless the counter is
clear. -/
theorem TenantKept.of_flag (hk : TenantKept config system process tenant)
    (hs : u.state tenant = process.state tenant)
    (hfl : u.flags = process.flags) (hcl : after.clock = system.clock)
    (hp : ∀ tick, u.phase = .flipping tick tenant → process.phase = .flipping tick tenant)
    (hclr : system.enabled config tenant = false → after.enabled config tenant →
      Clear (process.state tenant)) (hh : after.history tenant = system.history tenant ∨
      system.enabled config tenant = false ∧ after.enabled config tenant) :
    TenantKept config after u tenant := by
  by_cases hon : system.enabled config tenant = false ∧ after.enabled config tenant
  · have hc := hclr hon.1 hon.2
    constructor
    · intro _
      rw [hs]
      exact hc.counts _
    · intro _ _
      rwa [hs]
    · intro hof
      rw [hon.2] at hof
      cases hof
    · intro tick hf
      obtain ⟨e, he, ho, hw, -⟩ := hk.flipping tick (hp tick hf)
      have hz : e.consecutiveBreachTicks = 0 :=
        (hc e he).resolve_left (by simp [ho])
      refine ⟨e, hs.trans he, ho, hw, ?_⟩
      rw [hz]
      exact Nat.zero_le _
  · have hh := hh.resolve_right hon
    constructor
    · intro ha
      rw [hh, hs]
      cases hb : system.enabled config tenant with
      | false => exact absurd ⟨hb, ha⟩ hon
      | true => exact hk.enabled hb
    · intro ha
      rw [hs, hfl, hcl]
      cases hb : system.enabled config tenant with
      | false => exact absurd ⟨hb, ha⟩ hon
      | true => exact hk.staleOff hb
    · intro _ hm
      rw [hfl, hcl] at hm
      rw [hh, hs]
      cases hb : system.enabled config tenant with
      | false => exact hk.staleOn hb hm
      | true => exact hk.enabled hb
    · intro tick hf
      rw [hh, hs]
      exact hk.flipping tick (hp tick hf)

section Decide

variable {tick : Tick Tenant} {tenant other : Tenant} {lanes : SourcePartitions}
  {reader : FlagReader Tenant Unit} {move : FlagMove Tenant Unit} {value : Bool}

theorem state_decide_of_ne (hn : other ≠ tenant) :
    (process.decide config tick tenant lanes value).state other = process.state other := by
  unfold BreakerProcess.decide
  split
  · exact update_of_ne hn _ _
  · split
    · split
      · exact update_of_ne hn _ _
      · rfl
    · rfl

@[simp] theorem flags_decide :
    (process.decide config tick tenant lanes value).flags = process.flags := by
  unfold BreakerProcess.decide
  grind

theorem phase_decide_ne (hn : other ≠ tenant) :
    (process.decide config tick tenant lanes value).phase ≠ .flipping u other := by
  unfold BreakerProcess.decide
  grind

theorem state_decide_false
    (he : (process.decide config tick tenant lanes false).state tenant = some e) :
    ∃ before, process.state tenant = some before ∧ before.tripped = e.tripped ∧
      before.consecutiveBreachTicks = e.consecutiveBreachTicks := by
  unfold BreakerProcess.decide at he
  rw [if_neg Bool.false_ne_true] at he
  split at he
  · next found hf =>
    split at he
    · dsimp only at he
      rw [update_self] at he
      cases he
      exact ⟨found, hf, rfl, rfl⟩
    · exact ⟨e, he, rfl, rfl⟩
  · exact ⟨e, he, rfl, rfl⟩

theorem Clear.decide_false (hc : Clear (process.state tenant)) :
    Clear ((process.decide config tick tenant lanes false).state tenant) := by
  intro e he
  obtain ⟨before, hb, ht, hcn⟩ := state_decide_false he
  rw [← ht, ← hcn]
  exact hc before hb

theorem Counts.decide_false (hc : Counts history (process.state tenant)) :
    Counts history ((process.decide config tick tenant lanes false).state tenant) := by
  intro e he
  obtain ⟨before, hb, ht, hcn⟩ := state_decide_false he
  rw [← ht, ← hcn]
  exact hc before hb

theorem phase_decide_false :
    (process.decide config tick tenant lanes false).phase ≠ .flipping u other := by
  unfold BreakerProcess.decide
  grind

omit [DecidableEq Tenant] in
theorem TenantKept.counts_of_on (hk : TenantKept config system process tenant)
    (hpr : system.process = some process) (hp : process.phase = .deciding tick tenant lanes)
    (hsd : BookkeepingStands config system (.flag move))
    (ha : process.flags.MayAnswer config.pathDefault system.clock tenant true ∨
      move = .readFails ∧ true = config.pathDefault) :
    Counts (system.history tenant) (process.state tenant) := by
  cases he : system.enabled config tenant with
  | true => exact hk.enabled he
  | false =>
    rcases ha with hm | ⟨rfl, hd⟩
    · exact hk.staleOn he hm
    · rcases hsd process hpr tick tenant lanes hp with hs | hc | ⟨ho, -⟩
      · rw [he, ← hd] at hs
        cases hs
      · exact hc.counts _
      · rw [← hd] at ho
        cases ho

omit [DecidableEq Tenant] in
/-- A tenant whose flag is on but is told to be off is passed over in breach, or its
counter is clear. -/
theorem TenantKept.clear_of_off (hk : TenantKept config system process tenant)
    (hpr : system.process = some process) (hp : process.phase = .deciding tick tenant lanes)
    (hsd : BookkeepingStands config system (.flag move))
    (ha : process.flags.MayAnswer config.pathDefault system.clock tenant false ∨
      move = .readFails ∧ false = config.pathDefault) (he : system.enabled config tenant) :
    Clear (process.state tenant) ∨ tickEvent config tick lanes = .breached := by
  rcases ha with hm | ⟨rfl, hd⟩
  · exact .inl (hk.staleOff he hm)
  · rcases hsd process hpr tick tenant lanes hp with hs | hc | ⟨-, hb⟩
    · rw [he, ← hd] at hs
      cases hs
    · exact .inl hc
    · exact .inr hb

theorem TenantKept.answered (hk : TenantKept config system process tenant)
    (hpr : system.process = some process)
    (hcr : process.flags.Current config.pathDefault system.clock)
    (hp : process.phase = .deciding tick tenant lanes)
    (hs : BookkeepingStands config system (.flag move))
    (hmv : process.flags.move config.pathDefault config.ttl system.clock system.flags move =
      some (reader, some ⟨tenant, (), value⟩))
    (hfl : after.flags = system.flags) (hc : after.clock = system.clock)
    (hh : after.history tenant = tickEvent config tick lanes :: system.history tenant) :
    TenantKept config after
      ({ process with flags := reader }.decide config tick tenant lanes value) tenant := by
  obtain ⟨ha, honl⟩ := mayAnswer_of_answer hcr hmv
  have hen : after.enabled config tenant = system.enabled config tenant := by
    rw [BreakerSystem.enabled, BreakerSystem.enabled, hfl]
  cases value with
  | true =>
    have hcn := hk.counts_of_on hpr hp hs ha
    obtain ⟨ho, hl⟩ := counts_updateBreachCounter config hcn tick lanes
    have haf : Counts (after.history tenant)
        (({ process with flags := reader }.decide config tick tenant lanes true).state tenant) := by
      rw [hh]
      intro e he
      simp only [BreakerProcess.decide, if_true, update_self, mem_def, Option.some.injEq] at he
      subst he
      exact .inr hl
    refine ⟨fun _ => haf, fun _ hm => ?_, fun _ _ => haf, fun u hf => ?_⟩
    · rw [flags_decide, hc] at hm
      cases honl _ hm
    · unfold BreakerProcess.decide at hf ⊢
      simp only [if_true] at hf ⊢
      refine ⟨_, update_self .., ho, ?_, ?_⟩
      · split at hf
        · assumption
        · cases hf
      · rw [hh]
        exact hl
  | false =>
    refine ⟨fun hon => ?_, fun hon hm => ?_, fun _ hm => ?_, fun u hf => ?_⟩
    · rw [hen] at hon
      rw [hh]
      apply Counts.decide_false
      rcases hk.clear_of_off hpr hp hs ha hon with hcl | hbr
      · exact hcl.counts _
      · rw [hbr]
        exact (hk.enabled hon).breached
    · rw [hen] at hon
      rw [flags_decide, hc] at hm
      apply Clear.decide_false
      rcases mayAnswer_move hmv hm with hb | hv
      · exact hk.staleOff hon hb
      · rw [show (system.flags tenant).getD config.pathDefault from hon] at hv
        cases hv
    · rw [flags_decide, hc] at hm
      cases honl _ hm
    · exact absurd hf phase_decide_false

end Decide

namespace BreakerKept

omit [DecidableEq Tenant] in
theorem initial {start : BreakerSystem Tenant} (hp : start.process = none)
    (hr : ∀ tenant, start.rows tenant = none) (htr : start.trips = []) :
    BreakerKept config start where
  trips trip ht := by
    rw [htr] at ht
    cases ht
  stored _ tenant _ e he := by
    rw [hr tenant] at he
    cases he
  current process hs := by
    rw [hp] at hs
    cases hs
  tenants process hs := by
    rw [hp] at hs
    cases hs

omit [DecidableEq Tenant] in
theorem move_on (hk : BreakerKept config system) (hpr : system.process = some process)
    (hp : ∀ tick tenant, phase = .flipping tick tenant → process.phase = .flipping tick tenant) :
    BreakerKept config { system with process := some { process with phase } } where
  trips := hk.trips
  stored hn := nomatch hn
  current u hl := by
    cases hl
    exact hk.current process hpr
  tenants u hl tenant := by
    cases hl
    exact (hk.tenants process hpr tenant).of_same rfl rfl rfl (fun _ => .inl)
      fun tick => hp tick tenant

theorem write_flag (hk : BreakerKept config system)
    (hclr : system.enabled config tenant = false → value.getD config.pathDefault →
      Clear (system.bookkeeping tenant))
    (hf : after.flags = Function.update system.flags tenant value)
    (hs : after.clock = system.clock ∧ after.rows = system.rows ∧
      after.process = system.process ∧ after.trips = system.trips)
    (hh : ∀ other, after.history other = system.history other ∨
      system.enabled config other = false ∧ after.enabled config other) :
    BreakerKept config after := by
  obtain ⟨hcl, hr, hp, ht⟩ := hs
  have hc : ∀ other, system.enabled config other = false →
      after.enabled config other → Clear (system.bookkeeping other) := by
    intro other hof hon
    unfold BreakerSystem.enabled at hon
    by_cases ho : other = tenant
    · subst ho
      rw [hf, update_self] at hon
      exact hclr hof hon
    · rw [hf, update_of_ne ho] at hon
      rw [BreakerSystem.enabled, hon] at hof
      cases hof
  constructor
  · intro trip htr
    exact hk.trips trip (ht ▸ htr)
  · intro hn other hon
    rw [hp] at hn
    rw [hr]
    cases hb : system.enabled config other with
    | true =>
      have hh := (hh other).resolve_right (by simp [hb])
      rw [hh]
      exact hk.stored hn other hb
    | false =>
      have hc := hc other hb hon
      rw [BreakerSystem.bookkeeping, hn] at hc
      exact hc.counts _
  · intro process hsm
    rw [hcl]
    exact hk.current process (hp ▸ hsm)
  · intro process hsm other
    rw [hp] at hsm
    refine (hk.tenants process hsm other).of_flag rfl rfl hcl (fun _ => id)
      (fun hof hon => ?_) (hh other)
    have hc := hc other hof hon
    rwa [BreakerSystem.bookkeeping, hsm] at hc

theorem operator (hk : BreakerKept config system)
    (hsd : BookkeepingStands config system (.operator tenant value))
    (hs : breakerStep config system (.operator tenant value) = some after) :
    BreakerKept config after := by
  have ha := Option.some.inj hs
  split at ha
  · next hon =>
    subst ha
    simp only [Bool.and_eq_true, Bool.not_eq_true'] at hon
    refine hk.write_flag hsd rfl ⟨rfl, rfl, rfl, rfl⟩ fun other => ?_
    by_cases ho : other = tenant
    · subst ho
      exact .inr hon
    · exact .inl (update_of_ne ho _ _)
  · subst ha
    exact hk.write_flag hsd rfl ⟨rfl, rfl, rfl, rfl⟩ fun _ => .inl rfl

theorem moveFlag (hk : BreakerKept config system)
    (hpr : system.process = some process) (hsd : BookkeepingStands config system (.flag move))
    (hst : system.moveFlag config process move = some after) : BreakerKept config after := by
  unfold BreakerSystem.moveFlag at hst
  split at hst
  · next tick tenant lanes hp =>
    have hc := hk.current process hpr
    split at hst
    · cases hst
    · next reader hmv =>
      cases hst
      refine ⟨hk.trips, nofun, fun u hl => ?_, fun u hl other => ?_⟩
      · cases hl
        exact current_move hc hmv
      · cases hl
        exact (hk.tenants process hpr other).of_same rfl rfl rfl
          (fun _ => mayAnswer_move hmv) fun _ => id
    · next reader answer hmv =>
      obtain ⟨hs, ha⟩ := ite_none_right_eq_some.mp hst
      cases ha
      obtain ⟨found, ⟨⟩, value⟩ := answer
      obtain rfl : found = tenant := hs
      refine ⟨hk.trips, nofun, fun u hl => ?_, fun u hl other => ?_⟩
      · cases hl
        rw [flags_decide]
        exact current_move hc hmv
      · cases hl
        by_cases ho : other = found
        · subst ho
          exact (hk.tenants process hpr other).answered hpr hc hp hsd hmv rfl rfl (update_self ..)
        · refine (hk.tenants process hpr other).of_same rfl (update_of_ne ho _ _)
            (state_decide_of_ne ho) (fun _ hm => ?_)
            fun _ hf => absurd hf (phase_decide_ne ho)
          rw [flags_decide] at hm
          exact mayAnswer_move hmv hm
  · cases hst

omit [DecidableEq Tenant] in
theorem elapse (hk : BreakerKept config system) (seconds : Nat) :
    BreakerKept config { system with clock := system.clock + seconds } where
  trips := hk.trips
  stored := hk.stored
  current process hp := (hk.current process hp).mono (Nat.le_add_right _ _)
  tenants process hp tenant :=
    (hk.tenants process hp tenant).of_same rfl rfl rfl
      (fun _ hm => .inl (mayAnswer_of_le (Nat.le_add_right _ _) hm)) fun _ => id

omit [DecidableEq Tenant] in
theorem load (hk : BreakerKept config system) (hn : system.process = none) :
    BreakerKept config { system with process := some { state := system.rows } } where
  trips := hk.trips
  stored := nofun
  current process hp := by
    cases hp
    exact current_initial
  tenants process hp tenant := by
    cases hp
    have hs : ∀ value,
        ¬ ({} : FlagReader Tenant Unit).MayAnswer config.pathDefault system.clock tenant value := by
      rintro value (hf | ⟨row, hr, -⟩)
      · cases hf
      · cases hr
    exact ⟨hk.stored hn tenant, fun _ hm => absurd hm (hs _),
      fun _ hm => absurd hm (hs _), nofun⟩

theorem trip (hk : BreakerKept config system) (hpr : system.process = some process)
    (hp : process.phase = .flipping tick tenant) : BreakerKept config { system with
      flags := Function.update system.flags tenant (some false)
      process := some { process with phase := .flipped tick tenant }
      trips := (tenant, system.history tenant) :: system.trips } := by
  have hf : BreakerKept config { system with
      process := some { process with phase := .flipped tick tenant } } :=
    hk.move_on hpr nofun
  have hwr : BreakerKept config { system with
      flags := Function.update system.flags tenant (some false)
      process := some { process with phase := .flipped tick tenant } } :=
    hf.write_flag (fun _ ho => by cases ho) rfl ⟨rfl, rfl, rfl, rfl⟩ fun _ => .inl rfl
  refine ⟨fun trip ht => ?_, hwr.stored, hwr.current, fun u hl other =>
    (hwr.tenants u hl other).of_same rfl rfl rfl (fun _ => .inl) fun _ => id⟩
  rcases List.mem_cons.mp ht with rfl | hb
  · obtain ⟨e, -, -, hw, hr⟩ := (hk.tenants process hpr tenant).flipping tick hp
    exact Int.le_trans hw (Int.ofNat_le.mpr hr)
  · exact hk.trips trip hb

theorem mark (hk : BreakerKept config system) (hp : system.process = some process)
        (hm : process.flags.move config.pathDefault config.ttl system.clock system.flags
      (.invalidate tenant) = some (reader, answer)) : BreakerKept config { system with
      process := some
        { state := Function.update process.state tenant ((process.state tenant).map fun e =>
            { e with tripped := true, trippedAt := some tick.now })
          flags := reader
          phase := .persisting tick tenant } } where
  trips := hk.trips
  stored := nofun
  current u hl := by
    cases hl
    exact current_move (hk.current process hp) hm
  tenants u hl other := by
    cases hl
    by_cases ho : other = tenant
    · subst ho
      have hc : Clear (Function.update process.state other ((process.state other).map fun e =>
            { e with tripped := true, trippedAt := some tick.now }) other) := by
        rw [update_self]
        intro e he
        obtain ⟨_, -, rfl⟩ := map_eq_some_iff.mp he
        exact .inl rfl
      exact ⟨fun _ => hc.counts _, fun _ _ => hc, fun _ _ => hc.counts _, nofun⟩
    · exact (hk.tenants process hp other).of_same rfl rfl (update_of_ne ho _ _)
        (fun _ => mayAnswer_move hm) nofun

omit [DecidableEq Tenant] in
theorem write_rows (hk : BreakerKept config system)
    (hp : system.process = some process) (rows : Tenant → Option TenantBreachState) :
    BreakerKept config { system with rows } where
  trips := hk.trips
  stored hn := by
    rw [show system.process = none from hn] at hp
    cases hp
  current := hk.current
  tenants u hl tenant :=
    (hk.tenants u hl tenant).of_same rfl rfl rfl (fun _ => .inl) fun _ => id

omit [DecidableEq Tenant] in
theorem crash (hk : BreakerKept config system)
    (hp : system.process = some process) (hsd : BookkeepingStands config system .crash) :
    BreakerKept config { system with process := none } where
  trips := hk.trips
  stored _ tenant hon := by
    rcases hsd process hp tenant hon with hcl | hb
    · exact hcl.counts _
    · intro stored hs
      obtain ⟨e, he, ho, hl⟩ := hb stored hs
      have hc := ((hk.tenants process hp tenant).enabled hon e he).resolve_left (by simp [ho])
      exact .inr (hl.trans hc)
  current := nofun
  tenants := nofun

theorem step (hk : BreakerKept config system) (hsd : BookkeepingStands config system action)
    (hs : breakerStep config system action = some after) : BreakerKept config after := by
  cases action
  case elapse seconds =>
    cases hs
    exact hk.elapse seconds
  case operator tenant value => exact hk.operator hsd hs
  case start =>
    obtain ⟨hn, ha⟩ := ite_none_left_eq_some.mp hs
    cases ha
    exact hk.load (not_isSome_iff_eq_none.mp hn)
  case crash =>
    obtain ⟨process, hpr, ha⟩ := map_eq_some_iff.mp hs
    cases ha
    exact hk.crash hpr hsd
  all_goals obtain ⟨process, hpr, ht⟩ := bind_eq_some_iff.mp hs
  case measure inputs =>
    split at ht
    · cases ht
      exact hk.move_on hpr nofun
    · cases ht
      exact hk
    · cases ht
  case next | flipRaises =>
    split at ht
    · cases ht
      exact hk.move_on hpr nofun
    · cases ht
      exact hk.move_on hpr nofun
    · cases ht
  case flag move =>
    split at ht
    · cases ht
    · cases ht
    · exact hk.moveFlag hpr hsd ht
  case setFalse =>
    split at ht
    · next tick tenant hp =>
      cases ht
      exact hk.trip hpr hp
    · cases ht
  case flipReturns =>
    split at ht
    · obtain ⟨⟨reader, answer⟩, hm, ha⟩ := bind_eq_some_iff.mp ht
      cases ha
      exact hk.mark hpr hm
    · cases ht
  case persist =>
    split at ht
    · next tick tenant hp =>
      cases ht
      have hl : BreakerKept config { system with
          process := some { process with phase := .loop tick } } :=
        hk.move_on hpr nofun
      exact hl.write_rows rfl _
    · cases ht

end BreakerKept

/-- A breaker that starts with no rows only trips after a full window. -/
theorem trips_sound {start : BreakerSystem Tenant} (hprocess : start.process = none)
    (hrows : ∀ tenant, start.rows tenant = none) (htrips : start.trips = [])
    (hreach : Reach (breakerStep config) (BookkeepingStands config) start system) :
    TripsSound config system := by
  have hkept : BreakerKept config system :=
    hreach.invariant (.initial hprocess hrows htrips) fun _ _ _ hkept => hkept.step
  exact hkept.trips

def tickOf (lagSeconds : Rat) : List (BreakerAction Nat) :=
  [.elapse 60, .measure (some ([("slack", [(0, lagSeconds)])], [(7, [("slack", 0)])])), .next,
    .flag (.beginRead 7 ()), .flag .select, .flag .endRead]

def countedTick : List (BreakerAction Nat) := tickOf 120 ++ [.persist, .next]

def trippingTick : List (BreakerAction Nat) :=
  tickOf 120 ++ [.setFalse, .flipReturns, .persist, .next]

/-- Steps that meet the condition wherever they are taken, and a switching on that
does where the counter is clear. -/
def keepsBookkeeping (system : BreakerSystem Nat) : BreakerAction Nat → Bool
  | .operator tenant _ =>
    (system.bookkeeping tenant).all fun entry => entry.tripped || entry.consecutiveBreachTicks == 0
  | .crash | .flag .readFails => false
  | _ => true

theorem bookkeepingStands_of_keepsBookkeeping {system : BreakerSystem Nat}
    {action : BreakerAction Nat} (hk : keepsBookkeeping system action) :
    BookkeepingStands config system action := by
  unfold BookkeepingStands
  split
  · intro _ _ e he
    have ha := all_eq_true _ _ |>.mp hk e he
    simpa only [Bool.or_eq_true, beq_iff_eq] using ha
  · cases hk
  · cases hk
  · trivial

/-- Five ticks in breach, and five again after the operator has switched the flag on. -/
theorem trips_sound_twice : ∃ system : BreakerSystem Nat,
    Reach (breakerStep {}) (BookkeepingStands {}) {} system ∧ system.trips.length = 2 ∧
      TripsSound {} system := by
  let window := countedTick ++ countedTick ++ countedTick ++ countedTick ++ trippingTick
  have hrun : (runChecked (breakerStep {}) keepsBookkeeping {}
      (.start :: window ++ .operator 7 (some true) :: window)).any
        (fun system => system.trips.length == 2) := by
    decide +kernel
  obtain ⟨system, hsystem, hlength⟩ := (any_eq_true _ _).mp hrun
  have hreach : Reach (breakerStep {}) (BookkeepingStands {}) {} system :=
    reach_of_runChecked (fun _ _ => bookkeepingStands_of_keepsBookkeeping) hsystem
  exact ⟨system, hreach, beq_iff_eq.mp hlength, trips_sound rfl (fun _ => rfl) rfl hreach⟩

/-- Four ticks in breach are counted; the operator switches the flag off and, a tick
later, on again; one tick in breach trips it. -/
theorem trip_after_one_breach : ¬ ∀ (config : BreakerConfig) (start system : BreakerSystem Nat),
    start.process = none → (∀ tenant, start.rows tenant = none) → start.trips = [] →
      Reach (breakerStep config) anyStep start system → TripsSound config system := by
  have hrun : (runAll (breakerStep {}) {}
      (.start :: countedTick ++ countedTick ++ countedTick ++ countedTick ++
        .operator 7 (some false) :: tickOf 120 ++ .next :: .operator 7 (some true) ::
        trippingTick)).any (fun system => system.trips.any fun trip => breachRun trip.2 == 1) := by
    decide +kernel
  obtain ⟨system, hsystem, hany⟩ := (any_eq_true _ _).mp hrun
  obtain ⟨trip, hmem, hone⟩ := List.any_eq_true.mp hany
  intro hall
  have hwindow := hall {} {} system rfl (fun _ => rfl) rfl (reach_of_run hsystem) trip hmem
  rw [beq_iff_eq.mp hone] at hwindow
  exact absurd hwindow (by decide)

end FyralisCore.Ingestion
