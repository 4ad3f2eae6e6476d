import Mathlib.Algebra.Order.Field.Rat
import Mathlib.Data.List.Basic
import Mathlib.Data.List.Induction
import FyralisCore.Lib.Reach

/-! The circuit breakers of outbound calls (`lib/shared/circuit_breaker.py`,
`think/circuit_breaker.py`). A call asks for admission when it starts and records its outcome
when it ends; between the two, other calls may do either. The clock is read once for each. -/
namespace FyralisCore.Shared.CircuitBreakers

open List Transition

inductive CircuitState where
  | closed | opened | halfOpen
  deriving DecidableEq

structure BreakerConfig where
  failureThreshold : ℚ
  windowSeconds : ℚ
  openDuration : ℚ
  minSamples : Nat

structure CircuitBreaker where
  state : CircuitState := .closed
  events : List (ℚ × Bool) := []
  openedAt : Option ℚ := none

/-- `AsyncCircuitBreaker`, or `LLMCircuitBreaker`. -/
inductive BreakerKind where
  | async | llm

variable (config : BreakerConfig) (kind : BreakerKind)

def evictOld (now : ℚ) (events : List (ℚ × Bool)) : List (ℚ × Bool) :=
  events.dropWhile fun event => event.1 < now - config.windowSeconds

def failureRate (events : List (ℚ × Bool)) : ℚ :=
  if events = [] then 0 else events.countP (!·.2) / events.length

def CircuitBreaker.recordSuccess (now : ℚ) (breaker : CircuitBreaker) : CircuitBreaker :=
  let recorded := { breaker with events := evictOld config now (breaker.events ++ [(now, true)]) }
  match kind with
  | .async => if breaker.state = .halfOpen then {} else recorded
  | .llm => if recorded.state = .halfOpen then { recorded with
      state := .closed, openedAt := none, events := [] } else recorded

/-- A failure at `now` opens the breaker. -/
def CircuitBreaker.Opens (now : ℚ) (breaker : CircuitBreaker) : Prop :=
  let events := evictOld config now (breaker.events ++ [(now, false)])
  breaker.state = .halfOpen ∨
    config.minSamples ≤ events.length ∧ config.failureThreshold ≤ failureRate events

instance (now : ℚ) (breaker : CircuitBreaker) : Decidable (breaker.Opens config now) :=
  inferInstanceAs (Decidable (_ ∨ _ ∧ _))

def CircuitBreaker.recordFailure (now : ℚ) (breaker : CircuitBreaker) : CircuitBreaker :=
  let events := evictOld config now (breaker.events ++ [(now, false)])
  if breaker.Opens config now then { state := .opened, events, openedAt := some now }
  else { breaker with events }

def CircuitBreaker.checkHalfOpenTransition (now : ℚ) (breaker : CircuitBreaker) : CircuitBreaker :=
  if breaker.state = .opened ∧ breaker.openedAt.any (config.openDuration ≤ now - ·) then
    { breaker with state := .halfOpen }
  else breaker

/-- A call in flight: whether it was let through half-open, and how often the breaker had opened. -/
structure Call where
  id : Nat
  probe : Bool
  openings : Nat

/-- How a call ends. Cancellation is not recorded, nor what `record_exception` excludes. -/
inductive Outcome where
  | success | failure | unrecorded

inductive CallEvent where
  | start (id : Nat) (now : ℚ)
  | finish (id : Nat) (now : ℚ) (outcome : Outcome)

/-- The breaker and its calls; `openings` and `lastOpened` tell how often and when it opened. -/
structure BreakerSystem where
  breaker : CircuitBreaker := {}
  inFlight : List Call := []
  clock : ℚ := 0
  openings : Nat := 0
  lastOpened : Option ℚ := none

def BreakerSystem.arrive (system : BreakerSystem) (id : Nat) (now : ℚ) : BreakerSystem :=
  let breaker := system.breaker.checkHalfOpenTransition config now
  { system with
    breaker, clock := now
    inFlight := if breaker.state = .opened then system.inFlight
      else system.inFlight ++ [⟨id, breaker.state = .halfOpen, system.openings⟩] }

def BreakerSystem.record (system : BreakerSystem) (id : Nat) (now : ℚ) (outcome : Outcome) :
    BreakerSystem :=
  let ended := { system with clock := now, inFlight := system.inFlight.filter (·.id != id) }
  match outcome with
  | .success => { ended with breaker := system.breaker.recordSuccess config kind now }
  | .failure =>
    let ended := { ended with breaker := system.breaker.recordFailure config now }
    if system.breaker.Opens config now then
      { ended with openings := system.openings + 1, lastOpened := some now }
    else ended
  | .unrecorded => ended

def BreakerSystem.step (system : BreakerSystem) : CallEvent → Option BreakerSystem
  | .start id now =>
    if system.clock ≤ now ∧ system.inFlight.all (·.id != id) then some (system.arrive config id now)
    else none
  | .finish id now outcome =>
    if system.clock ≤ now ∧ system.inFlight.any (·.id == id) then
      some (system.record config kind id now outcome)
    else none

def probes (system : BreakerSystem) : Nat := system.inFlight.countP (·.probe)

/-- The call was started after the breaker last opened. -/
def Fresh (system : BreakerSystem) (id : Nat) : Prop :=
  ∃ call ∈ system.inFlight, call.id = id ∧ call.openings = system.openings

/-- What the breaker promises of a step. -/
structure Guarded (system after : BreakerSystem) (event : CallEvent) : Prop where
  waits : system.inFlight.length < after.inFlight.length →
    ∀ t ∈ system.lastOpened, config.openDuration ≤ after.clock - t
  one : after.breaker.state = .halfOpen → probes after ≤ 1
  closes : system.breaker.state ≠ .closed → after.breaker.state = .closed →
    ∃ id now, event = .finish id now .success ∧ Fresh system id

/-- A call that finds the breaker half-open finds no other probe in flight, and a success that
is recorded half-open is that of a call started since the breaker opened. -/
def Orderly (system : BreakerSystem) : CallEvent → Prop
  | .start _ now => (system.breaker.checkHalfOpenTransition config now).state = .halfOpen →
      probes system = 0
  | .finish id _ .success => system.breaker.state = .halfOpen → Fresh system id
  | _ => True

variable {config kind} {system after : BreakerSystem} {event : CallEvent} {events : List CallEvent}
  {id : Nat} {now : ℚ}

/-- Open since the time on record, or open no longer than the breaker has to wait. -/
structure Kept (config : BreakerConfig) (system : BreakerSystem) : Prop where
  opened : system.breaker.state = .opened → system.breaker.openedAt = system.lastOpened
  rested : system.breaker.state ≠ .opened →
    ∀ t ∈ system.lastOpened, config.openDuration ≤ system.clock - t

theorem recordSuccess_eq (now : ℚ) (breaker : CircuitBreaker) :
    breaker.recordSuccess config kind now = if breaker.state = .halfOpen then {} else
      { breaker with events := evictOld config now (breaker.events ++ [(now, true)]) } := by
  cases kind <;> rfl

theorem check_cases (now : ℚ) (breaker : CircuitBreaker) :
    breaker.checkHalfOpenTransition config now = breaker ∨
      breaker.state = .opened ∧ (∃ t, breaker.openedAt = some t ∧ config.openDuration ≤ now - t) ∧
        breaker.checkHalfOpenTransition config now = { breaker with state := .halfOpen } := by
  unfold CircuitBreaker.checkHalfOpenTransition
  split
  · next h => exact .inr ⟨h.1, by simpa [Option.any_eq_true] using h.2, rfl⟩
  · exact .inl rfl

theorem Kept.later (hk : Kept config system) (hl : system.clock ≤ now)
    (hn : system.breaker.state ≠ .opened) :
    ∀ t ∈ system.lastOpened, config.openDuration ≤ now - t :=
  fun t ht => (hk.rested hn t ht).trans (sub_le_sub_right hl t)

theorem Kept.step (hk : Kept config system) (hs : system.step config kind event = some after) :
    Kept config after := by
  cases event with
  | start id now =>
    obtain ⟨⟨hl, -⟩, rfl⟩ := by simpa [BreakerSystem.step] using hs
    unfold BreakerSystem.arrive
    rcases @check_cases config now system.breaker with he | ⟨ho, ⟨t, ht, hd⟩, he⟩
    · rw [he]
      exact ⟨hk.opened, hk.later hl⟩
    · rw [he]
      refine ⟨by simp, fun _ u hu => ?_⟩
      have htu : system.lastOpened = some t := (hk.opened ho).symm.trans ht
      cases htu.symm.trans hu
      exact hd
  | finish id now outcome =>
    obtain ⟨⟨hl, -⟩, rfl⟩ := by simpa [BreakerSystem.step] using hs
    cases outcome with
    | success =>
      simp only [BreakerSystem.record, recordSuccess_eq]
      split
      · next hh => exact ⟨by simp, fun _ => hk.later hl (by simp [hh])⟩
      · exact ⟨hk.opened, hk.later hl⟩
    | failure =>
      simp only [BreakerSystem.record, CircuitBreaker.recordFailure]
      split
      · exact ⟨fun _ => rfl, by simp⟩
      · exact ⟨hk.opened, hk.later hl⟩
    | unrecorded => exact ⟨hk.opened, hk.later hl⟩

theorem probes_arrive (now : ℚ) (system : BreakerSystem)
    (hh : (system.arrive config id now).breaker.state = .halfOpen) :
    probes (system.arrive config id now) = probes system + 1 := by
  have hh' : (system.breaker.checkHalfOpenTransition config now).state = .halfOpen := hh
  simp [probes, BreakerSystem.arrive, hh']

theorem probes_record_le (now : ℚ) (outcome : Outcome) (system : BreakerSystem) :
    probes (system.record config kind id now outcome) ≤ probes system ∧
      (system.record config kind id now outcome).inFlight.length ≤ system.inFlight.length := by
  have hs : (system.record config kind id now outcome).inFlight =
      system.inFlight.filter (·.id != id) := by
    cases outcome <;> simp [BreakerSystem.record]
    split <;> rfl
  simp only [probes, hs]
  exact ⟨filter_sublist.countP_le, length_filter_le ..⟩

theorem guarded_start_iff (hk : Kept config system) (hl : system.clock ≤ now) :
    Guarded config system (system.arrive config id now) (.start id now) ↔
      Orderly config system (.start id now) := by
  constructor
  · intro hg hh
    have hon := hg.one hh
    rw [probes_arrive now system hh] at hon
    omega
  · intro ho
    refine ⟨fun hlt => ?_, fun hh => ?_, fun hn hc => ?_⟩
    · have hs : (system.breaker.checkHalfOpenTransition config now).state ≠ .opened := by
        intro h
        simp [BreakerSystem.arrive, h] at hlt
      rcases @check_cases config now system.breaker with he | ⟨hop, ⟨t, ht, hd⟩, -⟩
      · exact hk.later hl (by rwa [he] at hs)
      · intro u hu
        cases ((hk.opened hop).symm.trans ht).symm.trans hu
        exact hd
    · rw [probes_arrive now system hh, ho hh]
    · have hc : (system.breaker.checkHalfOpenTransition config now).state = .closed := hc
      rcases @check_cases config now system.breaker with he | ⟨-, -, he⟩
      · exact absurd (by rwa [he] at hc) hn
      · simp [he] at hc

theorem guarded_finish_iff (outcome : Outcome)
    (hon : system.breaker.state = .halfOpen → probes system ≤ 1) :
    Guarded config system (system.record config kind id now outcome) (.finish id now outcome) ↔
      Orderly config system (.finish id now outcome) := by
  obtain ⟨hp, hl⟩ := @probes_record_le config kind id now outcome system
  have hw : ¬ system.inFlight.length <
      (system.record config kind id now outcome).inFlight.length := by omega
  cases outcome with
  | success =>
    by_cases hh : system.breaker.state = .halfOpen
    · have hc : (system.record config kind id now .success).breaker.state = .closed := by
        simp [BreakerSystem.record, recordSuccess_eq, hh]
      constructor
      · rintro hg -
        obtain ⟨i, n, he, hf⟩ := hg.closes (by simp [hh]) hc
        cases he
        exact hf
      · exact fun ho => ⟨fun h => absurd h hw, by simp [hc], fun _ _ => ⟨id, now, rfl, ho hh⟩⟩
    · have hs : (system.record config kind id now .success).breaker.state =
          system.breaker.state := by simp [BreakerSystem.record, recordSuccess_eq, hh]
      exact iff_of_true ⟨fun h => absurd h hw, by simp [hs, hh], by simp +contextual [hs]⟩
        (by simp [Orderly, hh])
  | failure =>
    refine iff_of_true ⟨fun h => absurd h hw, fun hh => ?_, fun hn hc => ?_⟩ trivial
    · refine hp.trans (hon ?_)
      simp only [BreakerSystem.record, CircuitBreaker.recordFailure] at hh
      split at hh <;> simp_all
    · simp only [BreakerSystem.record, CircuitBreaker.recordFailure] at hc
      split at hc <;> simp_all
  | unrecorded =>
    exact iff_of_true ⟨fun h => absurd h hw, fun hh => hp.trans (hon hh),
      fun hn hc => absurd hc hn⟩ trivial

theorem guarded_iff (hk : Kept config system)
    (ho : system.breaker.state = .halfOpen → probes system ≤ 1)
    (hs : system.step config kind event = some after) :
    Guarded config system after event ↔ Orderly config system event := by
  cases event with
  | start id now =>
    obtain ⟨⟨hl, -⟩, rfl⟩ := by simpa [BreakerSystem.step] using hs
    exact guarded_start_iff hk hl
  | finish id now outcome =>
    obtain ⟨-, rfl⟩ := by simpa [BreakerSystem.step] using hs
    exact guarded_finish_iff outcome ho

theorem kept_of_run (hr : runAll (BreakerSystem.step config kind) {} events = some system) :
    Kept config system := by
  induction events using reverseRecOn generalizing system with
  | nil =>
    cases hr
    exact ⟨by simp, by simp⟩
  | append_singleton events event ih =>
    obtain ⟨before, hb, hs⟩ := runAll_concat.mp hr
    exact (ih hb).step hs

theorem one_of_run (hg : EachStep (BreakerSystem.step config kind) (Guarded config) {} events)
    (hr : runAll (BreakerSystem.step config kind) {} events = some system)
    (hh : system.breaker.state = .halfOpen) : probes system ≤ 1 := by
  rcases eq_nil_or_concat' events with rfl | ⟨events, event, rfl⟩
  · cases hr
    simp at hh
  · obtain ⟨before, hb, hs⟩ := runAll_concat.mp hr
    exact ((eachStep_concat.mp hg).2 before system hb hs).one hh

/-- What the breakers promise holds of every step, whichever way the calls interleave, just when
every step is orderly. -/
theorem guarded_iff_orderly (config : BreakerConfig) (kind : BreakerKind)
    (events : List CallEvent) :
    EachStep (BreakerSystem.step config kind) (Guarded config) {} events ↔
      EachStep (BreakerSystem.step config kind) (fun s _ => Orderly config s) {} events := by
  induction events using reverseRecOn with
  | nil => simp [EachStep]
  | append_singleton events event ih =>
    rw [eachStep_concat, eachStep_concat, ← ih]
    refine and_congr_right fun hg => forall₂_congr fun system after => ?_
    exact forall₂_congr fun hr hs => guarded_iff (kept_of_run hr) (one_of_run hg hr) hs

def oneFailure : BreakerConfig where
  failureThreshold := 1 / 2
  windowSeconds := 60
  openDuration := 30
  minSamples := 1

/-- A failure opens the breaker, and two calls arrive once it has waited. -/
def twoArrivals : List CallEvent :=
  [.start 0 0, .finish 0 0 .failure, .start 1 30, .start 2 30]

theorem twoArrivals_probes (kind : BreakerKind) :
    ((runAll (BreakerSystem.step oneFailure kind) {} twoArrivals).map fun s =>
      (s.breaker.state, probes s)) = some (.halfOpen, 2) := by
  cases kind <;> decide +kernel

theorem twoArrivals_not_guarded (kind : BreakerKind) :
    ¬ EachStep (BreakerSystem.step oneFailure kind) (Guarded oneFailure) {} twoArrivals := by
  intro hg
  obtain ⟨system, hr, he⟩ := Option.map_eq_some_iff.mp (twoArrivals_probes kind)
  obtain ⟨hh, hp⟩ := Prod.mk.inj he
  have ho := one_of_run hg hr hh
  omega

theorem two_probes_at_once :
    ¬ EachStep (BreakerSystem.step oneFailure .async) (Guarded oneFailure) {} twoArrivals ∧
      ¬ EachStep (BreakerSystem.step oneFailure .llm) (Guarded oneFailure) {} twoArrivals :=
  ⟨twoArrivals_not_guarded .async, twoArrivals_not_guarded .llm⟩

end FyralisCore.Shared.CircuitBreakers
