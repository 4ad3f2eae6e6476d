import FyralisCore.Lib.Reach
import Mathlib.Algebra.Order.Ring.Unbundled.Rat

/-! The flush barrier of a producer (`kafka/flush_batcher.py`): a drain task sleeps and
flushes for the callers it finds; without a delay each flushes for itself. -/
namespace FyralisCore.Ingestion

open Transition List

/-- A call of `coalesced_flush`, with the number of messages produced before it. -/
structure FlushWaiter where
  call : Nat
  timeoutSeconds : ℚ
  produced : Nat
  deriving DecidableEq

/-- A call of `producer.flush`, with those who wait for it. -/
structure FlushRound where
  timeout : ℚ
  waiters : List FlushWaiter
  deriving DecidableEq

structure KafkaFlushBatcher where
  /-- The messages and the calls so far, which are numbered. -/
  produced : Nat := 0
  calls : Nat := 0
  /-- The producer's local queue. -/
  queue : List Nat := []
  waiters : List FlushWaiter := []
  /-- Whether `_task` sleeps. -/
  task : Bool := false
  flushes : List FlushRound := []
  /-- Flushes that have come back, with what remains unless they raised. -/
  returned : List (FlushRound × Option Nat) := []
  answers : List (FlushWaiter × Option Nat) := []

/-- A message leaves the queue when the broker has it or it has failed for good. -/
inductive FlushEvent where
  | produce
  | leave (message : Nat)
  | flush (timeoutSeconds : ℚ)
  | drainOnce
  | flushed (round : FlushRound) (raises : Bool)
  | setResult (round : FlushRound) (remaining : Option Nat)

def flushStep (maxDelayMs : Int) (b : KafkaFlushBatcher) : FlushEvent → Option KafkaFlushBatcher
  | .produce => some { b with produced := b.produced + 1, queue := b.queue ++ [b.produced] }
  | .leave message => some { b with queue := b.queue.erase message }
  | .flush timeoutSeconds =>
    let waiter := ⟨b.calls, timeoutSeconds, b.produced⟩
    if maxDelayMs ≤ 0 then
      some { b with calls := b.calls + 1, flushes := ⟨timeoutSeconds, [waiter]⟩ :: b.flushes }
    else some { b with calls := b.calls + 1, waiters := b.waiters ++ [waiter], task := true }
  | .drainOnce =>
    if b.task then
      let timeout := (b.waiters.map (·.timeoutSeconds)).min?.getD 0
      some { b with waiters := [], task := false, flushes := ⟨timeout, b.waiters⟩ :: b.flushes }
    else none
  | .flushed round raises =>
    if round ∈ b.flushes then
      some { b with
        flushes := b.flushes.erase round
        returned := (round, if raises then none else some b.queue.length) :: b.returned }
    else none
  | .setResult round remaining =>
    if (round, remaining) ∈ b.returned then
      some { b with
        returned := b.returned.erase (round, remaining)
        answers := (round.waiters.map fun waiter => (waiter, remaining)) ++ b.answers }
    else none

variable {b after : KafkaFlushBatcher} {maxDelayMs : Int} {event : FlushEvent}

/-- Everyone who has called, by what they wait for. -/
def KafkaFlushBatcher.callers (b : KafkaFlushBatcher) : List FlushWaiter :=
  b.waiters ++ b.flushes.flatMap (·.waiters) ++ b.returned.flatMap (·.1.waiters) ++
    b.answers.map Prod.fst

theorem callers_step (hs : flushStep maxDelayMs b event = some after) :
    after.callers.Perm b.callers ∧ after.calls = b.calls ∧ b.produced ≤ after.produced ∨
    ∃ timeout, after.callers.Perm (⟨b.calls, timeout, b.produced⟩ :: b.callers) ∧
      after.calls = b.calls + 1 ∧ after.produced = b.produced := by
  simp only [KafkaFlushBatcher.callers, perm_iff_count]
  cases event with
  | produce =>
    cases hs
    exact .inl ⟨fun _ => rfl, rfl, Nat.le_succ _⟩
  | leave =>
    cases hs
    exact .inl ⟨fun _ => rfl, rfl, le_rfl⟩
  | flush timeout =>
    simp only [flushStep] at hs
    split at hs <;> cases hs <;> refine .inr ⟨timeout, fun w => ?_, rfl, rfl⟩ <;>
      simp only [flatMap_cons, count_append, count_cons, count_nil] <;> omega
  | drainOnce =>
    obtain ⟨-, he⟩ := Option.ite_none_right_eq_some.mp hs
    cases he
    refine .inl ⟨fun w => ?_, rfl, le_rfl⟩
    simp only [flatMap_cons, count_append, count_nil]
    omega
  | flushed round raises =>
    obtain ⟨hm, he⟩ := Option.ite_none_right_eq_some.mp hs
    cases he
    refine .inl ⟨fun w => ?_, rfl, le_rfl⟩
    have hp := ((perm_cons_erase hm).flatMap_right (·.waiters)).count_eq w
    simp only [flatMap_cons, count_append] at hp ⊢
    omega
  | setResult round remaining =>
    obtain ⟨hm, he⟩ := Option.ite_none_right_eq_some.mp hs
    cases he
    refine .inl ⟨fun w => ?_, rfl, le_rfl⟩
    have hp := ((perm_cons_erase hm).flatMap_right (·.1.waiters)).count_eq w
    simp only [flatMap_cons, count_append, map_append, map_map] at hp ⊢
    simp only [Function.comp_def, map_id']
    omega

/-- Whose flush has come back with nothing left in the queue. -/
def KafkaFlushBatcher.Acked (b : KafkaFlushBatcher) (waiter : FlushWaiter) : Prop :=
  (∃ round, (round, some 0) ∈ b.returned ∧ waiter ∈ round.waiters) ∨ (waiter, some 0) ∈ b.answers

theorem acked_step (hs : flushStep maxDelayMs b event = some after) (ha : after.Acked waiter) :
    b.Acked waiter ∨ after.queue = [] := by
  unfold KafkaFlushBatcher.Acked at ha ⊢
  cases event <;> grind [flushStep, mem_of_mem_erase]

theorem KafkaFlushBatcher.Acked.caller (ha : b.Acked waiter) : waiter ∈ b.callers := by
  simp only [callers, mem_append, mem_flatMap, mem_map]
  rcases ha with ⟨round, hr, hw⟩ | ha
  · exact .inl (.inr ⟨_, hr, hw⟩)
  · exact .inr ⟨_, ha, rfl⟩

structure Barrier (b : KafkaFlushBatcher) : Prop where
  callers : (b.callers.map (·.call)).Perm (range b.calls)
  before : ∀ waiter ∈ b.callers, waiter.produced ≤ b.produced
  task : b.waiters ≠ [] → b.task
  acked : ∀ waiter, b.Acked waiter → ∀ message ∈ b.queue, waiter.produced ≤ message

theorem barrier_step (hb : Barrier b) (hs : flushStep maxDelayMs b event = some after) :
    Barrier after where
  callers := by
    rcases callers_step hs with ⟨hp, hc, -⟩ | ⟨timeout, hp, hc, -⟩
    · exact hc ▸ (hp.map _).trans hb.callers
    · rw [hc, range_succ]
      exact ((hp.map _).trans (hb.callers.cons _)).trans (perm_append_singleton _ _).symm
  before := by
    intro w hw
    rcases callers_step hs with ⟨hp, -, hl⟩ | ⟨timeout, hp, -, hl⟩
    · exact (hb.before w (hp.mem_iff.mp hw)).trans hl
    · rw [hl]
      rcases mem_cons.mp (hp.mem_iff.mp hw) with rfl | ho
      · exact le_rfl
      · exact hb.before w ho
  task := by
    have ht := hb.task
    cases event <;> grind [flushStep]
  acked := by
    intro w ha m hm
    rcases acked_step hs ha with hk | hn
    · -- only `produce` adds to the queue, and after all that came before the call
      have hq := hb.acked w hk
      have hw := hb.before w hk.caller
      cases event <;> grind [flushStep, mem_of_mem_erase]
    · rw [hn] at hm
      cases hm

/-- In every interleaving a call stands in one place, a drain is coming while anybody waits
for one, and what was produced before a call that is answered 0 has left the queue. -/
theorem flush_barrier (hreach : Reach (flushStep maxDelayMs) anyStep {} b) :
    (b.callers.map (·.call)).Perm (range b.calls) ∧ (b.waiters ≠ [] → b.task) ∧
    ∀ waiter, (waiter, some 0) ∈ b.answers → ∀ message ∈ b.queue, waiter.produced ≤ message := by
  have hbarrier : Barrier b := by
    apply hreach.invariant
    · exact ⟨.refl _, nofun, nofun, fun _ _ => nofun⟩
    · exact fun _ _ _ hbarrier _ hstep => barrier_step hbarrier hstep
  exact ⟨hbarrier.callers, hbarrier.task, fun waiter hanswer => hbarrier.acked waiter (.inr hanswer)⟩

theorem flush_barrier_shared : ∃ b, Reach (flushStep 5) anyStep {} b ∧ b.queue = [2] ∧
    ∀ waiter, (waiter, some 0) ∈ b.answers → ∀ message ∈ b.queue, waiter.produced ≤ message := by
  have hrun : runAll (flushStep 5) {}
      [.produce, .flush 3, .produce, .flush 2, .drainOnce, .leave 0, .leave 1,
        .flushed ⟨2, [⟨0, 3, 1⟩, ⟨1, 2, 2⟩]⟩ false, .produce,
        .setResult ⟨2, [⟨0, 3, 1⟩, ⟨1, 2, 2⟩]⟩ (some 0)] = some _ := rfl
  exact ⟨_, reach_of_run hrun, rfl, (flush_barrier (reach_of_run hrun)).2.2⟩

end FyralisCore.Ingestion
