import FyralisCore.Webhooks.TenantResolver

/-! When an administrative call takes effect on the lookups that follow it. The cache
forgets a key when such a call returns; a lookup that read its row before, and goes on
after, puts the old answer back. -/
namespace FyralisCore.Webhooks

open Relational Option Function Nat

namespace InstallationCache

variable {cache : InstallationCache} {key other : Key} {entry : CacheEntry} {now : ℚ}

@[simp] theorem mem_invalidate : (other, entry) ∈ (cache.invalidate key).entries ↔
      (other, entry) ∈ cache.entries ∧ other ≠ key := by
  simp [invalidate, Dict.pop]

theorem mem_moveToEnd : (other, entry) ∈ (cache.moveToEnd key found).entries ↔
      ((other, entry) ∈ cache.entries ∧ other ≠ key) ∨ (other = key ∧ entry = found) := by
  simp [moveToEnd, Dict.pop]

theorem mem_of_entry (hf : cache.entry key = some found) : (key, found) ∈ cache.entries := by
  obtain ⟨earlier, u, hs, -⟩ := List.lookup_eq_some_iff.mp hf
  rw [hs]
  simp

theorem mem_get (hm : (other, entry) ∈ (cache.get key now).2.entries) :
    (other, entry) ∈ cache.entries := by
  unfold get at hm
  cases hf : cache.entry key with
  | none => simpa [hf] using hm
  | some found =>
    simp only [hf] at hm
    split at hm
    · exact (mem_invalidate.mp hm).1
    · rcases mem_moveToEnd.mp hm with ⟨ho, -⟩ | ⟨rfl, rfl⟩
      · exact ho
      · exact mem_of_entry hf

theorem mem_of_get (hg : (cache.get key now).1 = some value) :
    ∃ entry, (key, entry) ∈ cache.entries ∧ entry.value = value := by
  unfold get at hg
  cases hf : cache.entry key with
  | none => simp [hf] at hg
  | some found =>
    simp only [hf] at hg
    split at hg
    · cases hg
    · exact ⟨found, mem_of_entry hf, Option.some.inj hg⟩

theorem mem_put (hm : (other, entry) ∈ (cache.put key value now).entries) :
    ((other, entry) ∈ cache.entries ∧ other ≠ key) ∨ (other = key ∧ entry.value = value) := by
  rcases mem_moveToEnd.mp (List.mem_of_mem_drop hm) with ho | ⟨hk, rfl⟩
  · exact .inl ho
  · exact .inr ⟨hk, rfl⟩

end InstallationCache

section Runs

variable {Request : Type} (keyOf : Request → Option Key)

theorem Process.run_snoc (process : Process) (earlier : List (Event Request))
    (event : Event Request) :
    process.run keyOf (earlier ++ [event]) = (process.run keyOf earlier).step keyOf event := by
  rw [run, List.foldl_append]
  rfl

/-- The table has given this answer for the key at some moment of these events. -/
def Held (process : Process) (events : List (Event Request)) (key : Key) (value : CacheValue) :
    Prop :=
  ∃ earlier later, events = earlier ++ later ∧
    resolution (process.run keyOf earlier).installations key = value

/-- The statement of this administrative call is about to write a row of the key. -/
def Writes (process : Process) (call : Nat) (key : Key) : Prop :=
  ∃ action, process.changes call = some ⟨action, none⟩ ∧
    (action.statement process.tenants process.installations).1 = some key

/-- The administrative call, whose statement has written a row of the key, returns during
these events. -/
def Returned (process : Process) (events : List (Event Request)) (call : Nat) (key : Key) : Prop :=
  ∃ earlier later action, events = earlier ++ .conclude call :: later ∧
    (process.run keyOf earlier).changes call = some ⟨action, some (some key)⟩

/-- The answer of a `resolve` call that starts after an administrative call on its key has
returned is one that the table has given since that call wrote. -/
def ChangesTakeEffect (start : Process) (run : List (Event Request)) : Prop :=
  ∀ earlier change key later during event rest call value,
    run = earlier ++ .execute change :: (later ++ (during ++ event :: rest)) →
    Writes (start.run keyOf earlier) change key →
    Returned keyOf ((start.run keyOf earlier).execute change) later change key →
    (((start.run keyOf earlier).execute change).run keyOf later).calls ≤ call →
    (((start.run keyOf earlier).execute change).run keyOf (later ++ during)).answer keyOf event =
      some (call, key, value) →
    Held keyOf ((start.run keyOf earlier).execute change) (later ++ during) key value

/-- No `resolve` call that read its row before an administrative call on its key wrote goes
on after that call has returned, with an answer that the table gives no more. -/
def NoneOvertaken (start : Process) (run : List (Event Request)) : Prop :=
  ∀ earlier change key later call now rest old,
    run = earlier ++ .execute change :: (later ++ .resume call now :: rest) →
    Writes (start.run keyOf earlier) change key →
    Returned keyOf ((start.run keyOf earlier).execute change) later change key →
    (start.run keyOf earlier).lookups call = some ⟨key, some old⟩ →
    (((start.run keyOf earlier).execute change).run keyOf later).lookups call =
      some ⟨key, some old⟩ →
    resolution (((start.run keyOf earlier).execute change).run keyOf later).installations key = old

variable {keyOf} {process : Process} {events : List (Event Request)} {key : Key}
  {value : CacheValue}

theorem Held.append (hh : Held keyOf process events key value)
    (more : List (Event Request)) : Held keyOf process (events ++ more) key value := by
  obtain ⟨earlier, u, rfl, hv⟩ := hh
  exact ⟨earlier, u ++ more, List.append_assoc _ _ _, hv⟩

theorem held_now (process : Process) (events : List (Event Request)) (key : Key) :
    Held keyOf process events key (resolution (process.run keyOf events).installations key) :=
  ⟨events, [], (List.append_nil _).symm, rfl⟩

structure Numbered (process : Process) : Prop where
  lookups : ∀ call, process.calls ≤ call → process.lookups call = none
  changes : ∀ call, process.calls ≤ call → process.changes call = none

theorem calls_le_step (process : Process) (event : Event Request) :
    process.calls ≤ (process.step keyOf event).calls := by
  cases event with
  | resolve request now =>
    simp only [Process.step, Process.resolve]
    split
    · exact le_succ _
    · split <;> exact le_succ _
  | select call =>
    simp only [Process.step, Process.select]
    split <;> exact le_refl _
  | resume call now =>
    simp only [Process.step, Process.resume]
    split <;> exact le_refl _
  | change action => exact le_succ _
  | execute call =>
    simp only [Process.step, Process.execute]
    split <;> exact le_refl _
  | conclude call =>
    simp only [Process.step, Process.conclude]
    split <;> exact le_refl _
  | abandon call => exact le_refl _

theorem calls_le_run (process : Process) (events : List (Event Request)) :
    process.calls ≤ (process.run keyOf events).calls := by
  induction events generalizing process with
  | nil => exact le_refl _
  | cons event rest ih => exact le_trans (calls_le_step process event) (ih _)

variable {call : Nat} {event : Event Request}

section

variable (hn : Numbered process)

include hn

theorem Numbered.update_lookups (hc : call < calls) (hcl : process.calls ≤ calls) (ho : calls ≤
    other) : Function.update process.lookups call lookup other = none := by
  rw [update_of_ne (by omega)]
  exact hn.lookups other (by omega)

theorem Numbered.update_changes (hc : call < calls) (hcl : process.calls ≤ calls) (ho : calls ≤
    other) : Function.update process.changes call change other = none := by
  rw [update_of_ne (by omega)]
  exact hn.changes other (by omega)

theorem Numbered.lt_of_lookup (hl : process.lookups call = some lookup) : call < process.calls := by
  by_contra hnt
  rw [hn.lookups call (by omega)] at hl
  cases hl

theorem Numbered.lt_of_change (hc : process.changes call = some change) : call < process.calls := by
  by_contra hnt
  rw [hn.changes call (by omega)] at hc
  cases hc

end

theorem numbered_step (hnum : Numbered process) (event : Event Request) :
    Numbered (process.step keyOf event) := by
  cases event with
  | resolve request now =>
    simp only [Process.step, Process.resolve]
    split
    · exact ⟨fun call hc => hnum.lookups call (le_of_succ_le hc),
        fun call hc => hnum.changes call (le_of_succ_le hc)⟩
    · split
      · exact ⟨fun call hc => hnum.lookups call (le_of_succ_le hc),
          fun call hc => hnum.changes call (le_of_succ_le hc)⟩
      · exact ⟨fun call hc =>
            hnum.update_lookups (lt_succ_self _) (le_succ _) hc,
          fun call hc => hnum.changes call (le_of_succ_le hc)⟩
  | select call =>
    simp only [Process.step, Process.select]
    split
    · next key hl =>
      exact ⟨fun other ho => hnum.update_lookups (hnum.lt_of_lookup hl) (le_refl _) ho, hnum.changes⟩
    · exact hnum
  | resume call now =>
    simp only [Process.step, Process.resume]
    split
    · next key value hl =>
      exact ⟨fun other ho => hnum.update_lookups (hnum.lt_of_lookup hl) (le_refl _) ho, hnum.changes⟩
    · exact hnum
  | change action =>
    exact ⟨fun call hc => hnum.lookups call (le_of_succ_le hc), fun call hc =>
      hnum.update_changes (lt_succ_self _) (le_succ _) hc⟩
  | execute call =>
    simp only [Process.step, Process.execute]
    split
    · next action hch =>
      exact ⟨hnum.lookups, fun other ho => hnum.update_changes (hnum.lt_of_change hch) (le_refl _) ho⟩
    · exact hnum
  | conclude call =>
    simp only [Process.step, Process.conclude]
    split
    · next action answer hch =>
      exact ⟨hnum.lookups, fun other ho => hnum.update_changes (hnum.lt_of_change hch) (le_refl _) ho⟩
    · exact hnum
  | abandon call =>
    have hg : ∀ {α : Type} (f : Nat → Option α) (other : Nat), f other = none →
        Function.update f call none other = none := by
      intro α f other hn
      by_cases ho : other = call
      · simp [ho]
      · rwa [update_of_ne ho]
    exact ⟨fun other ho => hg _ _ (hnum.lookups other ho),
      fun other ho => hg _ _ (hnum.changes other ho)⟩

theorem numbered_run (hn : Numbered process) (events : List (Event Request)) :
    Numbered (process.run keyOf events) := by
  induction events generalizing process with
  | nil => exact hn
  | cons event rest ih => exact ih (numbered_step hn event)

theorem lookups_step (hl : (process.step keyOf event).lookups call = some ⟨key, some value⟩) :
    process.lookups call = some ⟨key, some value⟩ ∨
      value = resolution process.installations key := by
  cases event with
  | resolve request now =>
    left
    simp only [Process.step, Process.resolve] at hl
    split at hl
    · exact hl
    · split at hl
      · exact hl
      · by_cases hc : call = process.calls
        · simp [hc] at hl
        · simpa [update_of_ne hc] using hl
  | select other =>
    simp only [Process.step, Process.select] at hl
    split at hl
    · by_cases hc : call = other
      · subst hc
        simp only [update_self, Option.some.injEq, Lookup.mk.injEq] at hl
        obtain ⟨rfl, rfl⟩ := hl
        exact .inr rfl
      · simp only [update_of_ne hc] at hl
        exact .inl hl
    · exact .inl hl
  | resume other now =>
    left
    simp only [Process.step, Process.resume] at hl
    split at hl
    · by_cases hc : call = other
      · simp [hc] at hl
      · simpa [update_of_ne hc] using hl
    · exact hl
  | change action => exact .inl hl
  | execute other =>
    left
    simp only [Process.step, Process.execute] at hl
    split at hl <;> exact hl
  | conclude other =>
    left
    simp only [Process.step, Process.conclude] at hl
    split at hl <;> exact hl
  | abandon other =>
    left
    simp only [Process.step, Process.abandon] at hl
    by_cases hc : call = other
    · simp [hc] at hl
    · simpa [update_of_ne hc] using hl

theorem cache_step (he : (key, entry) ∈ (process.step keyOf event).cache.entries) :
    (key, entry) ∈ process.cache.entries ∨ ∃ call now, event = .resume call now ∧
      process.lookups call = some ⟨key, some entry.value⟩ := by
  cases event with
  | resolve request now =>
    left
    simp only [Process.step, Process.resolve] at he
    split at he
    · exact he
    · next other _ =>
      have hg : ∀ found cache, process.cache.get other now = (found, cache) →
          (key, entry) ∈ cache.entries → (key, entry) ∈ process.cache.entries := by
        intro found cache hs hm
        have hh : (key, entry) ∈ (process.cache.get other now).2.entries := by rwa [hs]
        exact InstallationCache.mem_get hh
      split at he
      · next value cache hs => exact hg _ _ hs he
      · next cache hs => exact hg _ _ hs he
  | select other =>
    left
    simp only [Process.step, Process.select] at he
    split at he <;> exact he
  | resume call now =>
    simp only [Process.step, Process.resume] at he
    split at he
    · next other value hl =>
      rcases InstallationCache.mem_put he with ⟨ho, -⟩ | ⟨rfl, rfl⟩
      · exact .inl ho
      · exact .inr ⟨call, now, rfl, hl⟩
    · exact .inl he
  | change action => exact .inl he
  | execute other =>
    left
    simp only [Process.step, Process.execute] at he
    split at he <;> exact he
  | conclude other =>
    left
    simp only [Process.step, Process.conclude] at he
    split at he
    · next action answer hc =>
      cases answer with
      | none => exact he
      | some gone => exact (InstallationCache.mem_invalidate.mp he).1
    · exact he
  | abandon other => exact .inl he

theorem forgotten_conclude (hc : process.changes call = some ⟨action, some (some key)⟩) :
    (key, entry) ∉ (process.step keyOf (.conclude call : Event Request)).cache.entries := by
  simp only [Process.step, Process.conclude, hc]
  intro hm
  exact (InstallationCache.mem_invalidate.mp hm).2 rfl

theorem lookups_run (hl : (process.run keyOf events).lookups call = some ⟨key, some value⟩) :
    process.lookups call = some ⟨key, some value⟩ ∨ Held keyOf process events key value := by
  induction events using List.reverseRecOn generalizing value with
  | nil => exact .inl hl
  | append_singleton events event ih =>
    rw [Process.run_snoc] at hl
    rcases lookups_step hl with hb | rfl
    · exact (ih hb).imp_right fun hh => hh.append _
    · exact .inr ((held_now process events key).append _)

def CacheHeld (keyOf : Request → Option Key) (process : Process) (events : List (Event Request))
    (key : Key) : Prop :=
  ∀ entry, (key, entry) ∈ (process.run keyOf events).cache.entries →
    Held keyOf process events key entry.value

theorem CacheHeld.next (hc : CacheHeld keyOf process events key)
    (hr : ∀ call now value, event = .resume call now →
      (process.run keyOf events).lookups call = some ⟨key, some value⟩ →
      Held keyOf process events key value) : CacheHeld keyOf process (events ++ [event]) key := by
  intro entry he
  rw [Process.run_snoc] at he
  refine Held.append ?_ _
  rcases cache_step he with hb | ⟨call, now, hev, hl⟩
  · exact hc entry hb
  · exact hr call now _ hev hl

/-- From the return of an administrative call on, if no lookup goes on that had read its row
before these events and whose answer is out of date. -/
theorem cacheHeld_of_returned (hf : CacheHeld keyOf process events key)
    (hr : ∀ m call now rest value, u = m ++ .resume call now :: rest →
      process.lookups call = some ⟨key, some value⟩ →
      (process.run keyOf (events ++ m)).lookups call = some ⟨key, some value⟩ →
      resolution (process.run keyOf (events ++ m)).installations key = value) :
    CacheHeld keyOf process (events ++ u) key := by
  induction u using List.reverseRecOn with
  | nil => rwa [List.append_nil]
  | append_singleton u event ih =>
    rw [← List.append_assoc]
    refine (ih fun m call now rest value hs => ?_).next ?_
    · refine hr m call now (rest ++ [event]) value ?_
      rw [hs, List.append_assoc, List.cons_append]
    · intro call now value he hl
      rcases lookups_run hl with ho | hh
      · have hc := hr u call now [] value (by rw [he]) ho hl
        rw [← hc]
        exact held_now process (events ++ u) key
      · exact hh

theorem CacheHeld.of_forgotten
    (hc : (process.run keyOf events).changes call = some ⟨action, some (some key)⟩) :
    CacheHeld keyOf process (events ++ [.conclude call]) key := by
  intro entry he
  rw [Process.run_snoc] at he
  exact absurd he (forgotten_conclude hc)

theorem answer_cases (ha : process.answer keyOf event = some (call, key, value)) :
    (∃ entry, (key, entry) ∈ process.cache.entries ∧ entry.value = value) ∨
      process.lookups call = some ⟨key, some value⟩ := by
  cases event with
  | resolve request now =>
    left
    simp only [Process.answer, bind_eq_bind, bind_eq_some_iff, pure_def,
      Option.some.injEq, Prod.mk.injEq] at ha
    obtain ⟨other, -, found, hg, -, rfl, rfl⟩ := ha
    exact InstallationCache.mem_of_get hg
  | resume other now =>
    right
    simp only [Process.answer, bind_eq_bind, bind_eq_some_iff, pure_def,
      Option.some.injEq, Prod.mk.injEq] at ha
    obtain ⟨lookup, hl, found, hf, rfl, rfl, rfl⟩ := ha
    rw [hl, ← hf]
  | _ => cases ha

theorem lookups_execute (process : Process) (call : Nat) :
    (process.execute call).lookups = process.lookups := by
  unfold Process.execute
  split <;> rfl

theorem calls_execute (process : Process) (call : Nat) :
    (process.execute call).calls = process.calls := by
  unfold Process.execute
  split <;> rfl

theorem changesTakeEffect_of_noneOvertaken
    (hnum : Numbered start) (hn : NoneOvertaken keyOf start run) :
    ChangesTakeEffect keyOf start run := by
  intro earlier change key u during event rest call value hr hw hrt hs ha
  have hb : Numbered (start.run keyOf earlier) := numbered_run hnum earlier
  obtain ⟨first, last, action, hsp, hd⟩ := id hrt
  -- The cache holds nothing out of date from the return of the change on.
  have hc : CacheHeld keyOf ((start.run keyOf earlier).execute change) (u ++ during) key := by
    have hl : u ++ during = (first ++ [.conclude change]) ++ (last ++ during) := by
      simp [hsp]
    rw [hl]
    refine cacheHeld_of_returned (.of_forgotten hd) ?_
    intro m other now others old hm ho haw
    rw [lookups_execute] at ho
    refine hn earlier change key (first ++ [.conclude change] ++ m) other now
      (others ++ event :: rest) old ?_ hw ⟨first, m, action, by simp, hd⟩ ho haw
    rw [hr, ← List.append_assoc u, hl, hm]
    simp
  rcases answer_cases ha with ⟨entry, he, rfl⟩ | hlk
  · exact hc entry he
  · rcases lookups_run hlk with ho | hh
    · rw [lookups_execute] at ho
      have hlt := hb.lt_of_lookup ho
      have hg : ((start.run keyOf earlier).execute change).calls ≤
          (((start.run keyOf earlier).execute change).run keyOf u).calls := calls_le_run _ u
      rw [calls_execute] at hg
      omega
    · exact hh

theorem numbered_start (tenants : List Nat) (installations : Table Nat Installation)
    (he : 0 < maxEntries) (ht : 0 < ttlSeconds) :
    Numbered (.start tenants installations maxEntries ttlSeconds he ht) :=
  ⟨fun _ _ => rfl, fun _ _ => rfl⟩

/-- Whatever the size of the cache and its time to live, the calls, their order and the
clock: administrative calls take effect at once, if no lookup is overtaken. -/
theorem changes_take_effect (keyOf : Request → Option Key) (tenants : List Nat)
    (installations : Table Nat Installation) {maxEntries : Nat} {ttlSeconds : ℚ}
    (hentries : 0 < maxEntries) (httl : 0 < ttlSeconds) {run : List (Event Request)}
    (hnone : NoneOvertaken keyOf
      (.start tenants installations maxEntries ttlSeconds hentries httl) run) :
    ChangesTakeEffect keyOf (.start tenants installations maxEntries ttlSeconds hentries httl)
      run :=
  changesTakeEffect_of_noneOvertaken (numbered_start tenants installations hentries httl) hnone

end Runs

def acme : Installation where
  tenantId := 1
  provider := "slack"
  installationId := "T1"
  secretRef := some "s"

def gateway : Process :=
  .start [1] (Table.put ∅ 7 acme) 4096 300 (by decide) (by decide)

/-- The installation is in the cache, and a request hits it while it is being disabled. The
requests are the keys. -/
def cachedBefore : List (Event Key) :=
  [.resolve acme.key 0, .select 0, .resume 0 1, .change (.setEnabled 7 false), .resolve acme.key 2]

theorem changes_take_effect_cached : ChangesTakeEffect some gateway (cachedBefore ++
      [.execute 1, .conclude 1, .resolve acme.key 3, .select 3, .resume 3 4]) := by
  refine changes_take_effect some [1] (Table.put ∅ 7 acme) _ _ ?_
  intro earlier change key later call now rest old hrun _ _ hold _
  -- The one statement of an administrative call comes sixth, and one lookup goes on after it.
  obtain ⟨rfl, -, hlast⟩ : earlier = cachedBefore ∧ change = 1 ∧ later ++ .resume call now :: rest =
      [.conclude 1, .resolve acme.key 3, .select 3, .resume 3 4] := by
    simpa [cachedBefore, List.cons_eq_append_iff] using hrun
  have hresumed : .resume call now ∈ later ++ .resume call now :: rest := by simp
  obtain ⟨rfl, -⟩ : call = 3 ∧ now = 4 := by simpa [hlast] using hresumed
  have hnone : ((gateway.run some cachedBefore).lookups 3).isNone := by decide +kernel
  rw [gateway, hold] at hnone
  cases hnone

/-- A lookup misses the cache and reads the enabled row; the installation is disabled, and
the call returns; the lookup goes on. -/
def overtaken : List (Event Key) :=
  [.resolve acme.key 0, .select 0, .change (.setEnabled 7 false), .execute 1, .conclude 1,
    .resume 0 1]

/-- A request that comes after all that is still resolved. -/
theorem resolves_disabled :
    ¬ ChangesTakeEffect some gateway (overtaken ++ [.resolve acme.key 2]) := by
  intro htakes
  have hheld := htakes [.resolve acme.key 0, .select 0, .change (.setEnabled 7 false)] 1 acme.key
    [.conclude 1] [.resume 0 1] (.resolve acme.key 2) [] 2 (.hit 1 7 (some "s")) rfl
    ⟨_, rfl, rfl⟩ ⟨[], [], .setEnabled 7 false, rfl, rfl⟩ (by decide) (by decide +kernel)
  obtain ⟨first, last, hsplit, hvalue⟩ := hheld
  -- The row is disabled from the UPDATE on.
  rcases first with _ | ⟨event, _ | ⟨next, more⟩⟩
  · exact absurd hvalue (by decide)
  · cases hsplit
    exact absurd hvalue (by decide)
  · simp only [List.cons_append, List.nil_append, List.cons.injEq, List.nil_eq,
      List.append_eq_nil_iff] at hsplit
    obtain ⟨rfl, rfl, rfl, -⟩ := hsplit
    exact absurd hvalue (by decide +kernel)

end FyralisCore.Webhooks
