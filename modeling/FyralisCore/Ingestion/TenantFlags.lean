import Mathlib.Logic.Function.Basic
import Mathlib.Tactic.Cases

/-! The flag `ingestion.kafka_path_enabled` as a process reads it: a cache whose
entries live for a TTL, and behind it one SELECT at a time under the cache's
lock. Only the process that sets a flag drops its own entry. -/
namespace FyralisCore.Ingestion

open Option Function

structure CacheEntry where
  value : Bool
  expiresAt : Nat
deriving DecidableEq

/-- A read that holds the lock, and what its SELECT found once it has run. -/
structure FlagRead (Tenant Caller : Type) where
  tenant : Tenant
  caller : Caller
  row : Option (Option Bool) := none

/-- `TenantFlags` of one process with its `FlagCache`. -/
structure FlagReader (Tenant Caller : Type) where
  entries : Tenant → Option CacheEntry := fun _ => none
  reading : Option (FlagRead Tenant Caller) := none
  /-- what the last SELECT on the tenant's row found -/
  seen : Tenant → Option (Option Bool) := fun _ => none

inductive FlagMove (Tenant Caller : Type) where
  /-- the caller finds an entry that is fresh, before the lock or under it -/
  | lookUp (tenant : Tenant) (caller : Caller)
  | beginRead (tenant : Tenant) (caller : Caller)
  | select
  | endRead
  /-- `fetchrow` raises -/
  | readFails
  /-- the caller is cancelled -/
  | abandon
  | invalidate (tenant : Tenant)

structure FlagAnswer (Tenant Caller : Type) where
  tenant : Tenant
  caller : Caller
  value : Bool

variable {Tenant Caller : Type}

def FlagReader.fresh (reader : FlagReader Tenant Caller) (now : Nat) (tenant : Tenant) :
    Option Bool :=
  (reader.entries tenant).bind fun entry => if entry.expiresAt ≤ now then none else some entry.value

variable [DecidableEq Tenant]

def FlagReader.store (reader : FlagReader Tenant Caller) (ttl now : Nat) (tenant : Tenant)
    (value : Bool) : FlagReader Tenant Caller :=
  { reader with entries := Function.update reader.entries tenant (some ⟨value, now + ttl⟩) }

/-- What a process may do next with its flags, and what it then answers. -/
def FlagReader.move (pathDefault : Bool) (ttl now : Nat) (flags : Tenant → Option Bool)
    (reader : FlagReader Tenant Caller) :
    FlagMove Tenant Caller → Option (FlagReader Tenant Caller × Option (FlagAnswer Tenant Caller))
  | .lookUp tenant caller =>
    (reader.fresh now tenant).map fun value => (reader, some ⟨tenant, caller, value⟩)
  | .beginRead tenant caller =>
    if reader.reading.isNone ∧ reader.fresh now tenant = none then
      some ({ reader with reading := some ⟨tenant, caller, none⟩ }, none)
    else none
  | .select =>
    match reader.reading with
    | some ⟨tenant, caller, none⟩ =>
      some ({ reader with
        reading := some ⟨tenant, caller, some (flags tenant)⟩
        seen := Function.update reader.seen tenant (some (flags tenant)) }, none)
    | _ => none
  | .endRead =>
    match reader.reading with
    | some ⟨tenant, caller, some row⟩ =>
      let value := row.getD pathDefault
      some (({ reader with reading := none }).store ttl now tenant value,
        some ⟨tenant, caller, value⟩)
    | _ => none
  | .readFails =>
    reader.reading.map fun read =>
      ({ reader with reading := none }, some ⟨read.tenant, read.caller, pathDefault⟩)
  | .abandon => some ({ reader with reading := none }, none)
  | .invalidate tenant =>
    some ({ reader with entries := Function.update reader.entries tenant none }, none)

/-! ### What a process answers is what it last saw -/

structure FlagReader.Current (pathDefault : Bool) (now : Nat)
    (reader : FlagReader Tenant Caller) : Prop where
  fresh_seen : ∀ tenant value, reader.fresh now tenant = some value →
    ∃ row, reader.seen tenant = some row ∧ row.getD pathDefault = value
  reading_seen : ∀ tenant caller row, reader.reading = some ⟨tenant, caller, some row⟩ →
    reader.seen tenant = some row
  reading_stale : ∀ read, reader.reading = some read → reader.fresh now read.tenant = none

section Current

variable {pathDefault : Bool} {ttl now u : Nat} {flags : Tenant → Option Bool}
  {reader reader' : FlagReader Tenant Caller} {move : FlagMove Tenant Caller}
  {answer : Option (FlagAnswer Tenant Caller)}

omit [DecidableEq Tenant] in
theorem fresh_of_le (hl : now ≤ u)
    (hf : reader.fresh u tenant = some value) : reader.fresh now tenant = some value := by
  obtain ⟨e, he, hvl⟩ := bind_eq_some_iff.mp hf
  split at hvl
  · cases hvl
  · next hv =>
    have hp : ¬ e.expiresAt ≤ now := by omega
    simp only [FlagReader.fresh, he, bind_some, if_neg hp]
    exact hvl

omit [DecidableEq Tenant] in
theorem FlagReader.Current.mono (hc : reader.Current pathDefault now) (hl : now ≤ u) :
    reader.Current pathDefault u where
  fresh_seen tenant v hf := hc.fresh_seen tenant v (fresh_of_le hl hf)
  reading_seen := hc.reading_seen
  reading_stale read hr := by
    have hs := hc.reading_stale read hr
    cases hf : reader.fresh u read.tenant with
    | none => rfl
    | some v =>
      rw [fresh_of_le hl hf] at hs
      cases hs

omit [DecidableEq Tenant] in
theorem current_initial : ({} : FlagReader Tenant Caller).Current pathDefault now where
  fresh_seen tenant v hf := by simp [FlagReader.fresh] at hf
  reading_seen tenant caller row hr := by simp at hr
  reading_stale read hr := by simp at hr

theorem fresh_store (hn : other ≠ tenant) :
    (reader.store ttl now tenant v).fresh now other = reader.fresh now other := by
  simp [FlagReader.fresh, FlagReader.store, update_of_ne hn]

theorem fresh_store_self (hf : (reader.store ttl now tenant value).fresh now tenant = some found) :
    found = value := by
  simp only [FlagReader.fresh, FlagReader.store, update_self, bind_some] at hf
  split at hf
  · cases hf
  · exact (Option.some.inj hf).symm

theorem current_move (hc : reader.Current pathDefault now)
    (hm : reader.move pathDefault ttl now flags move = some (reader', answer)) :
    reader'.Current pathDefault now := by
  obtain ⟨hf, hs, hsl⟩ := hc
  cases move with
  | lookUp tenant caller =>
    obtain ⟨value, -, he⟩ := map_eq_some_iff.mp hm
    cases he
    exact ⟨hf, hs, hsl⟩
  | beginRead tenant caller =>
    obtain ⟨⟨-, hn⟩, he⟩ := ite_none_right_eq_some.mp hm
    cases he
    refine ⟨hf, fun _ _ _ hr => ?_, fun read hr => ?_⟩
    · cases hr
    · cases hr
      exact hn
  | select =>
    simp only [FlagReader.move] at hm
    split at hm
    · next tenant caller hr =>
      cases hm
      have hn := hsl _ hr
      refine ⟨fun other value hv => ?_, fun other _ row ho => ?_, fun read ho => ?_⟩
      · -- the tenant of the read has no fresh entry
        have hne : other ≠ tenant := by
          rintro rfl
          exact absurd (hv.symm.trans hn) (by simp)
        simp only [update_of_ne hne]
        exact hf other value hv
      · cases ho
        exact update_self ..
      · cases ho
        exact hn
    · cases hm
  | endRead =>
    simp only [FlagReader.move] at hm
    split at hm
    · next tenant caller row hr =>
      cases hm
      refine ⟨fun other value hv => ?_, fun _ _ _ ho => ?_, fun _ ho => ?_⟩
      · by_cases ho : other = tenant
        · subst ho
          exact ⟨row, hs _ _ _ hr, (fresh_store_self hv).symm⟩
        · rw [fresh_store ho] at hv
          exact hf other value hv
      · cases ho
      · cases ho
    · cases hm
  | readFails =>
    obtain ⟨read, -, he⟩ := map_eq_some_iff.mp hm
    cases he
    refine ⟨hf, fun _ _ _ ho => ?_, fun _ ho => ?_⟩
    · cases ho
    · cases ho
  | abandon =>
    cases hm
    refine ⟨hf, fun _ _ _ ho => ?_, fun _ ho => ?_⟩
    · cases ho
    · cases ho
  | invalidate tenant =>
    cases hm
    have hl : ∀ other value,
        ({ reader with entries := Function.update reader.entries tenant none } :
          FlagReader Tenant Caller).fresh now other = some value →
            reader.fresh now other = some value := by
      intro other value hv
      by_cases ho : other = tenant
      · subst ho
        simp [FlagReader.fresh] at hv
      · simpa only [FlagReader.fresh, update_of_ne ho] using hv
    refine ⟨fun other value hv => hf other value (hl other value hv), hs,
      fun read hr => ?_⟩
    cases hv : FlagReader.fresh _ now read.tenant with
    | none => rfl
    | some value =>
      have hn := hsl read hr
      rw [hl _ _ hv] at hn
      cases hn

theorem answer_of_move (hc : reader.Current pathDefault now)
    (hm : reader.move pathDefault ttl now flags move = some (reader', some answered)) :
    (move = .lookUp answered.tenant answered.caller ∨ move = .endRead ∧
        ∃ row, reader.reading = some ⟨answered.tenant, answered.caller, row⟩) ∧
      (∃ row, reader.seen answered.tenant = some row ∧ answered.value = row.getD pathDefault) ∨
    (move = .readFails ∧ ∃ row, reader.reading = some ⟨answered.tenant, answered.caller, row⟩) ∧
      answered.value = pathDefault := by
  cases move with
  | lookUp tenant caller =>
    obtain ⟨v, hf, he⟩ := map_eq_some_iff.mp hm
    cases he
    obtain ⟨row, hs, hv⟩ := hc.fresh_seen tenant v hf
    exact .inl ⟨.inl rfl, row, hs, hv.symm⟩
  | endRead =>
    simp only [FlagReader.move] at hm
    split at hm
    · next tenant caller row hr =>
      cases hm
      exact .inl ⟨.inr ⟨rfl, _, hr⟩, row, hc.reading_seen _ _ _ hr, rfl⟩
    · cases hm
  | readFails =>
    obtain ⟨read, hr, he⟩ := map_eq_some_iff.mp hm
    cases he
    exact .inr ⟨⟨rfl, read.row, hr⟩, rfl⟩
  | beginRead | select | abandon | invalidate =>
    simp only [FlagReader.move] at hm
    grind

end Current

end FyralisCore.Ingestion
