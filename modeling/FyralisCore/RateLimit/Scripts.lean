import Mathlib.Data.Rat.Floor

/-! The two Lua scripts of the rate limiter. Redis runs a script atomically, so
each is one function of the bucket's key. Numbers are exact rationals. -/
namespace FyralisCore.RateLimit

/-- A bucket's hash, with the server time after which redis drops the key. -/
structure BucketKey where
  tokens : Option Rat
  updatedAtMs : Option Rat
  lockoutUntilMs : Option Rat
  expireAtMs : Option Rat
deriving DecidableEq

def BucketKey.absent : BucketKey := ⟨none, none, none, none⟩

def BucketKey.Expired (key : BucketKey) (serverMs : Rat) : Prop :=
  ∃ expireAtMs ∈ key.expireAtMs, expireAtMs < serverMs

instance (key : BucketKey) (serverMs : Rat) : Decidable (key.Expired serverMs) :=
  inferInstanceAs (Decidable (∃ expireAtMs ∈ key.expireAtMs, expireAtMs < serverMs))

def BucketKey.lookup (key : BucketKey) (serverMs : Rat) : BucketKey :=
  if key.Expired serverMs then .absent else key

def ttlMs : Rat := 86400000

def BucketKey.pexpire (key : BucketKey) (serverMs : Rat) : BucketKey :=
  { key with expireAtMs := some (serverMs + ttlMs) }

def BucketKey.setTokens (key : BucketKey) (tokens nowMs : Rat) : BucketKey :=
  { key with tokens := some tokens, updatedAtMs := some nowMs }

def BucketKey.deleteLockout (key : BucketKey) : BucketKey := { key with lockoutUntilMs := none }

structure AcquireArgs where
  nowMs : Rat
  capacity : Rat
  refillPerSec : Rat
  cost : Rat
deriving DecidableEq

structure AcquireReply where
  granted : Nat
  tokensRemaining : Rat
  retryAfterMs : Rat
deriving DecidableEq

/-- The token level at `now_ms`; the fields of the hash are read as Lua reads
them, and arithmetic on a missing `updated_at_ms` is an error. -/
def refilledTokens (args : AcquireArgs) (key : BucketKey) : Option Rat :=
  match key.tokens, key.updatedAtMs with
  | none, _ => some (min args.capacity
      (args.capacity + (args.nowMs - args.nowMs) * args.refillPerSec / 1000))
  | some _, none => none
  | some tokens, some updatedAtMs => some (min args.capacity
      (tokens + (args.nowMs - updatedAtMs) * args.refillPerSec / 1000))

def BucketKey.LockedOut (key : BucketKey) (nowMs : Rat) : Prop :=
  ∃ lockoutUntilMs ∈ key.lockoutUntilMs, nowMs < lockoutUntilMs

instance (key : BucketKey) (nowMs : Rat) : Decidable (key.LockedOut nowMs) :=
  inferInstanceAs (Decidable (∃ lockoutUntilMs ∈ key.lockoutUntilMs, nowMs < lockoutUntilMs))

/-- acquire.lua; `none` is a script error, which leaves the key as it was. -/
def acquire (serverMs : Rat) (args : AcquireArgs) (key : BucketKey) :
    Option (AcquireReply × BucketKey) :=
  let key := key.lookup serverMs
  if key.LockedOut args.nowMs then
    some (⟨0, key.tokens.getD args.capacity, key.lockoutUntilMs.getD 0 - args.nowMs⟩, key)
  else
    match refilledTokens args key with
    | none => none
    | some tokens =>
      if args.cost ≤ tokens then
        some (⟨1, tokens - args.cost, 0⟩,
          (((key.setTokens (tokens - args.cost) args.nowMs).deleteLockout).pexpire serverMs))
      else if args.refillPerSec = 0 then
        -- The sentinel: no refill will ever serve this cost.
        some (⟨0, tokens, -1⟩, (key.setTokens tokens args.nowMs).pexpire serverMs)
      else
        some (⟨0, tokens, ⌈(args.cost - tokens) / args.refillPerSec * 1000⌉⟩,
          (key.setTokens tokens args.nowMs).pexpire serverMs)

def reportRetryAfter (serverMs nowMs retryAfterMs : Rat) (key : BucketKey) : BucketKey :=
  { key.lookup serverMs with lockoutUntilMs := some (nowMs + retryAfterMs) }.pexpire serverMs

def AcquireReply.isGranted (reply : AcquireReply) : Prop := reply.granted ≠ 0

instance (reply : AcquireReply) : Decidable reply.isGranted :=
  inferInstanceAs (Decidable (reply.granted ≠ 0))

def afterAcquire (serverMs : Rat) (args : AcquireArgs) (key : BucketKey) : BucketKey :=
  match acquire serverMs args key with
  | none => key
  | some (_, after) => after

def Granted (serverMs : Rat) (args : AcquireArgs) (key : BucketKey) : Prop :=
  ∃ result ∈ acquire serverMs args key, result.1.isGranted

instance (serverMs : Rat) (args : AcquireArgs) (key : BucketKey) :
    Decidable (Granted serverMs args key) :=
  inferInstanceAs (Decidable (∃ result ∈ acquire serverMs args key, result.1.isGranted))

variable {serverMs : Rat} {args : AcquireArgs} {key : BucketKey}

theorem lookup_of_alive (ha : ¬ key.Expired serverMs) : key.lookup serverMs = key := by
  simp [BucketKey.lookup, ha]

/-- What an acquire does: a lockout in force denies it and writes nothing, a
half-written hash raises, and otherwise the refilled level decides. -/
inductive AcquireCase (serverMs : Rat) (args : AcquireArgs) (key after : BucketKey) : Prop where
  | lockedOut (hlocked : (key.lookup serverMs).LockedOut args.nowMs)
      (hafter : after = key.lookup serverMs) (hdenied : ¬ Granted serverMs args key)
  | raised (hfree : ¬ (key.lookup serverMs).LockedOut args.nowMs)
      (htokens : refilledTokens args (key.lookup serverMs) = none)
      (hafter : after = key) (hdenied : ¬ Granted serverMs args key)
  | granted (tokens : Rat) (hfree : ¬ (key.lookup serverMs).LockedOut args.nowMs)
      (htokens : refilledTokens args (key.lookup serverMs) = some tokens)
      (hcost : args.cost ≤ tokens) (hgranted : Granted serverMs args key)
      (hafter : after = ⟨some (tokens - args.cost), some args.nowMs, none, some (serverMs + ttlMs)⟩)
  | short (tokens : Rat) (hfree : ¬ (key.lookup serverMs).LockedOut args.nowMs)
      (htokens : refilledTokens args (key.lookup serverMs) = some tokens)
      (hcost : tokens < args.cost) (hdenied : ¬ Granted serverMs args key)
      (hafter : after = ⟨some tokens, some args.nowMs, (key.lookup serverMs).lockoutUntilMs,
        some (serverMs + ttlMs)⟩)

theorem acquire_cases (serverMs : Rat) (args : AcquireArgs) (key : BucketKey) :
    AcquireCase serverMs args key (afterAcquire serverMs args key) := by
  by_cases hl : (key.lookup serverMs).LockedOut args.nowMs
  · exact .lockedOut hl (by simp [afterAcquire, acquire, hl])
      (by simp [Granted, acquire, hl, AcquireReply.isGranted])
  · cases ht : refilledTokens args (key.lookup serverMs) with
    | none =>
      exact .raised hl ht (by simp [afterAcquire, acquire, hl, ht])
        (by simp [Granted, acquire, hl, ht])
    | some tokens =>
      by_cases hc : args.cost ≤ tokens
      · exact .granted tokens hl ht hc
          (by simp [Granted, acquire, hl, ht, hc, AcquireReply.isGranted])
          (by simp [afterAcquire, acquire, hl, ht, hc, BucketKey.setTokens,
            BucketKey.deleteLockout, BucketKey.pexpire])
      · by_cases hr : args.refillPerSec = 0 <;>
        exact .short tokens hl ht (not_le.mp hc)
          (by simp [Granted, acquire, hl, ht, hc, hr, AcquireReply.isGranted])
          (by simp [afterAcquire, acquire, hl, ht, hc, hr, BucketKey.setTokens,
            BucketKey.pexpire])

theorem afterAcquire_of_lockedOut (args : AcquireArgs) (hal : ¬ key.Expired serverMs)
    (hl : key.LockedOut args.nowMs) :
    afterAcquire serverMs args key = key ∧ ¬ Granted serverMs args key := by
  have hlk := lookup_of_alive hal
  cases acquire_cases serverMs args key with
  | lockedOut _ ha hd => exact ⟨ha.trans hlk, hd⟩
  | raised hf => exact absurd (hlk.symm ▸ hl) hf
  | granted _ hf => exact absurd (hlk.symm ▸ hl) hf
  | short _ hf => exact absurd (hlk.symm ▸ hl) hf

theorem refilledTokens_le_capacity (ht : refilledTokens args key = some tokens) :
    tokens ≤ args.capacity := by
  unfold refilledTokens at ht
  split at ht
  · exact Option.some.inj ht ▸ min_le_left _ _
  · cases ht
  · exact Option.some.inj ht ▸ min_le_left _ _

theorem granted_iff : Granted serverMs args key ↔ ¬ (key.lookup serverMs).LockedOut args.nowMs ∧
      ∃ tokens, refilledTokens args (key.lookup serverMs) = some tokens ∧ args.cost ≤ tokens := by
  cases acquire_cases serverMs args key with
  | lockedOut hl _ hd => simp [hd, hl]
  | raised _ ht _ hd => simp [hd, ht]
  | granted tokens hf ht hc hg => simp [hg, hf, ht, hc]
  | short tokens _ ht hc hd => simp [hd, ht, hc]

theorem granted_of_expired (he : key.Expired u)
    (hc : args.cost ≤ args.capacity) : Granted u args key := by
  rw [granted_iff, BucketKey.lookup, if_pos he]
  exact ⟨by simp [BucketKey.LockedOut, BucketKey.absent], args.capacity,
    by simp [refilledTokens, BucketKey.absent], hc⟩

theorem acquire_denied (hr : args.refillPerSec ≠ 0)
    (ha : acquire serverMs args key = some (reply, t)) (hd : ¬ reply.isGranted)
    (hf : ¬ (key.lookup serverMs).LockedOut args.nowMs) : ∃ tokens, tokens < args.cost ∧
      reply.retryAfterMs = ⌈(args.cost - tokens) / args.refillPerSec * 1000⌉ ∧
      t = ⟨some tokens, some args.nowMs, (key.lookup serverMs).lockoutUntilMs,
        some (serverMs + ttlMs)⟩ := by
  simp only [acquire, hf, if_false, hr] at ha
  cases ht : refilledTokens args (key.lookup serverMs) with
  | none => simp [ht] at ha
  | some tokens =>
    by_cases hc : args.cost ≤ tokens
    · simp only [ht, hc, if_true, Option.some.injEq, Prod.mk.injEq] at ha
      exact absurd (ha.1 ▸ by simp [AcquireReply.isGranted]) hd
    · simp only [ht, hc, if_false, Option.some.injEq, Prod.mk.injEq] at ha
      obtain ⟨rfl, rfl⟩ := ha
      exact ⟨tokens, not_le.mp hc, rfl, rfl⟩

/-- After `elapsed` milliseconds, on a key that is still there. -/
theorem granted_after_iff
    (elapsed : Int) (hr : 0 < args.refillPerSec) (hc : args.cost ≤ args.capacity)
    (ha : ¬ (⟨some tokens, some nowMs, lockoutUntilMs, some expireAtMs⟩ : BucketKey).Expired
      u) : Granted u { args with nowMs := nowMs + elapsed }
        ⟨some tokens, some nowMs, lockoutUntilMs, some expireAtMs⟩ ↔
      (∀ lockout ∈ lockoutUntilMs, lockout ≤ nowMs + elapsed) ∧
        ⌈(args.cost - tokens) / args.refillPerSec * 1000⌉ ≤ elapsed := by
  have hw : args.cost ≤ tokens + elapsed * args.refillPerSec / 1000 ↔
      ⌈(args.cost - tokens) / args.refillPerSec * 1000⌉ ≤ elapsed := by
    rw [Int.ceil_le, ← le_div_iff₀ (by norm_num : (0 : Rat) < 1000), div_le_iff₀ hr,
      sub_le_iff_le_add']
    ring_nf
  rw [granted_iff, lookup_of_alive ha]
  simp [BucketKey.LockedOut, refilledTokens, hc, hw]

/-- A denial outside a lockout asks for the exact wait: the same cost is granted then, and
at an earlier millisecond only when redis has dropped the key, a day after the denial. -/
theorem retry_after_exact {reply : AcquireReply} {after : BucketKey} (elapsed : Int) (later : Rat)
    (hrefill : 0 < args.refillPerSec) (hcost : args.cost ≤ args.capacity)
    (hacquire : acquire serverMs args key = some (reply, after)) (hdenied : ¬ reply.isGranted)
    (hfree : ¬ (key.lookup serverMs).LockedOut args.nowMs) :
    Granted later { args with nowMs := args.nowMs + reply.retryAfterMs } after ∧
      (elapsed < reply.retryAfterMs →
        (Granted later { args with nowMs := args.nowMs + elapsed } after ↔
          serverMs + ttlMs < later)) := by
  obtain ⟨tokens, hshort, hretry, rfl⟩ := acquire_denied hrefill.ne' hacquire hdenied hfree
  have hpositive : 0 < ⌈(args.cost - tokens) / args.refillPerSec * 1000⌉ :=
    Int.ceil_pos.mpr (mul_pos (div_pos (sub_pos.mpr hshort) hrefill) (by norm_num))
  rw [hretry]
  by_cases hexpired : serverMs + ttlMs < later
  · have hkey : (⟨some tokens, some args.nowMs, (key.lookup serverMs).lockoutUntilMs,
        some (serverMs + ttlMs)⟩ : BucketKey).Expired later := ⟨_, rfl, hexpired⟩
    exact ⟨granted_of_expired hkey hcost,
      fun _ => iff_of_true (granted_of_expired hkey hcost) hexpired⟩
  · have halive : ¬ (⟨some tokens, some args.nowMs, (key.lookup serverMs).lockoutUntilMs,
        some (serverMs + ttlMs)⟩ : BucketKey).Expired later := by
      rintro ⟨_, ⟨⟩, hlater⟩
      exact hexpired hlater
    refine ⟨(granted_after_iff _ hrefill hcost halive).mpr ⟨fun lockout hmem => ?_, le_refl _⟩,
      fun hearlier => iff_of_false (fun hgranted => ?_) hexpired⟩
    · have hpast : lockout ≤ args.nowMs := not_lt.mp fun hlocked => hfree ⟨lockout, hmem, hlocked⟩
      have hwait : (0 : Rat) < ⌈(args.cost - tokens) / args.refillPerSec * 1000⌉ := by
        exact_mod_cast hpositive
      linarith
    · have hwait := ((granted_after_iff elapsed hrefill hcost halive).mp hgranted).2
      exact absurd (by exact_mod_cast hearlier) (not_lt.mpr hwait)

/-- One token a minute, spent: thirty seconds later there is half of one. -/
theorem retry_after_exact_minute :
    Granted 60000 ⟨60000, 1, 1 / 60, 1⟩ ⟨some 0, some 0, none, some 86400000⟩ ∧
      ¬ Granted 30000 ⟨30000, 1, 1 / 60, 1⟩ ⟨some 0, some 0, none, some 86400000⟩ := by
  have hacquire : acquire 0 ⟨0, 1, 1 / 60, 1⟩ ⟨some 0, some 0, none, none⟩ =
      some (⟨0, 0, 60000⟩, ⟨some 0, some 0, none, some 86400000⟩) := by decide +kernel
  have hexact := fun elapsed later => retry_after_exact elapsed later
    (by norm_num) (by norm_num) hacquire (by decide) (by decide +kernel)
  have hearlier := (hexact 30000 30000).2 (by norm_num)
  norm_num [ttlMs] at hearlier
  exact ⟨by simpa using (hexact 0 60000).1, by simpa using hearlier⟩

/-- With one token in 100000 seconds the bucket is dropped, and full, before it is refilled. -/
theorem granted_before_retry_after :
    ∃ reply after, acquire 0 ⟨0, 1, 1 / 100000, 1⟩ ⟨some 0, some 0, none, none⟩ =
        some (reply, after) ∧ reply.granted = 0 ∧ 90000000 < reply.retryAfterMs ∧
      Granted 90000000 ⟨90000000, 1, 1 / 100000, 1⟩ after :=
  ⟨⟨0, 0, 100000000⟩, ⟨some 0, some 0, none, some 86400000⟩, by decide +kernel, rfl,
    by norm_num, by decide +kernel⟩

end FyralisCore.RateLimit
