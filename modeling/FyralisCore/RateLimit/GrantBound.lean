import FyralisCore.Lib.Quota
import FyralisCore.RateLimit.Scripts

/-! What a bucket grants. The tokens a bucket could hand out by the latest clock
reading are its level plus the refill up to that reading; a grant pays its cost
out of them and nothing adds to them, whichever way the clocks run. -/
namespace FyralisCore.RateLimit

open Amortized

structure BucketSpec where
  capacity : Rat
  refillPerSec : Rat
deriving DecidableEq

structure AcquireCall where
  serverMs : Rat
  nowMs : Rat
  cost : Rat
deriving DecidableEq

section

variable (spec : BucketSpec)

def BucketSpec.args (call : AcquireCall) : AcquireArgs :=
  ⟨call.nowMs, spec.capacity, spec.refillPerSec, call.cost⟩

def acquireStep (key : BucketKey) (call : AcquireCall) : BucketKey :=
  afterAcquire call.serverMs (spec.args call) key

def grantedCost (key : BucketKey) (call : AcquireCall) : Rat :=
  if Granted call.serverMs (spec.args call) key then call.cost else 0

def totalGranted : BucketKey → List AcquireCall → Rat :=
  total (acquireStep spec) (grantedCost spec)

def StaysAlive : BucketKey → List AcquireCall → Prop :=
  Along (acquireStep spec) fun key call => ¬ key.Expired call.serverMs

end

instance (spec : BucketSpec) (key : BucketKey) (calls : List AcquireCall) :
    Decidable (StaysAlive spec key calls) :=
  inferInstanceAs (Decidable (Along _ _ key calls))

def latestNowMs (first : AcquireCall) (rest : List AcquireCall) : Rat :=
  rest.foldl (fun latest call => max latest call.nowMs) first.nowMs

variable {spec : BucketSpec} {key : BucketKey} {call : AcquireCall}

theorem le_foldl_max (latest : Rat) (calls : List AcquireCall) :
    latest ≤ calls.foldl (fun latest call => max latest call.nowMs) latest ∧ ∀ call ∈ calls,
        call.nowMs ≤ calls.foldl (fun latest call => max latest call.nowMs) latest := by
  induction calls generalizing latest with
  | nil => simp
  | cons first rest ih =>
    obtain ⟨hs, ht⟩ := ih (max latest first.nowMs)
    refine ⟨(le_max_left _ _).trans hs, ?_⟩
    intro call hc
    rcases List.mem_cons.mp hc with rfl | htl
    · exact (le_max_right _ _).trans hs
    · exact ht call htl

theorem nowMs_le_latestNowMs (hc : call ∈ first :: rest) : call.nowMs ≤ latestNowMs first rest := by
  rcases List.mem_cons.mp hc with rfl | ht
  · exact (le_foldl_max call.nowMs rest).1
  · exact (le_foldl_max first.nowMs rest).2 call ht

def Written (key : BucketKey) : Prop := key.tokens.isSome ∧ key.updatedAtMs.isSome

def spendable (spec : BucketSpec) (latest : Rat) (key : BucketKey) : Rat :=
  max 0 (key.tokens.getD 0 + spec.refillPerSec * (latest - key.updatedAtMs.getD 0) / 1000)

theorem spendable_nonneg (latest : Rat) (key : BucketKey) : 0 ≤ spendable spec latest key :=
  le_max_left _ _

theorem spendable_written (latest tokens updatedAtMs : Rat) (lockout expireAtMs : Option Rat) :
    spendable spec latest ⟨some tokens, some updatedAtMs, lockout, expireAtMs⟩ =
      max 0 (tokens + spec.refillPerSec * (latest - updatedAtMs) / 1000) := rfl

variable {latest : Rat} {calls : List AcquireCall}

/-- An acquire that writes pays for its grant out of any level that bounds the
refilled one. -/
theorem paid_of_level (level : Rat) (hr : 0 ≤ spec.refillPerSec) (hn : call.nowMs ≤ latest)
    (hal : ¬ key.Expired call.serverMs) (hf : ¬ key.LockedOut call.nowMs)
    (hlv : ∀ tokens, refilledTokens (spec.args call) key = some tokens → tokens ≤ level)
    (hs : (refilledTokens (spec.args call) key).isSome) : Written (acquireStep spec key call) ∧
      grantedCost spec key call + spendable spec latest (acquireStep spec key call) ≤
        max 0 (level + spec.refillPerSec * (latest - call.nowMs) / 1000) := by
  have hlk := lookup_of_alive hal
  have hro : 0 ≤ spec.refillPerSec * (latest - call.nowMs) / 1000 :=
    div_nonneg (mul_nonneg hr (sub_nonneg.mpr hn)) (by norm_num)
  unfold acquireStep grantedCost
  cases acquire_cases call.serverMs (spec.args call) key with
  | lockedOut hlkd ha hd => exact absurd (hlk ▸ hlkd) hf
  | raised _ ht ha hd => rw [hlk] at ht; simp [ht] at hs
  | granted tokens _ ht hc hg ha =>
    rw [hlk] at ht
    have htokens_le := hlv tokens ht
    have hp : call.cost ≤ tokens := hc
    rw [ha, if_pos hg, spendable_written]
    refine ⟨by simp [Written], ?_⟩
    have hl : 0 ≤ tokens - call.cost +
        spec.refillPerSec * (latest - call.nowMs) / 1000 := by linarith
    simp only [BucketSpec.args, max_eq_right hl]
    exact le_max_of_le_right (by linarith)
  | short tokens _ ht hc hd ha =>
    rw [hlk] at ht
    have htokens_le := hlv tokens ht
    rw [ha, if_neg hd, spendable_written, zero_add]
    refine ⟨by simp [Written], max_le_max le_rfl ?_⟩
    simp only [BucketSpec.args]
    linarith

theorem spendable_step (hrf : 0 ≤ spec.refillPerSec) (hw : Written key)
    (ha : ¬ key.Expired call.serverMs) (hn : call.nowMs ≤ latest) :
    Written (acquireStep spec key call) ∧
      grantedCost spec key call + spendable spec latest (acquireStep spec key call) ≤
        spendable spec latest key := by
  obtain ⟨tokens, ht⟩ := Option.isSome_iff_exists.mp hw.1
  obtain ⟨updatedAtMs, hu⟩ := Option.isSome_iff_exists.mp hw.2
  by_cases hlk : key.LockedOut call.nowMs
  · obtain ⟨hs, hd⟩ := afterAcquire_of_lockedOut (spec.args call) ha hlk
    rw [show acquireStep spec key call = key from hs, grantedCost, if_neg hd, zero_add]
    exact ⟨hw, le_rfl⟩
  · have hr : refilledTokens (spec.args call) key = some (min spec.capacity
        (tokens + (call.nowMs - updatedAtMs) * spec.refillPerSec / 1000)) := by
      simp [refilledTokens, ht, hu, BucketSpec.args]
    obtain ⟨hw', hp⟩ := paid_of_level
      (tokens + (call.nowMs - updatedAtMs) * spec.refillPerSec / 1000) hrf hn ha hlk
      (by rw [hr]; intro level hl; exact Option.some.inj hl ▸ min_le_right _ _)
      (by simp [hr])
    refine ⟨hw', hp.trans (le_of_eq ?_)⟩
    simp only [spendable, ht, hu, Option.getD_some]
    congr 1
    ring

theorem totalGranted_le_spendable (hr : 0 ≤ spec.refillPerSec) (hw : Written key)
    (hal : StaysAlive spec key calls) (hn : ∀ call ∈ calls, call.nowMs ≤ latest) :
    totalGranted spec key calls ≤ spendable spec latest key := by
  have ha : Along (acquireStep spec)
      (fun key call => ¬ key.Expired call.serverMs ∧ call.nowMs ≤ latest) key calls := by
    clear hw
    induction calls generalizing key with
    | nil => trivial
    | cons first rest ih =>
      exact ⟨⟨hal.1, hn first (.head _)⟩, ih hal.2 fun call hc => hn call (.tail _ hc)⟩
  exact total_le_potential Written (spendable spec latest)
    (fun key call hw hc => spendable_step hr hw hc.1 hc.2)
    (fun key _ => spendable_nonneg latest key) hw ha

theorem totalGranted_of_halfWritten (htk : key.tokens.isSome)
    (hu : key.updatedAtMs = none) (hal : StaysAlive spec key calls) :
    totalGranted spec key calls = 0 := by
  induction calls with
  | nil => rfl
  | cons call rest ih =>
    obtain ⟨tokens, ht'⟩ := Option.isSome_iff_exists.mp htk
    have hl := lookup_of_alive hal.1
    have hr : refilledTokens (spec.args call) key = none := by
      simp [refilledTokens, ht', hu]
    have hs : acquireStep spec key call = key ∧ ¬ Granted call.serverMs (spec.args call) key := by
      cases acquire_cases call.serverMs (spec.args call) key with
      | lockedOut _ ha hd => exact ⟨ha.trans hl, hd⟩
      | raised _ _ ha hd => exact ⟨ha, hd⟩
      | granted _ _ hsm => rw [hl, hr] at hsm; cases hsm
      | short _ _ hsm => rw [hl, hr] at hsm; cases hsm
    have ht := hal.2
    rw [hs.1] at ht
    have hc : grantedCost spec key call = 0 := if_neg hs.2
    calc totalGranted spec key (call :: rest)
        = grantedCost spec key call + totalGranted spec (acquireStep spec key call) rest := rfl
      _ = 0 := by rw [hc, hs.1, ih ht, add_zero]

/-- Whatever the bucket holds, it grants no more than its capacity and the refill
since `start`, when no execution that gets past a lockout is earlier than `start`. -/
theorem totalGranted_le_of_start (hc : 0 ≤ spec.capacity)
    (hrf : 0 ≤ spec.refillPerSec) (ha : StaysAlive spec key calls)
    (hn : ∀ call ∈ calls, call.nowMs ≤ latest) (hla : start ≤ latest)
    (hs0 : (∀ call ∈ calls.head?, start ≤ call.nowMs) ∨ key.LockedOut start) :
    totalGranted spec key calls ≤ spec.capacity + spec.refillPerSec * (latest - start) / 1000 := by
  have hro : 0 ≤ spec.refillPerSec * (latest - start) / 1000 :=
    div_nonneg (mul_nonneg hrf (sub_nonneg.mpr hla)) (by norm_num)
  induction calls with
  | nil => exact add_nonneg hc hro
  | cons call rest ih =>
    have hr : ∀ other ∈ rest, other.nowMs ≤ latest := fun other ho => hn other (.tail _ ho)
    by_cases hlk : key.LockedOut call.nowMs
    · -- The lockout stands, so it also outlasts every later execution it denies.
      obtain ⟨hs, hd⟩ := afterAcquire_of_lockedOut (spec.args call) ha.1 hlk
      have hst : acquireStep spec key call = key := hs
      have hl' : key.LockedOut start := by
        rcases hs0 with hh | hl'
        · obtain ⟨lockout, hl, hlt⟩ := hlk
          exact ⟨lockout, hl, (hh call rfl).trans_lt hlt⟩
        · exact hl'
      have ht := ha.2
      rw [hst] at ht
      have hch : grantedCost spec key call = 0 := if_neg hd
      calc totalGranted spec key (call :: rest)
          = grantedCost spec key call + totalGranted spec (acquireStep spec key call) rest := rfl
        _ = totalGranted spec key rest := by rw [hch, hst, zero_add]
        _ ≤ _ := ih ht hr (.inr hl')
    · -- The first execution past the lockout starts from a level of at most the capacity.
      have h1 : start ≤ call.nowMs := by
        rcases hs0 with hh | ⟨lockout, hl, hlt⟩
        · exact hh call rfl
        · by_contra hp
          exact hlk ⟨lockout, hl, (not_le.mp hp).trans hlt⟩
      cases hsm : refilledTokens (spec.args call) key with
      | none =>
        have hhl : key.tokens.isSome ∧ key.updatedAtMs = none := by
          unfold refilledTokens at hsm
          split at hsm
          · cases hsm
          · next tokens htk hu => exact ⟨by simp [htk], hu⟩
          · cases hsm
        rw [totalGranted_of_halfWritten hhl.1 hhl.2 ha]
        exact add_nonneg hc hro
      | some tokens =>
        obtain ⟨hw, hpd⟩ := paid_of_level spec.capacity hrf (hn call (.head _)) ha.1 hlk
          (fun tokens htk => by
            have hcp := refilledTokens_le_capacity htk
            exact hcp)
          (by simp [hsm])
        have hls : spec.refillPerSec * (latest - call.nowMs) / 1000 ≤
            spec.refillPerSec * (latest - start) / 1000 := div_le_div_of_nonneg_right
            (mul_le_mul_of_nonneg_left (sub_le_sub_left h1 latest) hrf) (by norm_num)
        calc totalGranted spec key (call :: rest)
            = grantedCost spec key call + totalGranted spec (acquireStep spec key call) rest := rfl
          _ ≤ grantedCost spec key call + spendable spec latest (acquireStep spec key call) :=
              add_le_add_right (totalGranted_le_spendable hrf hw ha.2 hr) _
          _ ≤ max 0 (spec.capacity + spec.refillPerSec * (latest - call.nowMs) / 1000) := hpd
          _ ≤ spec.capacity + spec.refillPerSec * (latest - start) / 1000 :=
              max_le (add_nonneg hc hro) (add_le_add_right hls _)

/-- A bucket never grants more than its capacity and the refill over the time
its callers' clocks span, however those clocks run. -/
theorem totalGranted_le {first : AcquireCall} {rest : List AcquireCall}
    (hcapacity : 0 ≤ spec.capacity) (hrefill : 0 ≤ spec.refillPerSec)
    (halive : StaysAlive spec key (first :: rest)) : totalGranted spec key (first :: rest) ≤
      spec.capacity + spec.refillPerSec * (latestNowMs first rest - first.nowMs) / 1000 :=
  totalGranted_le_of_start hcapacity hrefill halive (fun _ hcall => nowMs_le_latestNowMs hcall)
    (nowMs_le_latestNowMs (.head _)) (.inl fun _ hhead => (Option.some.inj hhead) ▸ le_rfl)

/-- Two tokens at ten per second, clocks that run backwards: two of the three
acquires are granted. -/
theorem totalGranted_le_skewed :
    totalGranted ⟨2, 10⟩ .absent [⟨0, 500, 1⟩, ⟨1, 400, 1⟩, ⟨2, 600, 1⟩] ≤
      (2 : Rat) + 10 * (latestNowMs ⟨0, 500, 1⟩ [⟨1, 400, 1⟩, ⟨2, 600, 1⟩] - 500) / 1000 :=
  totalGranted_le (by norm_num) (by norm_num) (by decide +kernel)

end FyralisCore.RateLimit
