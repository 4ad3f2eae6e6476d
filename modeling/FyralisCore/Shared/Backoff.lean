import Mathlib.Tactic.Linarith

/-! `exponential_backoff_seconds` and the endless retry on it (`lib/shared/backoff.py`,
`workflows/retry.py`). The power is computed before the cap, in floats that end at `2 ^ 1024`. -/
namespace FyralisCore.Shared.Backoff

structure BackoffArgs where
  baseSeconds : ℚ := 10
  capSeconds : ℚ := 300
  multiplier : ℚ := 2
  jitterRatio : ℚ := 0
  minimumSeconds : ℚ := 0

inductive BackoffError where
  | valueError (message : String)
  | overflow

/-- `base ** exponent` on floats. -/
def floatPow (base : ℚ) (exponent : Nat) : Except BackoffError ℚ :=
  if base ^ exponent < 2 ^ 1024 then .ok (base ^ exponent) else .error .overflow

def exponentialBackoffSeconds (args : BackoffArgs) (rand : ℚ) (attempt : Int) :
    Except BackoffError ℚ :=
  if attempt ≤ 0 then .ok 0
  else if args.baseSeconds < 0 then .error (.valueError "base_seconds must be >= 0")
  else if args.capSeconds < 0 then .error (.valueError "cap_seconds must be >= 0")
  else if args.multiplier < 1 then .error (.valueError "multiplier must be >= 1")
  else if args.jitterRatio < 0 then .error (.valueError "jitter_ratio must be >= 0")
  else if args.minimumSeconds < 0 then .error (.valueError "minimum_seconds must be >= 0")
  else (floatPow args.multiplier (attempt - 1).toNat).map fun power =>
    let delay := min args.capSeconds (args.baseSeconds * power)
    let jitter := if args.jitterRatio = 0 then 0 else delay * args.jitterRatio * (2 * rand - 1)
    max args.minimumSeconds (delay + jitter)

/-- The calls that raise no `ValueError`. -/
def Accepted (args : BackoffArgs) (attempt : Int) : Prop :=
  attempt ≤ 0 ∨ 0 ≤ args.baseSeconds ∧ 0 ≤ args.capSeconds ∧ 1 ≤ args.multiplier ∧
    0 ≤ args.jitterRatio ∧ 0 ≤ args.minimumSeconds

theorem exponentialBackoffSeconds_of_nonpos (args : BackoffArgs) (rand : ℚ)
    (ha : attempt ≤ 0) : exponentialBackoffSeconds args rand attempt = .ok 0 := by
  rw [exponentialBackoffSeconds, if_pos ha]

theorem exponentialBackoffSeconds_of_pos (rand : ℚ) (hc : Accepted args attempt)
    (hj : args.jitterRatio = 0) (ha : 0 < attempt) :
    exponentialBackoffSeconds args rand attempt =
      (floatPow args.multiplier (attempt - 1).toNat).map fun power =>
        max args.minimumSeconds (min args.capSeconds (args.baseSeconds * power)) := by
  obtain ⟨hb, hp, hm, hr, hn⟩ := hc.resolve_left ha.not_ge
  rw [exponentialBackoffSeconds, if_neg ha.not_ge, if_neg hb.not_gt, if_neg hp.not_gt,
    if_neg hm.not_gt, if_neg hr.not_gt, if_neg hn.not_gt]
  simp only [hj, if_true, add_zero]

theorem exponentialBackoffSeconds_eq_ok (hc : Accepted args attempt) (hj : args.jitterRatio = 0)
    (ha : 0 < attempt) : exponentialBackoffSeconds args rand attempt = .ok delay ↔
      args.multiplier ^ (attempt - 1).toNat < 2 ^ 1024 ∧ delay = max args.minimumSeconds
        (min args.capSeconds (args.baseSeconds * args.multiplier ^ (attempt - 1).toNat)) := by
  rw [exponentialBackoffSeconds_of_pos rand hc hj ha, floatPow]
  split
  · next hp => simp only [Except.map, Except.ok.injEq, hp, true_and, eq_comm]
  · next hp => simp only [Except.map, reduceCtorEq, hp, false_and]

theorem accepted_of_ok (hd : exponentialBackoffSeconds args rand attempt = .ok delay) :
    Accepted args attempt := by
  by_contra hn
  obtain ⟨ha, hn⟩ := not_or.mp hn
  revert hd
  rw [exponentialBackoffSeconds, if_neg ha]
  iterate 5
    split
    · rintro ⟨⟩
  exact absurd ⟨by linarith, by linarith, by linarith, by linarith, by linarith⟩ hn

/-- The call returns, within its bounds, no more than any later call that returns. -/
def DelaysSoundly (args : BackoffArgs) (rand : ℚ) (attempt : Int) : Prop :=
  ∃ delay, exponentialBackoffSeconds args rand attempt = .ok delay ∧
    args.minimumSeconds ≤ delay ∧ delay ≤ max args.minimumSeconds args.capSeconds ∧
    ∀ later ≥ attempt, ∀ delay',
      exponentialBackoffSeconds args rand later = .ok delay' → delay ≤ delay'

theorem delaysSoundly_iff (rand : ℚ) (hc : Accepted args attempt) (hj : args.jitterRatio = 0) :
    DelaysSoundly args rand attempt ↔
      (attempt ≤ 0 → args.minimumSeconds ≤ 0 ∧ 0 ≤ max args.minimumSeconds args.capSeconds) ∧
      args.multiplier ^ (attempt - 1).toNat < 2 ^ 1024 := by
  by_cases ha : attempt ≤ 0
  · have hp : args.multiplier ^ (attempt - 1).toNat < 2 ^ 1024 := by
      rw [Int.toNat_of_nonpos (by omega), pow_zero]
      exact one_lt_pow₀ one_lt_two (by decide)
    rw [DelaysSoundly, exponentialBackoffSeconds_of_nonpos args rand ha]
    constructor
    · rintro ⟨_, hd, hl, hu, -⟩
      cases hd
      exact ⟨fun _ => ⟨hl, hu⟩, hp⟩
    · rintro ⟨hb, -⟩
      refine ⟨0, rfl, (hb ha).1, (hb ha).2, fun later _ delay hd => ?_⟩
      by_cases hl : later ≤ 0
      · rw [exponentialBackoffSeconds_of_nonpos args rand hl] at hd
        exact (Except.ok.inj hd).le
      · have hac := accepted_of_ok hd
        obtain ⟨-, rfl⟩ := (exponentialBackoffSeconds_eq_ok hac hj (not_le.mp hl)).mp hd
        exact le_max_of_le_left (hac.resolve_left hl).2.2.2.2
  · have ha' := not_le.mp ha
    have hv := hc.resolve_left ha
    constructor
    · rintro ⟨_, hd, -⟩
      exact ⟨fun h => absurd h ha, ((exponentialBackoffSeconds_eq_ok hc hj ha').mp hd).1⟩
    · rintro ⟨-, hp⟩
      refine ⟨_, (exponentialBackoffSeconds_eq_ok hc hj ha').mpr ⟨hp, rfl⟩, le_max_left _ _,
        max_le_max_left _ (min_le_left _ _), fun later hl delay hd => ?_⟩
      have hpl := ha'.trans_le hl
      obtain ⟨-, rfl⟩ := (exponentialBackoffSeconds_eq_ok (.inr hv) hj hpl).mp hd
      have hm := pow_le_pow_right₀ hv.2.2.1 (Int.toNat_le_toNat (sub_le_sub_right hl 1))
      exact max_le_max_left _ (min_le_min_left _ (mul_le_mul_of_nonneg_left hm hv.1))

/-- One call of `fn`: it returns, raises one of `transient_errors`, or raises another error. -/
inductive Outcome (α : Type) where
  | returned (value : α)
  | transient
  | failed

/-- What ends the retry; `backoff` is an error of the delay itself. -/
inductive Ending (α : Type) where
  | returned (value : α)
  | failed
  | transient
  | backoff (error : BackoffError)

/-- `retry_indefinitely_on_transient`, for as many turns as there is fuel; `fn` and the elapsed
time are given per attempt. -/
def retryIndefinitelyOnTransient {α : Type} (fn : Nat → Outcome α) (elapsed : Nat → ℚ)
    (baseDelaySeconds maxDelaySeconds : ℚ) (maxElapsedSeconds : Option ℚ) :
    Nat → Nat → Option (Ending α)
  | 0, _ => none
  | turns + 1, attempts =>
    let attempt := attempts + 1
    match fn attempt with
    | .returned value => some (.returned value)
    | .failed => some .failed
    | .transient =>
      if maxElapsedSeconds.all (elapsed attempt < ·) then
        match exponentialBackoffSeconds
          { baseSeconds := baseDelaySeconds, capSeconds := maxDelaySeconds } 0 attempt with
        | .error error => some (.backoff error)
        | .ok _ => retryIndefinitelyOnTransient fn elapsed baseDelaySeconds maxDelaySeconds
            maxElapsedSeconds turns attempt
      else some .transient

/-- Without a limit on the elapsed time, what ends the retry is `fn`. -/
def OnlyFnEnds {α : Type} (fn : Nat → Outcome α) (elapsed : Nat → ℚ)
    (baseDelaySeconds maxDelaySeconds : ℚ) : Prop :=
  ∀ turns ending, retryIndefinitelyOnTransient fn elapsed baseDelaySeconds maxDelaySeconds none
    turns 0 = some ending → (∃ value, ending = .returned value) ∨ ending = .failed

section

variable {base cap : ℚ} (hb : 0 ≤ base) (hm : 0 ≤ cap)
include hb hm

theorem accepted_default (attempt : Int) :
    Accepted { baseSeconds := base, capSeconds := cap } attempt :=
  .inr ⟨hb, hm, one_le_two, le_rfl, le_rfl⟩

theorem defaultDelay (n : Nat) : exponentialBackoffSeconds
    { baseSeconds := base, capSeconds := cap } 0 (n + 1 : Nat) =
      if n < 1024 then .ok (0 ⊔ (cap ⊓ (base * 2 ^ n))) else .error .overflow := by
  have hn : ((n + 1 : Nat) - 1 : Int).toNat = n := by omega
  rw [exponentialBackoffSeconds_of_pos 0 (accepted_default hb hm _) rfl (by omega), hn, floatPow]
  simp only [pow_lt_pow_iff_right₀ (one_lt_two (α := ℚ))]
  by_cases hl : n < 1024 <;> simp only [hl, if_true, if_false, Except.map]

theorem retry_of_transient {fn : Nat → Outcome α} (hf : fn (n + 1) = .transient) :
    retryIndefinitelyOnTransient fn elapsed base cap none (turns + 1) n =
      if n < 1024 then retryIndefinitelyOnTransient fn elapsed base cap none turns (n + 1)
      else some (.backoff .overflow) := by
  simp only [retryIndefinitelyOnTransient, hf, Option.all_none, if_true, defaultDelay hb hm]
  by_cases hn : n < 1024 <;> simp only [hn, if_true, if_false]

/-- Attempt 1025 is the last one the retry makes. -/
theorem onlyFnEnds_iff {fn : Nat → Outcome α} :
    OnlyFnEnds fn elapsed base cap ↔ ∃ n < 1025, fn (n + 1) ≠ .transient := by
  constructor
  · intro ho
    by_contra hn
    simp only [not_exists, not_and, not_not] at hn
    have hr : ∀ turns n, n + turns = 1024 → retryIndefinitelyOnTransient fn elapsed base cap none
        (turns + 1) n = some (.backoff .overflow) := by
      intro turns
      induction turns with
      | zero =>
        intro n ht
        rw [retry_of_transient hb hm (hn n (by omega)), if_neg (by omega)]
      | succ turns ih =>
        intro n ht
        rw [retry_of_transient hb hm (hn n (by omega)), if_pos (by omega)]
        exact ih (n + 1) (by omega)
    simpa using ho 1025 _ (hr 1024 0 rfl)
  · rintro ⟨k, hk, hf⟩ turns
    suffices ∀ n ≤ k, ∀ ending, retryIndefinitelyOnTransient fn elapsed base cap none turns n =
        some ending → (∃ value, ending = .returned value) ∨ ending = .failed from
      this 0 (Nat.zero_le _)
    induction turns with
    | zero => exact fun _ _ _ => nofun
    | succ turns ih =>
      intro n hn ending he
      cases ho : fn (n + 1) with
      | returned value =>
        rw [retryIndefinitelyOnTransient, ho] at he
        exact .inl ⟨value, (Option.some.inj he).symm⟩
      | failed =>
        rw [retryIndefinitelyOnTransient, ho] at he
        exact .inr (Option.some.inj he).symm
      | transient =>
        have hl : n < k := hn.lt_of_ne fun h => hf (h ▸ ho)
        rw [retry_of_transient hb hm ho, if_pos (by omega)] at he
        exact ih (n + 1) hl ending he

end

/-- A delay is in its bounds, and no later one is shorter, exactly when its power is a float and, up
to attempt 0, the bounds allow no delay; only `fn` ends the retry exactly when one of its first
1025 calls does. -/
theorem endless_retry_iff (rand : ℚ) (attempt : Int) (fn : Nat → Outcome α) (elapsed : Nat → ℚ)
    (hc : Accepted args attempt) (hj : args.jitterRatio = 0) (hb : 0 ≤ base) (hm : 0 ≤ cap) :
    (DelaysSoundly args rand attempt ↔
      (attempt ≤ 0 → args.minimumSeconds ≤ 0 ∧ 0 ≤ args.minimumSeconds ⊔ args.capSeconds) ∧
      args.multiplier ^ (attempt - 1).toNat < 2 ^ 1024) ∧
    (OnlyFnEnds fn elapsed base cap ↔ ∃ n < 1025, fn (n + 1) ≠ .transient) :=
  ⟨delaysSoundly_iff rand hc hj, onlyFnEnds_iff hb hm⟩

theorem endless_retry_outage : DelaysSoundly {} 0 7 ∧
    OnlyFnEnds (fun attempt => if attempt < 40 then .transient else .returned ()) (fun _ => 0)
      1 30 := by
  have hb : (0 : ℚ) ≤ 1 := zero_le_one
  have hm : (0 : ℚ) ≤ 30 := by norm_num
  have ha : Accepted {} 7 := accepted_default (by norm_num) (by norm_num) 7
  have hr := endless_retry_iff 0 7
    (fun attempt => if attempt < 40 then Outcome.transient else .returned ()) (fun _ => 0) ha rfl
    hb hm
  refine ⟨hr.1.mpr ⟨fun h => by omega, ?_⟩, hr.2.mpr ⟨39, by omega, nofun⟩⟩
  exact pow_lt_pow_right₀ one_lt_two (by decide)

theorem attempt_1025_overflows : ¬ DelaysSoundly {} 0 1025 ∧
    ¬ OnlyFnEnds (fun _ => (.transient : Outcome Unit)) (fun _ => 0) 1 30 := by
  rw [delaysSoundly_iff 0 (accepted_default (by norm_num) (by norm_num) _) rfl,
    onlyFnEnds_iff (by norm_num) (by norm_num)]
  exact ⟨fun h => lt_irrefl _ h.2, fun ⟨_, _, h⟩ => h rfl⟩

end FyralisCore.Shared.Backoff
