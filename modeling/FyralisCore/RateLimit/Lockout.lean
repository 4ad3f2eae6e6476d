import FyralisCore.Lib.Reach
import FyralisCore.RateLimit.Scripts

/-! Reported lockouts. The hash has one lockout field: a report overwrites it, a
grant deletes it, and the key's expiry takes it along. A history remembers every
deadline reported, and which of them the hash no longer guards. -/
namespace FyralisCore.RateLimit

open Transition

inductive ScriptCall where
  | acquire (serverMs : Rat) (args : AcquireArgs)
  | report (serverMs nowMs retryAfterMs : Rat)

/-- The key after a sequence of scripts, with the deadlines `now_ms +
retry_after_ms` of the reports so far. `lapsed` are the deadlines that an
acquire has got past: one that was granted, or found the key expired. -/
structure LockoutHistory where
  key : BucketKey
  reported : List Rat
  lapsed : List Rat

def LockoutHistory.begin (key : BucketKey) : LockoutHistory := ⟨key, [], []⟩

def Clears (serverMs : Rat) (args : AcquireArgs) (key : BucketKey) : Prop :=
  Granted serverMs args key ∨ key.Expired serverMs

instance (serverMs : Rat) (args : AcquireArgs) (key : BucketKey) :
    Decidable (Clears serverMs args key) :=
  inferInstanceAs (Decidable (_ ∨ _))

def scriptStep (history : LockoutHistory) : ScriptCall → Option LockoutHistory
  | .acquire serverMs args => some {
      key := afterAcquire serverMs args history.key
      reported := history.reported
      lapsed := if Clears serverMs args history.key
        then history.lapsed ++ history.reported.filter (· ≤ args.nowMs)
        else history.lapsed }
  | .report serverMs nowMs retryAfterMs => some {
      key := reportRetryAfter serverMs nowMs retryAfterMs history.key
      reported := (nowMs + retryAfterMs) :: history.reported
      -- The new lockout guards every earlier deadline it reaches.
      lapsed := history.lapsed.filter (nowMs + retryAfterMs < ·) }

/-- The steps that lose no lockout. A report ends no earlier than any deadline
that has not lapsed; no caller's clock falls back behind a deadline that has
lapsed; and a caller whose clock is behind a deadline does not find the key
expired. -/
def KeepsLockouts (history : LockoutHistory) : ScriptCall → Prop
  | .acquire serverMs args =>
      (∀ deadline ∈ history.lapsed, deadline ≤ args.nowMs) ∧
        (history.key.Expired serverMs → ∀ deadline ∈ history.reported, deadline ≤ args.nowMs)
  | .report _ nowMs retryAfterMs =>
      ∀ deadline ∈ history.reported, deadline ∉ history.lapsed → deadline ≤ nowMs + retryAfterMs

def Guarded (history : LockoutHistory) : Prop :=
  ∀ deadline ∈ history.reported, deadline ∉ history.lapsed →
    ∃ lockoutUntilMs ∈ history.key.lockoutUntilMs, deadline ≤ lockoutUntilMs

variable {history next : LockoutHistory} {serverMs : Rat} {args : AcquireArgs}

theorem guarded_acquire (hgu : Guarded history)
    (hk : KeepsLockouts history (.acquire serverMs args))
    (hs : scriptStep history (.acquire serverMs args) = some next) : Guarded next := by
  cases hs
  intro deadline hr hlp
  by_cases hc : Clears serverMs args history.key
  · -- Whatever the hash still guarded, this acquire has got past.
    simp only [hc, if_true, List.mem_append, List.mem_filter, decide_eq_true_eq, not_or,
      not_and] at hlp
    have hah : ¬ deadline ≤ args.nowMs := hlp.2 hr
    obtain ⟨lockout, hl, hle⟩ := hgu deadline hr hlp.1
    have hal : ¬ history.key.Expired serverMs := fun he => hah (hk.2 he deadline hr)
    have hlkd : history.key.LockedOut args.nowMs :=
      ⟨lockout, hl, (not_le.mp hah).trans_le hle⟩
    rcases hc with hg | he
    · exact absurd hg (afterAcquire_of_lockedOut _ hal hlkd).2
    · exact absurd he hal
  · simp only [hc, if_false] at hlp
    obtain ⟨lockout, hl, hle⟩ := hgu deadline hr hlp
    have hlk : history.key.lookup serverMs = history.key :=
      lookup_of_alive fun he => hc (.inr he)
    refine ⟨lockout, ?_, hle⟩
    cases acquire_cases serverMs args history.key with
    | lockedOut _ ha _ => simpa only [ha, hlk] using hl
    | raised _ _ ha _ => simpa only [ha] using hl
    | granted _ _ _ _ hg _ => exact absurd (.inl hg) hc
    | short _ _ _ _ _ ha => simpa only [ha, hlk] using hl

theorem guarded_report (hkp : KeepsLockouts history (.report serverMs nowMs retryAfterMs))
    (hs : scriptStep history (.report serverMs nowMs retryAfterMs) = some next) : Guarded next := by
  cases hs
  intro deadline hr hl
  refine ⟨nowMs + retryAfterMs, rfl, ?_⟩
  by_contra hbh
  have hk : deadline ∉ history.lapsed := by
    intro hm
    exact hl (List.mem_filter.mpr ⟨hm, by simpa using hbh⟩)
  rcases List.mem_cons.mp hr with rfl | hb
  · exact hbh le_rfl
  · exact hbh (hkp deadline hb hk)

theorem guarded_of_reach
    (hr : Reach scriptStep KeepsLockouts (.begin key) history) : Guarded history := by
  refine hr.invariant (P := Guarded) (by simp [Guarded, LockoutHistory.begin]) ?_
  rintro before (⟨serverMs, args⟩ | ⟨serverMs, nowMs, retryAfterMs⟩) t hg hk hs
  · exact guarded_acquire hg hk hs
  · exact guarded_report hk hs

/-- After any sequence of scripts that loses no lockout, no acquire whose clock
is behind a reported deadline is granted. -/
theorem lockout_honoured {key : BucketKey}
    (hreach : Reach scriptStep KeepsLockouts (.begin key) history)
    (hkeeps : KeepsLockouts history (.acquire serverMs args)) {deadline : Rat}
    (hreported : deadline ∈ history.reported) (hbehind : args.nowMs < deadline) :
    ¬ Granted serverMs args history.key := by
  have hkept : deadline ∉ history.lapsed :=
    fun hlapsed => absurd (hkeeps.1 deadline hlapsed) (not_le.mpr hbehind)
  obtain ⟨lockout, hlockout, hle⟩ := guarded_of_reach hreach deadline hreported hkept
  have halive : ¬ history.key.Expired serverMs :=
    fun hexpired => absurd (hkeeps.2 hexpired deadline hreported) (not_le.mpr hbehind)
  exact (afterAcquire_of_lockedOut _ halive ⟨lockout, hlockout, hbehind.trans_le hle⟩).2

/-- A report of ten seconds, one of twenty, and an acquire in between. -/
theorem lockout_honoured_extended : ¬ Granted 15000 ⟨15000, 10, 1, 1⟩
      (reportRetryAfter 5000 5000 20000 (reportRetryAfter 0 0 10000 .absent)) := by
  have hfirst : KeepsLockouts (.begin .absent) (.report 0 0 10000) := by
    simp [KeepsLockouts, LockoutHistory.begin]
  have hsecond : KeepsLockouts ⟨reportRetryAfter 0 0 10000 .absent, [0 + 10000], []⟩
      (.report 5000 5000 20000) := by
    simp [KeepsLockouts]
    norm_num
  have hreach : Reach scriptStep KeepsLockouts (.begin .absent)
      ⟨_, [5000 + 20000, 0 + 10000], []⟩ :=
    Reach.next (Reach.next Reach.start hfirst rfl) hsecond rfl
  have hacquire : KeepsLockouts ⟨reportRetryAfter 5000 5000 20000
      (reportRetryAfter 0 0 10000 .absent), [5000 + 20000, 0 + 10000], []⟩
      (.acquire 15000 ⟨15000, 10, 1, 1⟩) :=
    ⟨by simp, fun hexpired => absurd hexpired (by decide +kernel)⟩
  exact lockout_honoured hreach hacquire (.head _) (by norm_num)

/-- A second, shorter report overwrites the first: the acquire at five seconds
is granted although the source asked for ten. -/
theorem lockout_overwritten : ¬ ∀ history, Reach scriptStep anyStep (.begin .absent) history →
      ∀ (serverMs : Rat) (args : AcquireArgs), ∀ deadline ∈ history.reported,
        args.nowMs < deadline → ¬ Granted serverMs args history.key := by
  intro hhonoured
  refine hhonoured _ (Reach.next (Reach.next Reach.start (a := .report 0 0 10000) trivial rfl)
    (a := .report 1000 1000 1000) trivial rfl) 5000 ⟨5000, 10, 1, 1⟩ 10000 ?_ ?_ ?_
  · simp [LockoutHistory.begin]
  · norm_num
  · decide +kernel

/-- A grant to a caller whose clock is ahead deletes the lockout for all. -/
example : Granted 2 ⟨9000, 10, 1, 1⟩ (afterAcquire 1 ⟨10000, 10, 1, 1⟩
    (reportRetryAfter 0 0 10000 .absent)) := by
  decide +kernel

/-- A lockout of two days is gone after one. -/
example : Granted 90000000 ⟨90000000, 10, 1, 1⟩ (reportRetryAfter 0 0 172800000 .absent) := by
  decide +kernel

end FyralisCore.RateLimit
