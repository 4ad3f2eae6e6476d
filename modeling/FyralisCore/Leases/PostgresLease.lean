import Mathlib.Tactic.Linarith
import FyralisCore.Lib.Reach
import FyralisCore.Lib.Table

/-! Postgres-backed leases. Each call is one statement on `scheduler_leases`
against the database clock; a row whose `expires_at` is `now()` or earlier may be
taken over. -/
namespace FyralisCore.Leases

open Relational Transition Table

structure PostgresLease where
  leaseName : String
  holderId : String
  ttlSeconds : Rat
  metadata : String
  ttl_pos : 0 < ttlSeconds

structure LeaseRow where
  holderId : String
  expiresAt : Rat
  acquiredAt : Rat
  refreshedAt : Rat
  metadata : String
deriving DecidableEq

abbrev SchedulerLeases : Type := Table String LeaseRow

def PostgresLease.proposed (lease : PostgresLease) (now : Rat) : LeaseRow :=
  ⟨lease.holderId, now + lease.ttlSeconds, now, now, lease.metadata⟩

def PostgresLease.acquire (lease : PostgresLease) (now : Rat) (leases : SchedulerLeases) :
    SchedulerLeases × Bool :=
  match leases.get lease.leaseName with
  | none => (leases.put lease.leaseName (lease.proposed now), true)
  | some row =>
    if row.holderId = lease.holderId ∨ row.expiresAt ≤ now then
      (leases.put lease.leaseName { lease.proposed now with
        acquiredAt := if row.holderId = lease.holderId then row.acquiredAt else now }, true)
    else (leases, false)

def PostgresLease.refresh (lease : PostgresLease) (now : Rat) (leases : SchedulerLeases) :
    SchedulerLeases × Bool :=
  match leases.get lease.leaseName with
  | none => (leases, false)
  | some row =>
    if row.holderId = lease.holderId ∧ now < row.expiresAt then
      (leases.put lease.leaseName { row with
        expiresAt := now + lease.ttlSeconds
        refreshedAt := now
        metadata := lease.metadata }, true)
    else (leases, false)

def PostgresLease.release (lease : PostgresLease) (leases : SchedulerLeases) :
    SchedulerLeases × Bool :=
  match leases.get lease.leaseName with
  | none => (leases, false)
  | some row =>
    if row.holderId = lease.holderId then (leases.remove lease.leaseName, true)
    else (leases, false)

variable {lease : PostgresLease} {now : Rat} {leases : SchedulerLeases}

/-- A grant leaves the holder's row with a whole TTL to go, and was possible only
on a row that was absent, the holder's own or expired. -/
theorem acquire_granted (hg : (lease.acquire now leases).2) :
    (∃ row, (∀ name, (lease.acquire now leases).1.get name =
        if name = lease.leaseName then some row else leases.get name) ∧
      row.holderId = lease.holderId ∧ row.expiresAt = now + lease.ttlSeconds) ∧
    ∀ row, leases.get lease.leaseName = some row →
      row.holderId = lease.holderId ∨ row.expiresAt ≤ now := by
  unfold PostgresLease.acquire at hg ⊢
  cases hr : leases.get lease.leaseName with
  | none =>
    exact ⟨⟨_, fun name => get_put _ _ _ _, rfl, rfl⟩, by simp⟩
  | some row =>
    simp only [hr] at hg ⊢
    split at hg
    · next hf =>
      simp only [hf, if_true]
      refine ⟨⟨_, fun name => get_put _ _ _ _, rfl, rfl⟩, ?_⟩
      rintro _ ⟨⟩
      exact hf
    · cases hg

theorem acquire_refused (hrf : (lease.acquire now leases).2 = false) :
    (lease.acquire now leases).1 = leases := by
  unfold PostgresLease.acquire at hrf ⊢
  cases hr : leases.get lease.leaseName with
  | none => simp [hr] at hrf
  | some row =>
    simp only [hr] at hrf ⊢
    split at hrf
    · cases hrf
    · next ht => exact congrArg Prod.fst (if_neg ht)

theorem refresh_granted (hg : (lease.refresh now leases).2) :
    ∃ row old, leases.get lease.leaseName = some old ∧ old.holderId = lease.holderId ∧
      now < old.expiresAt ∧ (∀ name, (lease.refresh now leases).1.get name =
        if name = lease.leaseName then some row else leases.get name) ∧
      row.holderId = lease.holderId ∧ row.expiresAt = now + lease.ttlSeconds := by
  unfold PostgresLease.refresh at hg ⊢
  cases hr : leases.get lease.leaseName with
  | none => simp [hr] at hg
  | some row =>
    simp only [hr] at hg ⊢
    split at hg
    · next hl =>
      simp only [hl, and_self, if_true]
      exact ⟨_, row, rfl, hl.1, hl.2, fun name => get_put _ _ _ _, rfl, rfl⟩
    · cases hg

theorem refresh_refused (hrf : (lease.refresh now leases).2 = false) :
    (lease.refresh now leases).1 = leases := by
  unfold PostgresLease.refresh at hrf ⊢
  cases hr : leases.get lease.leaseName with
  | none => rfl
  | some row =>
    simp only [hr] at hrf ⊢
    split at hrf
    · cases hrf
    · next ht => exact congrArg Prod.fst (if_neg ht)

theorem get_release (lease : PostgresLease) (leases : SchedulerLeases) (name : String) :
    (lease.release leases).1.get name =
      if name = lease.leaseName then
        (leases.get name).filter fun row => row.holderId ≠ lease.holderId
      else leases.get name := by
  unfold PostgresLease.release
  by_cases hn : name = lease.leaseName
  · subst hn
    cases hr : leases.get lease.leaseName with
    | none => simp [hr]
    | some row =>
      by_cases hh : row.holderId = lease.holderId
      · simp [hh, get_remove, Option.filter]
      · simp [hh, hr, Option.filter]
  · simp only [hn, if_false]
    split
    · rfl
    · split
      · simp [get_remove, hn]
      · rfl

theorem frame_of_nonHolder (now : Rat) (hr : leases.get name = some row)
    (ho : row.holderId ≠ lease.holderId) : (lease.release leases).1.get name = some row ∧
      (lease.refresh now leases).1.get name = some row := by
  constructor
  · rw [get_release, hr]
    simp [Option.filter, ho]
  · cases hgr : (lease.refresh now leases).2 with
    | false => rw [refresh_refused hgr, hr]
    | true =>
      obtain ⟨_, old, hold, hh, -, hg, -⟩ := refresh_granted hgr
      rw [hg, if_neg ?_, hr]
      rintro rfl
      exact ho (Option.some.inj (hr.symm.trans hold) ▸ hh)

section Holders

variable {H : Type} [DecidableEq H]

inductive LeaseCall (H : Type) where
  | acquire (holder : H)
  | refresh (holder : H)
  | release (holder : H)
  | wait (seconds : Rat)

/-- The table, the database clock and every holder's `_held` flag. `grants` are
the expiries of the calls that returned True and that the holder has not
released since. -/
structure LeaseSystem (H : Type) where
  leases : SchedulerLeases
  now : Rat
  held : H → Bool
  grants : List (H × Rat)

/-- What an acquire or a refresh leaves: the table, the flag and the grant. -/
def LeaseSystem.answered (system : LeaseSystem H) (objects : H → PostgresLease) (holder : H)
    (answer : SchedulerLeases × Bool) : LeaseSystem H where
  leases := answer.1
  now := system.now
  held := Function.update system.held holder answer.2
  grants := if answer.2 then (holder, system.now + (objects holder).ttlSeconds) :: system.grants
    else system.grants

/-- One call by one holder, or time passing; the clock does not run backwards. -/
def leaseStep (objects : H → PostgresLease) (system : LeaseSystem H) :
    LeaseCall H → Option (LeaseSystem H)
  | .acquire holder => some (system.answered objects holder
      ((objects holder).acquire system.now system.leases))
  | .refresh holder => some (system.answered objects holder
      ((objects holder).refresh system.now system.leases))
  | .release holder => some { system with
      leases := ((objects holder).release system.leases).1
      held := Function.update system.held holder false
      grants := system.grants.filter fun grant => grant.1 ≠ holder }
  | .wait seconds => if 0 ≤ seconds then some { system with now := system.now + seconds } else none

/-- Some call of the holder returned True, its expiry has not passed and the
holder has not released it. -/
def Holds (system : LeaseSystem H) (holder : H) : Prop :=
  ∃ expiresAt, (holder, expiresAt) ∈ system.grants ∧ system.now < expiresAt

/-- Every grant that has not run out stands in the table, and no grant reaches
further than a TTL from now. -/
structure GrantsStand (objects : H → PostgresLease) (system : LeaseSystem H) : Prop where
  row : ∀ holder expiresAt, (holder, expiresAt) ∈ system.grants → system.now < expiresAt →
    ∃ row, system.leases.get (objects holder).leaseName = some row ∧
      row.holderId = (objects holder).holderId ∧ expiresAt ≤ row.expiresAt
  bounded : ∀ holder expiresAt, (holder, expiresAt) ∈ system.grants →
    expiresAt ≤ system.now + (objects holder).ttlSeconds

variable {objects : H → PostgresLease} {system after : LeaseSystem H}

/-- A grant on a row that was nobody's, the holder's own or expired keeps all
grants standing. -/
theorem GrantsStand.granted (hd : Function.Injective fun holder => (objects holder).holderId)
    (hst : GrantsStand objects system) {holder : H} {row : LeaseRow}
    (hg : ∀ name, leases.get name =
      if name = (objects holder).leaseName then some row else system.leases.get name)
    (hh : row.holderId = (objects holder).holderId)
    (he : row.expiresAt = system.now + (objects holder).ttlSeconds)
    (hf : ∀ row, system.leases.get (objects holder).leaseName = some row →
      row.holderId = (objects holder).holderId ∨ row.expiresAt ≤ system.now) :
    GrantsStand objects (system.answered objects holder (leases, true)) where
  row := by
    intro other expiresAt hgr hl
    simp only [LeaseSystem.answered, if_true, List.mem_cons, Prod.mk.injEq] at hgr hl ⊢
    rcases hgr with ⟨rfl, rfl⟩ | hb
    · exact ⟨row, by rw [hg, if_pos rfl], hh, he.ge⟩
    · obtain ⟨old, ho, htok, hle⟩ := hst.row other expiresAt hb hl
      by_cases hn : (objects other).leaseName = (objects holder).leaseName
      · -- The row of this lease is the other's too, so it is this very holder.
        have hs : other = holder := by
          rcases hf old (hn ▸ ho) with hw | hex
          · exact hd (htok.symm.trans hw)
          · exact absurd (hle.trans hex) (not_le.mpr hl)
        subst hs
        exact ⟨row, by rw [hg, if_pos rfl], hh, (hst.bounded other expiresAt hb).trans he.ge⟩
      · exact ⟨old, by rw [hg, if_neg hn, ho], htok, hle⟩
  bounded := by
    intro other expiresAt hgr
    simp only [LeaseSystem.answered, if_true, List.mem_cons, Prod.mk.injEq] at hgr ⊢
    rcases hgr with ⟨rfl, rfl⟩ | hb
    · exact le_rfl
    · exact hst.bounded other expiresAt hb

theorem GrantsStand.refused (hs : GrantsStand objects system) (holder : H) :
    GrantsStand objects (system.answered objects holder (system.leases, false)) :=
  ⟨hs.row, hs.bounded⟩

theorem grantsStand_step (hd : Function.Injective fun holder => (objects holder).holderId)
    (hstn : GrantsStand objects system) {call : LeaseCall H}
    (hst : leaseStep objects system call = some after) : GrantsStand objects after := by
  cases call with
  | acquire holder =>
    cases hst
    rcases ha : (objects holder).acquire system.now system.leases with ⟨leases, granted⟩
    cases granted with
    | false =>
      have hs := acquire_refused (congrArg Prod.snd ha)
      rw [ha] at hs
      obtain rfl : leases = system.leases := hs
      exact hstn.refused holder
    | true =>
      obtain ⟨⟨row, hg, hh, he⟩, hfr⟩ := acquire_granted (congrArg Prod.snd ha)
      rw [ha] at hg
      exact hstn.granted hd hg hh he hfr
  | refresh holder =>
    cases hst
    rcases ha : (objects holder).refresh system.now system.leases with ⟨leases, granted⟩
    cases granted with
    | false =>
      have hs := refresh_refused (congrArg Prod.snd ha)
      rw [ha] at hs
      obtain rfl : leases = system.leases := hs
      exact hstn.refused holder
    | true =>
      obtain ⟨row, old, hold, hw, -, hg, hh, he⟩ := refresh_granted (congrArg Prod.snd ha)
      rw [ha] at hg
      exact hstn.granted hd hg hh he
        fun row hr => .inl (Option.some.inj (hold.symm.trans hr) ▸ hw)
  | release holder =>
    cases hst
    constructor
    · intro other expiresAt hgr hl
      obtain ⟨hb, ho⟩ := List.mem_filter.mp hgr
      obtain ⟨row, hr, htok, hle⟩ := hstn.row other expiresAt hb hl
      have hn : row.holderId ≠ (objects holder).holderId := by
        intro hs
        exact (of_decide_eq_true ho) (hd (htok.symm.trans hs))
      exact ⟨row, (frame_of_nonHolder system.now hr hn).1, htok, hle⟩
    · intro other expiresAt hgr
      exact hstn.bounded other expiresAt (List.mem_of_mem_filter hgr)
  | wait seconds =>
    simp only [leaseStep] at hst
    split at hst
    · next hf =>
      cases hst
      constructor
      · intro other expiresAt hgr hl
        exact hstn.row other expiresAt hgr ((le_add_of_nonneg_right hf).trans_lt hl)
      · intro other expiresAt hgr
        have hbn := hstn.bounded other expiresAt hgr
        simp only
        linarith
    · cases hst

/-- At every instant of every interleaving at most one holder of a lease holds
it, and a release or refresh by anyone else leaves the row of the lease alone. -/
theorem lease_exclusive (hdistinct : Function.Injective fun holder => (objects holder).holderId)
    {start : LeaseSystem H} (hstart : start.grants = [])
    (hreach : Reach (leaseStep objects) anyStep start system) :
    (∀ first second, (objects first).leaseName = (objects second).leaseName →
      Holds system first → Holds system second → first = second) ∧
    ∀ (name : String) (row : LeaseRow) (other : H), system.leases.get name = some row →
      row.holderId ≠ (objects other).holderId →
      ∀ after, leaseStep objects system (.release other) = some after ∨
        leaseStep objects system (.refresh other) = some after →
          after.leases.get name = some row := by
  have hstand : GrantsStand objects system := by
    refine hreach.invariant (P := GrantsStand objects) ⟨?_, ?_⟩
      fun _ _ _ hstand _ hstep => grantsStand_step hdistinct hstand hstep
    · intro holder expiresAt hgrant
      rw [hstart] at hgrant
      cases hgrant
    · intro holder expiresAt hgrant
      rw [hstart] at hgrant
      cases hgrant
  constructor
  · rintro first second hname ⟨_, hfirst, hfirstLive⟩ ⟨_, hsecond, hsecondLive⟩
    obtain ⟨row, hrow, hfirstId, -⟩ := hstand.row first _ hfirst hfirstLive
    obtain ⟨row', hrow', hsecondId, -⟩ := hstand.row second _ hsecond hsecondLive
    rw [← hname, hrow] at hrow'
    cases hrow'
    exact hdistinct (hfirstId.symm.trans hsecondId)
  · rintro name row other hrow hother after (hstep | hstep)
    · cases hstep
      exact (frame_of_nonHolder system.now hrow hother).1
    · cases hstep
      exact (frame_of_nonHolder _ hrow hother).2

/-- Two schedulers on one lease: the second takes over at the very instant the
first one's thirty seconds have passed. -/
def twoSchedulers (second : Bool) : PostgresLease :=
  ⟨"scheduler", if second then "b" else "a", 30, "{}", by norm_num⟩

theorem twoSchedulers_distinct :
    Function.Injective fun holder => (twoSchedulers holder).holderId := by
  intro first second
  cases first <;> cases second <;> simp [twoSchedulers]

theorem lease_exclusive_takeover :
    ∃ system, runAll (leaseStep twoSchedulers) ⟨∅, 0, fun _ => false, []⟩
        [.acquire false, .wait 30, .acquire true] = some system ∧
      Holds system true ∧ ¬ Holds system false := by
  obtain ⟨system, hrun⟩ : ∃ system, runAll (leaseStep twoSchedulers)
      ⟨∅, 0, fun _ => false, []⟩ [.acquire false, .wait 30, .acquire true] = some system := ⟨_, rfl⟩
  have hholds : Holds system true := by
    cases hrun
    exact ⟨60, by decide +kernel, by decide +kernel⟩
  refine ⟨system, hrun, hholds, fun hfirst => ?_⟩
  have hreach : Reach (leaseStep twoSchedulers) anyStep _ system :=
    reach_of_run hrun
  have hsame := (lease_exclusive twoSchedulers_distinct rfl hreach).1 true false rfl hholds hfirst
  cases hsame

end Holders

end FyralisCore.Leases
