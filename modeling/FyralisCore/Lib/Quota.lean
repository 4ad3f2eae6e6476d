import Mathlib.Algebra.Order.Monoid.Defs
import FyralisCore.Lib.CommitLog

/-! Amortised accounting for a deterministic machine. A run may charge no more
than the potential it starts from, when every step pays for its charge out of
the potential and the potential is never negative. -/
namespace Amortized

variable {S A R : Type}

/-- Every action of the list meets `allowed` in the state it is taken in. -/
def Along (step : S → A → S) (allowed : S → A → Prop) : S → List A → Prop
  | _, [] => True
  | s, a :: rest => allowed s a ∧ Along step allowed (step s a) rest

instance decidableAlong (step : S → A → S) (allowed : S → A → Prop)
    [∀ s a, Decidable (allowed s a)] : (s : S) → (actions : List A) →
      Decidable (Along step allowed s actions)
  | _, [] => isTrue trivial
  | s, a :: rest =>
    have := decidableAlong step allowed (step s a) rest
    inferInstanceAs (Decidable (allowed s a ∧ Along step allowed (step s a) rest))

variable [AddCommMonoid R] {step : S → A → S}

def total (step : S → A → S) (charge : S → A → R) : S → List A → R
  | _, [] => 0
  | s, a :: rest => charge s a + total step charge (step s a) rest

variable {charge : S → A → R}

variable [PartialOrder R] [IsOrderedAddMonoid R]

theorem total_le_potential (Inv : S → Prop) (potential : S → R) (hs : ∀ s a, Inv s → allowed s a →
      Inv (step s a) ∧ charge s a + potential (step s a) ≤ potential s)
    (hn : ∀ s, Inv s → 0 ≤ potential s) (hi : Inv s) (hal : Along step allowed s actions) :
    total step charge s actions ≤ potential s := by
  induction actions generalizing s with
  | nil => exact hn s hi
  | cons a rest ih =>
    obtain ⟨ha, ht⟩ := hal
    obtain ⟨hi', hp⟩ := hs s a hi ha
    calc total step charge s (a :: rest) = charge s a + total step charge (step s a) rest := rfl
      _ ≤ charge s a + potential (step s a) := add_le_add_right (ih hi' ht) _
      _ ≤ potential s := hp

end Amortized

/-! A number that writes may raise, and sessions that never take it past a limit.
A session that finds what it was to make adds nothing; any other is to be alone
with what is left of the limit. -/
namespace Transaction

variable {σ ω ρ ε α β : Type}

def total (cost : ω → Nat) (writes : List ω) : Nat :=
  writes.foldr (fun write rest => cost write + rest) 0

section

variable (cost : ω → Nat)

@[simp] theorem total_nil : total cost [] = 0 := rfl

@[simp] theorem total_cons (w : ω) (rest : List ω) :
    total cost (w :: rest) = cost w + total cost rest := rfl

@[simp] theorem total_singleton (write : ω) : total cost [write] = cost write := by
  simp

@[simp] theorem total_append (earlier later : List ω) : total cost (earlier ++ later) =
    total cost earlier + total cost later := by
  induction earlier with
  | nil => simp
  | cons w rest ih => simp [ih, Nat.add_assoc]

end

theorem total_eq_zero (hf : ∀ w ∈ writes, cost w = 0) : total cost writes = 0 := by
  induction writes with
  | nil => rfl
  | cons w rest ih =>
    rw [total_cons, hf w (.head _), ih fun other ho => hf other (.tail _ ho)]

namespace Tx

/-- What the body writes adds `budget` at most, if `K` holds of every state that a
statement sees. -/
def Spends (K : σ → Prop) (cost : ω → Nat) : Tx σ ω ρ ε α → Nat → Prop
  | .done _, _ => True
  | .raise _, _ => True
  | .statement _ writes next, budget =>
    ∀ state, K state →
      ∃ left, total cost (writes state) + left ≤ budget ∧ (next state).Spends K cost left
  | .mint next, budget => ∀ id, (next id).Spends K cost budget

section

variable {K : σ → Prop} {cost : ω → Nat} {budget more : Nat}

theorem Spends.mono {body : Tx σ ω ρ ε α} (hb : body.Spends K cost budget)
    (hle : budget ≤ more) : body.Spends K cost more := by
  induction body generalizing budget with
  | done v => trivial
  | raise error => trivial
  | statement lock writes next ih =>
    intro st hs
    obtain ⟨left, hl, hn⟩ := hb st hs
    exact ⟨left, Nat.le_trans hl hle, hn⟩
  | mint next ih => exact fun id => ih id (hb id) hle

theorem Spends.of_free {body : Tx σ ω ρ ε α}
    (hf : body.EachStatement fun _ _ writes => ∀ w ∈ writes, cost w = 0) :
    body.Spends K cost budget := by
  induction body with
  | done v => trivial
  | raise error => trivial
  | statement lock writes next ih =>
    intro st _
    obtain ⟨hw, hn⟩ := hf st
    refine ⟨budget, ?_, ih st hn⟩
    rw [total_eq_zero hw, Nat.zero_add]
  | mint next ih => exact fun id => ih id (hf id)

variable {first : Tx σ ω ρ ε α} {rest : α → Tx σ ω ρ ε β}

theorem Spends.bind (h1 : first.Spends K cost budget) (ht : ∀ v, (rest v).Spends K cost more) :
    (first.bind rest).Spends K cost (budget + more) := by
  induction first generalizing budget with
  | done v => exact (ht v).mono (Nat.le_add_left more budget)
  | raise error => trivial
  | statement lock writes next ih =>
    intro st hs
    obtain ⟨left, hl, hn⟩ := h1 st hs
    exact ⟨left + more, by omega, ih st hn⟩
  | mint next ih => exact fun id => ih id (h1 id)

theorem Spends.after (h1 : first.EachStatement fun _ _ writes => ∀ w ∈ writes, cost w = 0)
    (ht : ∀ v, (rest v).Spends K cost budget) : (first.bind rest).Spends K cost budget := by
  have hn : first.Spends K cost 0 := Spends.of_free h1
  have hb := hn.bind ht
  rwa [Nat.zero_add] at hb

theorem Spends.before (h1 : first.Spends K cost budget)
    (ht : ∀ v, (rest v).EachStatement fun _ _ writes =>
      ∀ w ∈ writes, cost w = 0) : (first.bind rest).Spends K cost budget :=
  h1.bind fun v => (Spends.of_free (ht v) : (rest v).Spends K cost 0)

theorem Spends.query {lock : σ → Option ρ} {answer : σ → Except ε (List ω × α)}
    (ha : ∀ st writes v, K st → answer st = .ok (writes, v) →
      total cost writes ≤ budget) : (query lock answer).Spends K cost budget := by
  intro st hs
  dsimp only
  cases hc : answer st with
  | ok r => exact ⟨0, ha st r.1 r.2 hs hc, trivial⟩
  | error error => exact ⟨0, Nat.zero_le budget, trivial⟩

theorem Spends.read_bind (ht : ∀ st, K st → (rest (answer st)).Spends K cost budget) :
    ((read answer).bind rest).Spends K cost budget := by
  intro st hs
  exact ⟨budget, Nat.le_of_eq (Nat.zero_add budget), ht st hs⟩

theorem Spends.ofExcept_bind (ht : ∀ v, computed = .ok v → (rest v).Spends K cost budget) :
    ((ofExcept computed).bind rest).Spends K cost budget := by
  cases computed with
  | ok v => exact ht v rfl
  | error error => trivial

theorem Spends.orRaise_bind (ht : ∀ v, found = some v → (rest v).Spends K cost budget) :
    ((orRaise found error).bind rest).Spends K cost budget := by
  cases found with
  | some v => exact ht v rfl
  | none => trivial

end

end Tx

end Transaction

namespace ReadCommitted

open Relational Transaction Table

variable {σ ω ρ ε κ : Type} {S : Schema σ ω ρ ε κ}

structure Quota (S : Schema σ ω ρ ε κ) where
  measure : σ → Nat
  /-- What a write adds to the measure. -/
  cost : ω → Nat
  limit : Nat
  /-- The writes that a call may make. -/
  Allows : κ → ω → Prop
  /-- The calls that may add to the measure. -/
  Spender : κ → Prop
  allows : ∀ call, (S.program call).EachStatement fun _ _ writes =>
    ∀ write ∈ writes, Allows call write
  measure_apply : ∀ {call s write}, Allows call write →
    measure (S.apply s write) ≤ measure s + cost write

namespace Quota

variable (Q : Quota S)

def Stable (K : σ → Prop) : Prop :=
  ∀ call s write, Q.Allows call write → K s → K (S.apply s write)

def Within (committed : σ) (session : Session σ ω ρ ε) (budget : Nat) : Prop :=
  ∃ K left, Q.Stable K ∧ K committed ∧ session.rest.Spends K Q.cost left ∧
    total Q.cost session.trail.writes + left ≤ budget

def Starts (committed : σ) (call : κ) (budget : Nat) : Prop :=
  Q.Within committed { start := committed, rest := S.program call } budget

/-- What the limit leaves is the session's, and no other session adds anything. -/
structure Holder (config : Config σ ω ρ ε) (sid : Nat) (session : Session σ ω ρ ε) : Prop where
  covered : ∃ budget, Q.measure config.committed + budget ≤ Q.limit ∧
    Q.Within config.committed session budget
  others : ∀ other rival, other ≠ sid → config.sessions.get other = some rival →
    Q.Within config.committed rival 0

structure Owned (call : κ) (session : Session σ ω ρ ε) : Prop where
  writes : ∀ write ∈ session.trail.writes, Q.Allows call write
  rest : session.rest.EachStatement fun _ _ writes => ∀ write ∈ writes, Q.Allows call write

structure Kept (run : CommitLog σ ω ρ ε κ) : Prop where
  limited : Q.measure run.config.committed ≤ Q.limit
  sessions : ∀ sid session, run.config.sessions.get sid = some session →
    ∃ call, run.calls.get sid = some call ∧ Q.Owned call session ∧
      (Q.Within run.config.committed session 0 ∨ Q.Spender call ∧ Q.Holder run.config sid session)

/-- A call begins that adds nothing, or one that may have what the limit leaves while
no other call is open that may add something. -/
def Admits (run : CommitLog σ ω ρ ε κ) : Action κ → Prop
  | .begin _ call =>
    Q.Starts run.config.committed call 0 ∨ Q.Spender call ∧
        (∃ budget, Q.measure run.config.committed + budget ≤ Q.limit ∧
          Q.Starts run.config.committed call budget) ∧
        ∀ other rival, run.calls.get other = some rival → ¬ Q.Spender rival
  | _ => True

variable {Q}

theorem Stable.and (h1 : Q.Stable K) (h2 : Q.Stable L) : Q.Stable fun s => K s ∧ L s :=
  fun call s w hw hh =>
    ⟨h1 call s w hw hh.1, h2 call s w hw hh.2⟩

variable {call : κ} {writes : List ω} {s : σ} {session : Session σ ω ρ ε}

theorem Stable.view (hsb : Q.Stable K)
    (hw : ∀ w ∈ writes, Q.Allows call w) (hs : K s) : K (S.view s writes) := by
  induction writes generalizing s with
  | nil => exact hs
  | cons w rest ih =>
    obtain ⟨hwr, ht⟩ := List.forall_mem_cons.mp hw
    exact ih ht (hsb call s w hwr hs)

theorem measure_view (hw : ∀ w ∈ writes, Q.Allows call w) :
    Q.measure (S.view s writes) ≤ Q.measure s + total Q.cost writes := by
  induction writes generalizing s with
  | nil => simp
  | cons w rest ih =>
    obtain ⟨hwr, ht⟩ := List.forall_mem_cons.mp hw
    have h1 := Q.measure_apply (s := s) hwr
    have ho := ih (s := S.apply s w) ht
    rw [total_cons]
    change Q.measure (S.view (S.apply s w) rest) ≤ _
    omega

theorem Within.commit (hwn : Q.Within committed session budget)
    (hw : ∀ w ∈ writes, Q.Allows call w) :
    Q.Within (S.view committed writes) session budget := by
  obtain ⟨K, left, hs, hh, ht, hl⟩ := hwn
  exact ⟨K, left, hs, hs.view hw hh, ht, hl⟩

theorem Within.measure (hw : Q.Within committed session budget) (ho : Q.Owned call session) :
    Q.measure (S.view committed session.trail.writes) ≤ Q.measure committed + budget := by
  obtain ⟨K, left, -, -, -, hl⟩ := hw
  have hv := measure_view (s := committed) ho.writes
  omega

variable [DecidableEq ρ]

variable {next : Config σ ω ρ ε} {sid : Nat} {run : CommitLog σ ω ρ ε κ}

theorem statement_step {c : Config σ ω ρ ε} (ho : Q.Owned call session)
    (hsn : c.sendStatement S sid session = some next) :
    ∃ u, next.committed = c.committed ∧ next.sessions = c.sessions.put sid u ∧
      Q.Owned call u ∧ ∀ budget, Q.Within c.committed session budget →
        Q.Within c.committed u budget := by
  rcases Config.sendStatement_cases hsn with ⟨_, _, _, ht, -, rfl⟩ | ⟨_, ht, rfl⟩
  · have he := ho.rest
    rw [ht] at he
    obtain ⟨hw, hl⟩ := he (S.view c.committed session.trail.writes)
    refine ⟨_, rfl, rfl, ⟨?_, hl⟩, ?_⟩
    · intro w hm
      rcases List.mem_append.mp hm with hp | hn
      · exact ho.writes w hp
      · exact hw w hn
    · rintro budget ⟨K, left, hsb, hh, hs, hle⟩
      rw [ht] at hs
      obtain ⟨k, hr, ha⟩ := hs _ (hsb.view ho.writes hh)
      refine ⟨K, k, hsb, hh, ha, ?_⟩
      simp only [Trail.extend, total_append]
      omega
  · have he := ho.rest
    rw [ht] at he
    refine ⟨_, rfl, rfl, ⟨ho.writes, he c.supply⟩, ?_⟩
    rintro budget ⟨K, left, hsb, hh, hs, hle⟩
    rw [ht] at hs
    exact ⟨K, left, hsb, hh, hs c.supply, hle⟩

private theorem kept_begin (hk : Q.Kept run) (ha : Q.Admits run (.begin sid call))
    (hst : run.config.step S (.begin sid call) = some next) :
    Q.Kept (run.note next (.begin sid call)) := by
  simp only [Config.step] at hst
  split at hst
  · cases hst
  · next hf =>
    cases hst
    refine ⟨hk.limited, fun other session hg => ?_⟩
    simp only [CommitLog.note, get_put] at hg ⊢
    split at hg
    · next hs =>
      cases hg
      simp only [hs, ↓reduceIte]
      refine ⟨call, rfl, ⟨fun _ hm => absurd hm List.not_mem_nil, Q.allows call⟩, ?_⟩
      rcases ha with hn | ⟨hsp, hro, hother⟩
      · exact .inl hn
      · -- no session that is open is one of a spender, so none adds anything
        refine .inr ⟨hsp, hro, fun third rival hne hrv => ?_⟩
        rw [get_put, if_neg hne] at hrv
        obtain ⟨rivalCall, hc, -, hw⟩ := hk.sessions third rival hrv
        rcases hw with hn | ⟨hr, -⟩
        · exact hn
        · exact absurd hr (hother third rivalCall hc)
    · next hne =>
      simp only [hne, ↓reduceIte]
      obtain ⟨otherCall, hc, ho, hw⟩ := hk.sessions other session hg
      refine ⟨otherCall, hc, ho, hw.imp_right ?_⟩
      rintro ⟨hsp, hh⟩
      refine ⟨hsp, hh.covered, fun third rival ht hrv => ?_⟩
      simp only [get_put] at hrv
      split at hrv
      · cases hrv
        rcases ha with hn | ⟨-, -, hother⟩
        · exact hn
        · exact absurd hsp (hother other otherCall hc)
      · exact hh.others third rival ht hrv

private theorem kept_statement (hk : Q.Kept run)
    (hst : run.config.step S (.statement sid : Action κ) = some next) :
    Q.Kept (run.note next (.statement sid)) := by
  obtain ⟨session, hg, hsn⟩ := Option.bind_eq_some_iff.mp hst
  obtain ⟨call, hc, how, hw⟩ := hk.sessions sid session hg
  obtain ⟨u, hcm, hss, hl, hb⟩ := statement_step how hsn
  have hother : ∀ {own : Nat}, own ≠ sid → (∀ other rival, other ≠ own →
      run.config.sessions.get other = some rival → Q.Within run.config.committed rival 0) →
      ∀ other rival, other ≠ own → next.sessions.get other = some rival →
        Q.Within run.config.committed rival 0 := by
    intro own _ hr other rival ho hrv
    rw [hss, get_put] at hrv
    split at hrv
    · next hs =>
      cases hrv
      exact hb 0 (hr sid session (hs ▸ ho) hg)
    · exact hr other rival ho hrv
  refine ⟨by simpa only [CommitLog.note, hcm] using hk.limited, fun other rival hrv => ?_⟩
  simp only [CommitLog.note, hcm] at hrv ⊢
  by_cases hs : other = sid
  · subst hs
    rw [hss, get_put_self] at hrv
    cases hrv
    refine ⟨call, hc, hl, hw.imp (hb 0) ?_⟩
    rintro ⟨hsp, ⟨budget, hro, hcv⟩, hr⟩
    refine ⟨hsp, ⟨budget, hcm ▸ hro, hcm ▸ hb budget hcv⟩, ?_⟩
    intro third rival hthird ht
    rw [hss, get_put_ne _ _ hthird] at ht
    exact hcm ▸ hr third rival hthird ht
  · rw [hss, get_put_ne _ _ hs] at hrv
    obtain ⟨otherCall, hotherCall, hotherOwned, hoth⟩ := hk.sessions other rival hrv
    refine ⟨otherCall, hotherCall, hotherOwned, hoth.imp_right ?_⟩
    rintro ⟨hsp, hcv, hr⟩
    exact ⟨hsp, hcm ▸ hcv, hcm ▸ hother hs hr⟩

omit [DecidableEq ρ] in
private theorem kept_others (hk : Q.Kept run) (hw : ∀ w ∈ writes, Q.Allows call w)
    (hno : ∀ other rival, other ≠ sid → run.config.sessions.get other = some rival →
      Q.Holder run.config other rival →
        Q.measure (S.view run.config.committed writes) ≤ Q.measure run.config.committed) :
    ∀ other rival, (run.config.sessions.remove sid).get other = some rival →
      ∃ otherCall, (run.calls.remove sid).get other = some otherCall ∧ Q.Owned otherCall rival ∧
        (Q.Within (S.view run.config.committed writes) rival 0 ∨ Q.Spender otherCall ∧ Q.Holder
            { run.config with
              committed := S.view run.config.committed writes
              sessions := run.config.sessions.remove sid } other rival) := by
  intro other rival ho
  simp only [get_remove] at ho ⊢
  split at ho
  · cases ho
  · next hn =>
    obtain ⟨otherCall, hc, how, hwn⟩ := hk.sessions other rival ho
    simp only [hn, ↓reduceIte]
    refine ⟨otherCall, hc, how, hwn.imp (·.commit hw) ?_⟩
    rintro ⟨hs, hh⟩
    obtain ⟨budget, hr, hcv⟩ := hh.covered
    have hm := hno other rival hn ho hh
    refine ⟨hs, ⟨budget, ?_, hcv.commit hw⟩, fun third found ht hf => ?_⟩
    · dsimp only
      omega
    · simp only [get_remove] at hf
      split at hf
      · cases hf
      · exact (hh.others third found ht hf).commit hw

private theorem kept_commit (hk : Q.Kept run)
    (hs : run.config.step S (.commit sid : Action κ) = some next) :
    Q.Kept (run.note next (.commit sid)) := by
  obtain ⟨session, hg, he⟩ := Option.bind_eq_some_iff.mp hs
  obtain ⟨call, -, ho, hw⟩ := hk.sessions sid session hg
  split at he
  · cases he
    refine ⟨?_, kept_others hk ho.writes ?_⟩
    · have hl := hk.limited
      rcases hw with hn | ⟨-, ⟨budget, hr, hc⟩, -⟩
      · exact Nat.le_trans (hn.measure ho) hl
      · exact Nat.le_trans (hc.measure ho) hr
    · intro other rival hne _ hh
      exact (hh.others sid session (Ne.symm hne) hg).measure ho
  · cases he

private theorem kept_rollback (hk : Q.Kept run)
    (hs : run.config.step S (.rollback sid : Action κ) = some next) :
    Q.Kept (run.note next (.rollback sid)) := by
  obtain ⟨session, hg, he⟩ := Option.map_eq_some_iff.mp hs
  obtain ⟨call, -, -, -⟩ := hk.sessions sid session hg
  cases he
  have hn : ∀ write ∈ ([] : List ω), Q.Allows call write := fun _ hm => absurd hm List.not_mem_nil
  exact ⟨hk.limited, kept_others hk hn fun _ _ _ _ _ => Nat.le_refl _⟩

theorem Kept.step (hk : Q.Kept run)
    (had : Q.Admits run action) (hs : run.step S action = some after) : Q.Kept after := by
  obtain ⟨next, hn, ha⟩ := Option.map_eq_some_iff.mp hs
  subst ha
  cases action with
  | begin sid call => exact kept_begin hk had hn
  | statement sid => exact kept_statement hk hn
  | commit sid => exact kept_commit hk hn
  | rollback sid => exact kept_rollback hk hn

theorem kept_of_reach (ha : ∀ run action, allowed run action → Q.Admits run action)
    (hs0 : Q.measure s ≤ Q.limit)
    (hr : Transition.Reach (CommitLog.step S) allowed (CommitLog.start s n) run) :
    Q.Kept run := by
  apply hr.invariant
  · refine ⟨hs0, fun sid session hg => ?_⟩
    cases hg
  · intro before action t hb hst hs
    exact hb.step (ha before action hst) hs

end Quota

end ReadCommitted
