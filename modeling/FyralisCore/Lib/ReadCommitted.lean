import FyralisCore.Lib.Table
import FyralisCore.Lib.Transaction

/-! Sessions under READ COMMITTED. Each statement of a transaction sees the
rows committed before it and the transaction's own writes, a row lock is held
until the transaction ends, and a statement whose row another session holds
waits. Nothing else orders the sessions: they begin, send statements, commit
and roll back in any interleaving. -/
namespace ReadCommitted

open Relational Transaction Option Table Transition

/-- What the transactions run on: how a write changes the state, and the
program behind each call. -/
structure Schema (σ ω ρ ε κ : Type) where
  apply : σ → ω → σ
  program : κ → Tx σ ω ρ ε Unit

/-- What a transaction has done so far: its uncommitted writes, the rows it has
locked and the identifiers it was handed. -/
structure Trail (ω ρ : Type) where
  writes : List ω := []
  locks : List ρ := []
  minted : List Nat := []

structure Session (σ ω ρ ε : Type) where
  /-- The committed state when the transaction began. -/
  start : σ
  trail : Trail ω ρ := {}
  rest : Tx σ ω ρ ε Unit

structure Config (σ ω ρ ε : Type) where
  committed : σ
  supply : Nat
  sessions : Table Nat (Session σ ω ρ ε) := ∅

inductive Action (κ : Type) : Type where
  | begin (session : Nat) (call : κ)
  | statement (session : Nat)
  | commit (session : Nat)
  | rollback (session : Nat)
  deriving DecidableEq

variable {σ ω ρ ε κ : Type}

def Schema.view (S : Schema σ ω ρ ε κ) (committed : σ) (writes : List ω) : σ :=
  writes.foldl S.apply committed

section

variable (S : Schema σ ω ρ ε κ)

@[simp] theorem Schema.view_nil (committed : σ) :
    S.view committed [] = committed := rfl

theorem Schema.view_append (committed : σ) (earlier u : List ω) : S.view committed (earlier ++ u) =
    u.foldl S.apply (S.view committed earlier) :=
  List.foldl_append

theorem Schema.lookup_view (lookup : σ → Option β) (written : ω → Option β) (hwr : ∀ s w,
    lookup (S.apply s w) = (written w).or (lookup s)) (committed : σ) (ws : List ω) : lookup
    (S.view committed ws) = (ws.reverse.findSome? written).or (lookup committed) := by
  induction ws generalizing committed with
  | nil => rfl
  | cons w rest ih =>
    rw [Schema.view, List.foldl_cons, ← Schema.view, ih, hwr, List.reverse_cons,
      List.findSome?_append, Option.or_assoc]
    congr 1
    cases hw : written w <;> simp [hw]

end

/-- The trail after a statement that locked `lock` and made `writes`. -/
def Trail.extend (trail : Trail ω ρ) (lock : Option ρ) (writes : List ω) : Trail ω ρ :=
  { trail with
    writes := trail.writes ++ writes
    locks := lock.toList ++ trail.locks }

def Trail.mint (trail : Trail ω ρ) (id : Nat) : Trail ω ρ :=
  { trail with minted := id :: trail.minted }

@[simp] theorem Trail.extend_nothing (trail : Trail ω ρ) : trail.extend none [] = trail := by
  simp [Trail.extend]

def Trail.Disjoint (first second : Trail ω ρ) : Prop :=
  (∀ row ∈ first.locks, row ∉ second.locks) ∧ ∀ id ∈ first.minted, id ∉ second.minted

theorem Trail.Disjoint.symm {first : Trail ω ρ} (hd : first.Disjoint second) :
    second.Disjoint first :=
  ⟨fun row h2 h1 => hd.1 row h1 h2, fun id h2 h1 => hd.2 id h1 h2⟩

private def alone (committed : σ) (supply id : Nat) (session : Session σ ω ρ ε) : Config σ ω ρ ε :=
  { committed, supply, sessions := Table.put ∅ id session }

private theorem alone_put (committed : σ) (n id : Nat) (session next : Session σ ω ρ ε) :
    (alone committed n id session).sessions.put id next = Table.put ∅ id next :=
  AList.insert_insert ∅

private theorem alone_get (committed : σ) (n id : Nat) (session : Session σ ω ρ ε) :
    (alone committed n id session).sessions.get id = some session :=
  get_put_self ∅ id session

section Steps

variable [DecidableEq ρ]

namespace Config

def heldByOther (config : Config σ ω ρ ε) (session : Nat) : Option ρ → Bool
  | none => false
  | some row => config.sessions.any fun other state =>
      other != session && decide (row ∈ state.trail.locks)

def sendStatement (S : Schema σ ω ρ ε κ) (config : Config σ ω ρ ε) (id : Nat)
    (session : Session σ ω ρ ε) : Option (Config σ ω ρ ε) :=
  match session.rest with
  | .statement lock writes next =>
    let seen := S.view config.committed session.trail.writes
    if config.heldByOther id (lock seen) then none
    else some { config with
      sessions := config.sessions.put id { session with
        trail := session.trail.extend (lock seen) (writes seen)
        rest := next seen } }
  | .mint next =>
    some { config with
      supply := config.supply + 1
      sessions := config.sessions.put id { session with
        trail := session.trail.mint config.supply
        rest := next config.supply } }
  | .done _ => none
  | .raise _ => none

/-- One step of the database, `none` when the action is not enabled. A
rollback stands for an error, a deadlock victim, a crash of the client. -/
def step (S : Schema σ ω ρ ε κ) (config : Config σ ω ρ ε) : Action κ → Option (Config σ ω ρ ε)
  | .begin id call =>
    if (config.sessions.get id).isSome then none
    else some { config with
      sessions := config.sessions.put id
        { start := config.committed, rest := S.program call } }
  | .statement id => (config.sessions.get id).bind (config.sendStatement S id)
  | .commit id =>
    (config.sessions.get id).bind fun session =>
      match session.rest with
      | .done _ => some { config with
          committed := S.view config.committed session.trail.writes
          sessions := config.sessions.remove id }
      | _ => none
  | .rollback id =>
    (config.sessions.get id).map fun _ =>
      { config with sessions := config.sessions.remove id }

theorem heldByOther_eq_false {config : Config σ ω ρ ε} {id : Nat}
    {s : Session σ ω ρ ε} (hf : config.heldByOther id (some row) = false)
    (ho : config.sessions.get other = some s) (hn : other ≠ id) : row ∉ s.trail.locks := by
  intro hh
  have ht : config.heldByOther id (some row) := by
    rw [heldByOther, any_iff]
    exact ⟨other, s, ho, by simp [hn, hh]⟩
  rw [hf] at ht
  cases ht

/-- A statement sees the committed state through the writes of its session; the row that it
locks is free, and an identifier is the next one. -/
theorem sendStatement_cases {S : Schema σ ω ρ ε κ} {config : Config σ ω ρ ε}
    (hs : config.sendStatement S sid session = some next) :
    (∃ lock ws rest, session.rest = .statement lock ws rest ∧
      let seen := S.view config.committed session.trail.writes
      config.heldByOther sid (lock seen) = false ∧
        next = { config with sessions := config.sessions.put sid { session with
          trail := session.trail.extend (lock seen) (ws seen), rest := rest seen } }) ∨
      ∃ rest, session.rest = .mint rest ∧ next = { config with
        supply := config.supply + 1
        sessions := config.sessions.put sid { session with
          trail := session.trail.mint config.supply, rest := rest config.supply } } := by
  unfold sendStatement at hs
  split at hs
  · next lock ws rest ht =>
    dsimp only at hs
    split at hs
    · cases hs
    · next hf =>
      cases hs
      exact .inl ⟨lock, ws, rest, ht, by simpa using hf, rfl⟩
  · next rest ht =>
    cases hs
    exact .inr ⟨rest, ht, rfl⟩
  · cases hs
  · cases hs

theorem committed_of_step {S : Schema σ ω ρ ε κ} {config : Config σ ω ρ ε}
    {action : Action κ} (hs : config.step S action = some next) :
    next.committed = config.committed ∨
      ∃ sid session, action = .commit sid ∧ config.sessions.get sid = some session ∧
        session.rest = .done () ∧
        next.committed = S.view config.committed session.trail.writes := by
  cases action with
  | begin sid call =>
    simp only [step] at hs
    split at hs
    · cases hs
    · cases hs
      exact .inl rfl
  | statement sid =>
    obtain ⟨session, -, hsn⟩ := bind_eq_some_iff.mp hs
    rcases sendStatement_cases hsn with ⟨_, _, _, -, -, rfl⟩ | ⟨_, -, rfl⟩
    · exact .inl rfl
    · exact .inl rfl
  | commit sid =>
    obtain ⟨session, hg, hc⟩ := bind_eq_some_iff.mp hs
    split at hc
    · next hd =>
      cases hc
      exact .inr ⟨sid, session, rfl, hg, hd, rfl⟩
    · cases hc
  | rollback sid =>
    obtain ⟨session, -, hn⟩ := map_eq_some_iff.mp hs
    cases hn
    exact .inl rfl

/-! ### Sessions that share no lock and no identifier -/

structure Apart (config : Config σ ω ρ ε) : Prop where
  minted : ∀ sid session, config.sessions.get sid = some session →
    ∀ id ∈ session.trail.minted, id < config.supply
  disjoint : ∀ sid other session rival, config.sessions.get sid = some session →
    config.sessions.get other = some rival → sid ≠ other → session.trail.Disjoint rival.trail

section

omit [DecidableEq ρ]

variable {config : Config σ ω ρ ε}

theorem of_get_remove (hg : (config.sessions.remove sid).get other = some rival) :
    other ≠ sid ∧ config.sessions.get other = some rival := by
  rw [get_remove] at hg
  split at hg
  · cases hg
  · next hn => exact ⟨hn, hg⟩

section

variable (ha : config.Apart)

include ha

theorem Apart.remove (committed : σ) (sid : Nat) :
    Apart { config with committed, sessions := config.sessions.remove sid } where
  minted := fun other rival hg => ha.minted other rival (of_get_remove hg).2
  disjoint := fun first second left right hl hr =>
    ha.disjoint first second left right (of_get_remove hl).2 (of_get_remove hr).2

theorem Apart.put {supply : Nat} (hs : config.supply ≤ supply)
    (hm : ∀ id ∈ session.trail.minted, id < supply)
    (hd : ∀ other rival, config.sessions.get other = some rival → other ≠ sid →
      session.trail.Disjoint rival.trail) :
    Apart { config with supply, sessions := config.sessions.put sid session } where
  minted := by
    intro other rival hg
    rw [get_put] at hg
    split at hg
    · cases hg
      exact hm
    · exact fun id hi => Nat.lt_of_lt_of_le (ha.minted other rival hg id hi) hs
  disjoint := by
    intro first second left right hl hr hn
    rw [get_put] at hl hr
    split at hl
    · next he =>
      cases hl
      rw [if_neg fun h => hn (he.trans h.symm)] at hr
      exact hd second right hr fun h => hn (he.trans h.symm)
    · next h1 =>
      split at hr
      · next he =>
        cases hr
        exact (hd first left hl h1).symm
      · exact ha.disjoint first second left right hl hr hn

theorem Apart.begin (sid : Nat) (start : σ) (body : Tx σ ω ρ ε Unit) :
    Apart { config with sessions := config.sessions.put sid { start, rest := body } } := by
  apply ha.put (Nat.le_refl config.supply)
  · intro id hi
    cases hi
  · intro other rival _ _
    exact ⟨fun row hr => absurd hr List.not_mem_nil, fun id hi => absurd hi List.not_mem_nil⟩

theorem Apart.fresh (hg : config.sessions.get sid = some session) :
    config.supply ∉ session.trail.minted :=
  fun hm => Nat.lt_irrefl _ (ha.minted sid session hg _ hm)

end

end

theorem Apart.statement {S : Schema σ ω ρ ε κ} {config : Config σ ω ρ ε}
    (ha : config.Apart) (hg : config.sessions.get sid = some session)
    (hs : config.sendStatement S sid session = some next) : next.Apart := by
  rcases sendStatement_cases hs with ⟨lock, _, _, -, hf, rfl⟩ | ⟨_, -, rfl⟩
  · apply ha.put (Nat.le_refl config.supply)
    · exact ha.minted sid session hg
    · intro other rival ho hne
      have hold := ha.disjoint sid other session rival hg ho (Ne.symm hne)
      refine ⟨fun row hr => ?_, hold.2⟩
      rcases List.mem_append.mp hr with hn | hk
      · rw [mem_toList.mp hn] at hf
        exact heldByOther_eq_false hf ho hne
      · exact hold.1 row hk
  · apply ha.put (Nat.le_succ config.supply)
    · intro id hi
      rcases List.mem_cons.mp hi with rfl | hold
      · exact Nat.lt_succ_self _
      · exact Nat.lt_trans (ha.minted sid session hg id hold) (Nat.lt_succ_self _)
    · intro other rival ho hne
      have hold := ha.disjoint sid other session rival hg ho (Ne.symm hne)
      refine ⟨hold.1, fun id hi => ?_⟩
      rcases List.mem_cons.mp hi with rfl | hk
      · exact ha.fresh ho
      · exact hold.2 id hk

end Config

private theorem alone_heldByOther (committed : σ) (n id : Nat)
    (session : Session σ ω ρ ε) (row : Option ρ) :
    (alone committed n id session).heldByOther id row = false := by
  cases row with
  | none => rfl
  | some row =>
    rw [Config.heldByOther, Bool.eq_false_iff]
    intro ha
    obtain ⟨other, s, hg, hh⟩ := (any_iff _ _).mp ha
    rw [alone, get_put] at hg
    split at hg
    · next he => simp [he] at hh
    · cases hg

/-- A session that is alone can send all its statements, and what it then sees
is what its transaction leaves when it is run alone. -/
private theorem statements_reach (S : Schema σ ω ρ ε κ) (id : Nat) (start : σ)
    (body : Tx σ ω ρ ε Unit) (committed : σ) (n : Nat) (tr : Trail ω ρ)
    (origin : Config σ ω ρ ε) (t : σ) (left : Nat)
    (hx : Tx.Returns S.apply body (S.view committed tr.writes) n () t left)
    (hr : Transition.Reach (Config.step S) anyStep origin
      (alone committed n id ⟨start, tr, body⟩)) :
    ∃ final : Trail ω ρ, S.view committed final.writes = t ∧
      Transition.Reach (Config.step S) anyStep origin
        (alone committed left id ⟨start, final, .done ()⟩) := by
  induction body generalizing n tr with
  | done v =>
    obtain ⟨-, ha, hl⟩ := hx.ended
    subst ha hl
    exact ⟨tr, rfl, hr⟩
  | raise error => exact absurd hx Tx.returns_raise
  | statement lock ws next ih =>
    apply ih (S.view committed tr.writes) n
      (tr.extend (lock (S.view committed tr.writes)) (ws (S.view committed tr.writes)))
    · rw [Trail.extend, S.view_append]
      exact hx
    · refine hr.next (a := .statement id) trivial ?_
      simp only [Config.step, alone_get, bind_some, Config.sendStatement,
        alone_heldByOther, alone_put]
      rfl
  | mint next ih =>
    apply ih n (n + 1) (tr.mint n) hx
    refine hr.next (a := .statement id) trivial ?_
    simp only [Config.step, alone_get, bind_some, Config.sendStatement, alone_put]
    rfl

/-- The two readings of a transaction agree: a call that returns when it is run
alone can be run and committed by a session, with the same effect. -/
theorem reach_of_returns (S : Schema σ ω ρ ε κ) (call : κ) (committed t : σ) (n left : Nat)
    (hx : Tx.Returns S.apply (S.program call) committed n () t left) :
    Transition.Reach (Config.step S) anyStep (⟨committed, n, ∅⟩ : Config σ ω ρ ε) ⟨t, left, ∅⟩ := by
  have hb : Transition.Reach (Config.step S) anyStep (⟨committed, n, ∅⟩ : Config σ ω ρ ε)
      (alone committed n 0 ⟨committed, {}, S.program call⟩) :=
    Transition.Reach.start.next (a := .begin 0 call) trivial rfl
  obtain ⟨final, hv, hr⟩ := statements_reach S 0 committed (S.program call) committed
    n {} _ t left hx hb
  refine hr.next (a := .commit 0) trivial ?_
  subst hv
  rfl

end Steps

end ReadCommitted
