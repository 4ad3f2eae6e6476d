import FyralisCore.Lib.RelyGuarantee

/-! Rows that several sessions may hold together. Writing a row that refers to
another one share-locks the row referred to: it waits while some other session
holds that row for itself, and until the writer has ended, a statement that
wants the row for itself waits. Every run with share locks is a run without
them. -/
namespace ReadCommitted

open Relational Transaction

variable {σ ω ρ ε κ : Type} [DecidableEq ρ]

def Config.sharedByOther (refers : ω → List ρ) (config : Config σ ω ρ ε) (session : Nat) :
    Option ρ → Bool
  | none => false
  | some row => config.sessions.any fun other state =>
      other != session && state.trail.writes.any fun write => decide (row ∈ refers write)

section

variable (S : Schema σ ω ρ ε κ) (refers : ω → List ρ) (config : Config σ ω ρ ε)

/-- The statement that the session would send has to wait for a row that others
share, or to share a row that another one holds. -/
def Config.waitsToShare (id : Nat) (session : Session σ ω ρ ε) : Bool :=
  match session.rest with
  | .statement lock writes _ =>
    let seen := S.view config.committed session.trail.writes
    config.sharedByOther refers id (lock seen) ||
      (writes seen).any fun write => (refers write).any fun row =>
        config.heldByOther id (some row)
  | _ => false

/-- `Config.step`, where rows referred to are share-locked. -/
def Config.stepSharing (action : Action κ) : Option (Config σ ω ρ ε) :=
  match action with
  | .statement id => (config.sessions.get id).bind fun session =>
      if config.waitsToShare S refers id session then none else config.step S action
  | _ => config.step S action

end

theorem Config.step_of_stepSharing {c : Config σ ω ρ ε}
    (hs : c.stepSharing S refers action = some next) : c.step S action = some next := by
  cases action with
  | statement id =>
    obtain ⟨session, -, hsn⟩ := Option.bind_eq_some_iff.mp hs
    exact (Option.ite_none_left_eq_some.mp hsn).2
  | begin id call => exact hs
  | commit id => exact hs
  | rollback id => exact hs

theorem reach_of_reachSharing {allowed : Config σ ω ρ ε → Action κ → Prop}
    (hr : Transition.Reach (Config.stepSharing S refers) allowed start config) :
    Transition.Reach (Config.step S) allowed start config := by
  induction hr with
  | start => exact .start
  | next _ ha hs ih => exact ih.next ha (Config.step_of_stepSharing hs)

end ReadCommitted

/-! A schema whose transactions are, in part, those of a smaller schema on the
same states. The smaller one's transactions are verified where they are
written: a protocol of the larger schema restricts to the smaller one, and what
is proved of a program there holds of the program embedded. -/
namespace Transaction

variable {σ ω ρ ε ω' ρ' ε' α : Type}

/-- The same statements, with their writes, their locks and their errors named
otherwise. -/
def Tx.rename (write : ω → ω') (row : ρ → ρ') (error : ε → ε') : Tx σ ω ρ ε α → Tx σ ω' ρ' ε' α
  | .done value => .done value
  | .raise raised => .raise (error raised)
  | .statement lock writes next =>
    .statement (fun state => (lock state).map row) (fun state => (writes state).map write)
      fun state => (next state).rename write row error
  | .mint next => .mint fun id => (next id).rename write row error

end Transaction

namespace ReadCommitted

open Relational Transaction

variable {σ ω ρ ε κ ω' ρ' ε' κ' α : Type}

/-- How the writes, the rows and the errors of `S` are named in `L`. -/
structure Embedding (S : Schema σ ω ρ ε κ) (L : Schema σ ω' ρ' ε' κ') where
  write : ω → ω'
  row : ρ → ρ'
  error : ε → ε'
  apply_write : ∀ s w, L.apply s (write w) = S.apply s w
  row_injective : Function.Injective row

namespace Embedding

variable {S : Schema σ ω ρ ε κ} {L : Schema σ ω' ρ' ε' κ'} (E : Embedding S L)

def trail (trail : Trail ω ρ) : Trail ω' ρ' where
  writes := trail.writes.map E.write
  locks := trail.locks.map E.row
  minted := trail.minted

section

variable (tr : Trail ω ρ)

@[simp] theorem trail_writes :
    (E.trail tr).writes = tr.writes.map E.write := rfl

@[simp] theorem trail_locks :
    (E.trail tr).locks = tr.locks.map E.row := rfl

@[simp] theorem trail_minted : (E.trail tr).minted = tr.minted := rfl

end

@[simp] theorem trail_empty : E.trail {} = {} := rfl

@[simp] theorem view_map (committed : σ) (writes : List ω) :
    L.view committed (writes.map E.write) = S.view committed writes := by
  induction writes generalizing committed with
  | nil => rfl
  | cons w rest ih =>
    rw [List.map_cons, Schema.view, List.foldl_cons, E.apply_write, ← Schema.view, ih]
    rfl

theorem trail_extend (tr : Trail ω ρ) (lock : Option ρ) (ws : List ω) :
    E.trail (tr.extend lock ws) = (E.trail tr).extend (lock.map E.row) (ws.map E.write) := by
  cases lock <;> simp [Embedding.trail, Trail.extend]

theorem disjoint_trail (hd : mine.Disjoint theirs) : (E.trail mine).Disjoint (E.trail theirs) := by
  refine ⟨fun row hm ht => ?_, hd.2⟩
  obtain ⟨first, h1, rfl⟩ := List.mem_map.mp hm
  obtain ⟨second, h2, hs⟩ := List.mem_map.mp ht
  rw [E.row_injective hs] at h2
  exact hd.1 first h1 h2

def restrict (P : Protocol L) : Protocol S where
  Good := P.Good
  Own start s trail := P.Own start s (E.trail trail)
  Rely trail := P.Rely (E.trail trail)
  Unused := P.Unused
  rely_refl _ := P.rely_refl _
  rely_trans := P.rely_trans
  own_begin := P.own_begin
  own_stable := P.own_stable
  rely_commit := by
    intro start other s mine theirs hgood hmine htheirs hdisjoint
    have hrely := P.rely_commit hgood hmine htheirs (E.disjoint_trail hdisjoint)
    rwa [trail_writes, view_map] at hrely
  unused_commit := by
    intro start s trail id hown hunused hminted
    have hafter := P.unused_commit hown hunused hminted
    rwa [trail_writes, view_map] at hafter

theorem wp_rename {P : Protocol L} {start : σ} {tr : Trail ω ρ} {body : Tx σ ω ρ ε α}
    {Q : α → σ → Trail ω ρ → Prop} {R : α → σ → Trail ω' ρ' → Prop}
    (hw : (E.restrict P).wp start Q body s tr)
    (hi : ∀ v t u, Q v t u → R v t (E.trail u)) :
    P.wp start R (body.rename E.write E.row E.error) s (E.trail tr) := by
  induction body generalizing s tr with
  | done v => exact hi _ _ _ hw
  | raise error => trivial
  | statement lock ws next ih =>
    intro t hr hg
    obtain ⟨ho, hn⟩ := hw t hr hg
    simp only [trail_writes, view_map, ← trail_extend]
    exact ⟨ho, ih _ hn⟩
  | mint next ih =>
    intro t id hr hg hu hm
    obtain ⟨ho, hn⟩ := hw t id hr hg hu hm
    exact ⟨ho, ih id hn⟩

end Embedding

end ReadCommitted
