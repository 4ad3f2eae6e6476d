import FyralisCore.Lib.CommitDiscipline

/-! Runs of sessions with a record of the calls that were committed, in the
order of their commits. The record is kept beside the run and is not read by
it, so a result about what the committed calls have left is a result about the
run. -/
namespace ReadCommitted

open Relational Transaction Option

variable {σ ω ρ ε κ : Type}

structure CommitLog (σ ω ρ ε κ : Type) where
  config : Config σ ω ρ ε
  /-- What each open session was begun with. -/
  calls : Table Nat κ := ∅
  log : List κ := []

/-- The record after an action that left the sessions in `next`. -/
def CommitLog.note (run : CommitLog σ ω ρ ε κ) (next : Config σ ω ρ ε) :
    Action κ → CommitLog σ ω ρ ε κ
  | .begin sid call => { run with config := next, calls := run.calls.put sid call }
  | .statement _ => { run with config := next }
  | .commit sid =>
    { config := next
      calls := run.calls.remove sid
      log := run.log ++ (run.calls.get sid).toList }
  | .rollback sid => { run with config := next, calls := run.calls.remove sid }

def CommitLog.step [DecidableEq ρ] (S : Schema σ ω ρ ε κ) (run : CommitLog σ ω ρ ε κ)
    (action : Action κ) : Option (CommitLog σ ω ρ ε κ) :=
  (run.config.step S action).map fun next => run.note next action

def CommitLog.start (committed : σ) (supply : Nat) : CommitLog σ ω ρ ε κ :=
  { config := { committed, supply } }

/-- What each call owes when it has run to its end, over a discipline that
keeps the sessions apart. -/
structure Account {S : Schema σ ω ρ ε κ} (D : Discipline S) where
  Owes : κ → σ → Trail ω ρ → Prop
  final : ∀ {call s trail}, Owes call s trail → D.Final s trail
  stable : ∀ {call s t trail}, D.Good s → Owes call s trail → D.Rely trail s t → D.Good t →
    Owes call t trail

def Account.Sound {S : Schema σ ω ρ ε κ} {D : Discipline S} (A : Account D) : Prop :=
  ∀ call s, D.Good s → D.Starts s call → D.wp (fun _ => A.Owes call) (S.program call) s {}

section Runs

variable {S : Schema σ ω ρ ε κ} {D : Discipline S} {A : Account D}

theorem Account.Sound.discipline (hsd : A.Sound) : D.Sound :=
  fun call s hg hs =>
    Discipline.wp_mono (hsd call s hg hs) fun _ _ _ ho => A.final ho

/-- What is known of an open session: it pays what its own call owes. -/
structure Account.Open (A : Account D) (committed : σ) (call : κ) (session : Session σ ω ρ ε) :
    Prop where
  owed : ∃ s, D.Good s ∧ D.Rely session.trail s committed ∧
    D.wp (fun _ => A.Owes call) session.rest s session.trail

variable {call : κ}

theorem Account.Open.ended (ho : A.Open committed call session) (hg : D.Good committed)
    (hd : session.rest = .done ()) : A.Owes call committed session.trail := by
  obtain ⟨s, ht, hr, hw⟩ := ho.owed
  rw [hd] at hw
  exact A.stable ht hw hr hg

structure Account.Coherent (A : Account D) (P : σ → List κ → Prop)
    (run : CommitLog σ ω ρ ε κ) : Prop where
  coherent : D.Coherent run.config
  sessions : ∀ sid session, run.config.sessions.get sid = some session →
    ∃ call, run.calls.get sid = some call ∧ A.Open run.config.committed call session
  kept : P run.config.committed run.log

variable {P : σ → List κ → Prop}

variable {run : CommitLog σ ω ρ ε κ} {sid : Nat}

private theorem account_others (hk : A.Coherent P run) (hr : ∀ other rival, other ≠ sid →
      run.config.sessions.get other = some rival →
        D.Rely rival.trail run.config.committed committed) :
    ∀ other rival, (run.config.sessions.remove sid).get other = some rival →
      ∃ call, (run.calls.remove sid).get other = some call ∧ A.Open committed call rival := by
  intro other rival ho
  simp only [Table.get_remove] at ho ⊢
  split at ho
  · cases ho
  · next hn =>
    obtain ⟨call, hc, s, hg, hp, hw⟩ := hk.sessions other rival ho
    simp only [hn, ↓reduceIte]
    exact ⟨call, hc, ⟨s, hg, D.rely_trans hp (hr other rival hn ho), hw⟩⟩

variable [DecidableEq ρ]

variable {next : Config σ ω ρ ε}

theorem Account.Open.statement (ho : A.Open c.committed call session) (hc : D.Coherent c)
    (hg : c.sessions.get sid = some session) (ha : D.Admits c.committed session.trail)
    (hs : c.sendStatement S sid session = some next) :
    next.committed = c.committed ∧ ∃ later, next.sessions = c.sessions.put sid later ∧
        A.Open c.committed call later := by
  obtain ⟨s, -, hr, hw⟩ := ho.owed
  rcases Config.sendStatement_cases hs with ⟨_, _, _, ht, -, rfl⟩ | ⟨_, ht, rfl⟩
  · rw [ht] at hw
    exact ⟨rfl, _, rfl, ⟨c.committed, hc.good, D.rely_refl _ _, hw c.committed hr hc.good ha⟩⟩
  · rw [ht] at hw
    have hl := hw c.committed c.supply hr hc.good (hc.unused _ (Nat.le_refl _)) (hc.apart.fresh hg)
    exact ⟨rfl, _, rfl, ⟨c.committed, hc.good, D.rely_refl _ _, hl⟩⟩

private theorem account_begin (hsd : A.Sound) (hk : A.Coherent P run)
    (hstr : D.Starts run.config.committed call) (hn : D.Coherent next)
    (hst : run.config.step S (.begin sid call) = some next) :
    A.Coherent P (run.note next (.begin sid call)) := by
  simp only [Config.step] at hst
  split at hst
  · cases hst
  · cases hst
    refine ⟨hn, ?_, hk.kept⟩
    intro other session hg
    simp only [CommitLog.note, Table.get_put] at hg ⊢
    split at hg
    · next hs =>
      cases hg
      simp only [hs, ↓reduceIte]
      exact ⟨call, rfl, ⟨_, hk.coherent.good, D.rely_refl _ _, hsd call _ hk.coherent.good hstr⟩⟩
    · next hne =>
      simp only [hne, ↓reduceIte]
      exact hk.sessions other session hg

private theorem account_statement (hk : A.Coherent P run)
    (ha : D.Admitted run.config (.statement sid : Action κ)) (hn : D.Coherent next)
    (hst : run.config.step S (.statement sid) = some next) :
    A.Coherent P (run.note next (.statement sid)) := by
  obtain ⟨session, hg, hsn⟩ := bind_eq_some_iff.mp hst
  obtain ⟨call, hc, hop⟩ := hk.sessions sid session hg
  obtain ⟨hcm, u, hss, hl⟩ := hop.statement hk.coherent hg (ha session hg) hsn
  refine ⟨hn, ?_, ?_⟩
  · intro other rival ho
    simp only [CommitLog.note, hss, hcm, Table.get_put] at ho ⊢
    split at ho
    · next hs =>
      cases ho
      exact ⟨call, hs ▸ hc, hl⟩
    · exact hk.sessions other rival ho
  · simpa only [CommitLog.note, hcm] using hk.kept

private theorem account_commit (hcm : ∀ {s log call tr}, P s log → D.Good s → A.Owes call s tr →
      P (S.view s tr.writes) (log ++ [call])) (hk : A.Coherent P run)
    (hn : D.Coherent next) (hs : run.config.step S (.commit sid) = some next) :
    A.Coherent P (run.note next (.commit sid)) := by
  obtain ⟨session, hg, he⟩ := bind_eq_some_iff.mp hs
  obtain ⟨call, hc, hop⟩ := hk.sessions sid session hg
  split at he
  · next hd =>
    have hgd := hk.coherent.good
    have how := hop.ended hgd hd
    cases he
    refine ⟨hn, ?_, ?_⟩
    · apply account_others hk
      intro other rival hne ho
      exact D.rely_commit hgd (A.final how) (hk.coherent.disjoint other sid rival session ho hg hne)
    · simp only [CommitLog.note, hc, toList_some]
      exact hcm hk.kept hgd how
  · cases he

private theorem account_rollback (hk : A.Coherent P run) (hn : D.Coherent next)
    (hs : run.config.step S (.rollback sid : Action κ) = some next) :
    A.Coherent P (run.note next (.rollback sid)) := by
  obtain ⟨session, -, he⟩ := map_eq_some_iff.mp hs
  cases he
  refine ⟨hn, ?_, hk.kept⟩
  apply account_others hk
  intro other rival _ _
  exact D.rely_refl _ _

section

variable (hsd : A.Sound)
  (hcm : ∀ {s log call tr}, P s log → D.Good s → A.Owes call s tr →
    P (S.view s tr.writes) (log ++ [call]))

include hsd hcm

theorem Account.coherent_step (hk : A.Coherent P run) (had : D.Admitted run.config action)
    (hs : run.step S action = some after) : A.Coherent P after := by
  obtain ⟨next, hn, ha⟩ := map_eq_some_iff.mp hs
  subst ha
  have hc := Discipline.coherent_step hsd.discipline hk.coherent had hn
  cases action with
  | begin sid call => exact account_begin hsd hk had hc hn
  | statement sid => exact account_statement hk had hc hn
  | commit sid => exact account_commit hcm hk hc hn
  | rollback sid => exact account_rollback hk hc hn

/-- The rule: what every call that has paid keeps, with its own call added to
the record, holds of the committed state and the committed calls throughout. -/
theorem Account.kept_of_reach (hal : ∀ run action, allowed run action →
    D.Admitted run.config action) (hgd : D.Good s) (hu : ∀ id, n ≤ id → D.Unused s id)
    (hs0 : P s []) (hr : Transition.Reach (CommitLog.step S) allowed (CommitLog.start s n) run) :
    P run.config.committed run.log := by
  have hc : A.Coherent P run := by
    apply hr.invariant
    · refine ⟨Discipline.coherent_of_reach hsd.discipline (fun _ _ ha => ha) hgd hu .start, ?_, hs0⟩
      intro sid session hg
      cases hg
    · intro before action t hb hst hs
      exact Account.coherent_step hsd hcm hb (hal _ _ hst) hs
  exact hc.kept

end

end Runs

end ReadCommitted
