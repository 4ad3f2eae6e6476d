import FyralisCore.Lib.ReadCommitted

/-! Rely and guarantee for sessions under READ COMMITTED. A protocol says what
a good committed state is, what a session may assume about the commits of
others while it holds its rows (`Rely`), and what it keeps true of itself
(`Own`). A program that keeps `Own` at each of its statements, whatever the
others do between them, keeps every committed state good. -/
namespace ReadCommitted

open Relational Transaction

variable {σ ω ρ ε κ α β : Type}

/-- `Own start committed trail` speaks about one session: the committed state
when it began, the committed state now, and what it has done. -/
structure Protocol (S : Schema σ ω ρ ε κ) where
  Good : σ → Prop
  Own : σ → σ → Trail ω ρ → Prop
  Rely : Trail ω ρ → σ → σ → Prop
  /-- The identifier occurs nowhere in the state. -/
  Unused : σ → Nat → Prop
  rely_refl : ∀ trail s, Rely trail s s
  rely_trans : ∀ {trail s t u}, Rely trail s t → Rely trail t u → Rely trail s u
  own_begin : ∀ {s}, Good s → Own s s {}
  own_stable : ∀ {start s t trail}, Own start s trail → Rely trail s t → Good t →
    Own start t trail
  /-- What one session commits is within what every other session relies on. -/
  rely_commit : ∀ {start other s mine theirs}, Good s → Own start s mine →
    Own other s theirs → mine.Disjoint theirs → Rely theirs s (S.view s mine.writes)
  unused_commit : ∀ {start s trail id}, Own start s trail → Unused s id → id ∉ trail.minted →
    Unused (S.view s trail.writes) id

variable {S : Schema σ ω ρ ε κ} (P : Protocol S)

/-- The weakest condition under which a session that still has `body` to run
keeps `Own` until it ends, and then satisfies `Q`. Before each statement the
others may have committed anything the session relies on. -/
def Protocol.wp (start : σ) (Q : α → σ → Trail ω ρ → Prop) : Tx σ ω ρ ε α → σ → Trail ω ρ → Prop
  | .done value, s, trail => Q value s trail
  | .raise _, _, _ => True
  | .statement lock writes next, s, trail => ∀ t, P.Rely trail s t → P.Good t →
      let seen := S.view t trail.writes
      let extended := trail.extend (lock seen) (writes seen)
      P.Own start t extended ∧ wp start Q (next seen) t extended
  | .mint next, s, trail => ∀ t id, P.Rely trail s t → P.Good t → P.Unused t id →
      id ∉ trail.minted →
      P.Own start t (trail.mint id) ∧ wp start Q (next id) t (trail.mint id)

/-- What holds before the body holds when it has ended. -/
abbrev Protocol.Preserves (start : σ) (I : σ → Trail ω ρ → Prop) (body : Tx σ ω ρ ε α) : Prop :=
  ∀ {s trail}, I s trail → P.wp start (fun _ => I) body s trail

variable {P} {start : σ}

variable {s : σ} {trail : Trail ω ρ} {Q : α → σ → Trail ω ρ → Prop} {config : Config σ ω ρ ε}
  {sid : Nat} {session : Session σ ω ρ ε}

theorem wp_bind {Q : β → σ → Trail ω ρ → Prop} : P.wp start Q (first.bind rest) s trail ↔
      P.wp start (fun v => P.wp start Q (rest v)) first s trail := by
  induction first generalizing s trail with
  | done v => rfl
  | raise error => rfl
  | statement lock ws next ih =>
    simp [Tx.bind, Protocol.wp, ih]
  | mint next ih =>
    simp [Tx.bind, Protocol.wp, ih]

theorem wp_mono (hw : P.wp start Q body s trail) (hi : ∀ v t u, Q v t u → R v t u) :
    P.wp start R body s trail := by
  induction body generalizing s trail with
  | done v => exact hi _ _ _ hw
  | raise error => trivial
  | statement lock ws next ih =>
    intro t hr hg
    obtain ⟨ho, hn⟩ := hw t hr hg
    exact ⟨ho, ih _ hn⟩
  | mint next ih =>
    intro t id hr hg hu hm
    obtain ⟨ho, hn⟩ := hw t id hr hg hu hm
    exact ⟨ho, ih _ hn⟩

theorem wp_seq {Q : β → σ → Trail ω ρ → Prop} (h1 : P.wp start R first s trail)
    (ht : ∀ v t u, R v t u → P.wp start Q (rest v) t u) :
    P.wp start Q (first.bind rest) s trail :=
  wp_bind.mpr (wp_mono h1 ht)

theorem wp_query (ha : ∀ t, P.Rely trail s t → P.Good t →
      match answer (S.view t trail.writes) with
      | .ok (ws, v) =>
        P.Own start t (trail.extend (lock (S.view t trail.writes)) ws) ∧
          Q v t (trail.extend (lock (S.view t trail.writes)) ws)
      | .error _ => P.Own start t (trail.extend (lock (S.view t trail.writes)) [])) :
    P.wp start Q (Tx.query lock answer) s trail := by
  intro t hr hg
  have ht := ha t hr hg
  dsimp only
  cases hc : answer (S.view t trail.writes) with
  | ok r =>
    rw [hc] at ht
    exact ht
  | error error =>
    rw [hc] at ht
    exact ⟨ht, trivial⟩

theorem wp_read (ho : P.Own start s trail)
    (ha : ∀ t, P.Rely trail s t → P.Good t → P.Own start t trail →
      Q (answer (S.view t trail.writes)) t trail) : P.wp start Q (Tx.read answer) s trail := by
  refine wp_query fun t hr hg => ?_
  have hs := P.own_stable ho hr hg
  simp only [Trail.extend_nothing]
  exact ⟨hs, ha t hr hg hs⟩

theorem wp_newId {Q : Nat → σ → Trail ω ρ → Prop}
    (hi : ∀ t id, P.Rely trail s t → P.Good t → P.Unused t id → id ∉ trail.minted →
      P.Own start t (trail.mint id) ∧ Q id t (trail.mint id)) :
    P.wp start Q (Tx.newId : Tx σ ω ρ ε Nat) s trail :=
  hi

theorem wp_ensure {condition : Bool} {error : ε} {Q : Unit → σ → Trail ω ρ → Prop}
    (ht : condition → Q () s trail) :
    P.wp start Q (Tx.ensure condition error) s trail := by
  cases condition with
  | true => exact ht rfl
  | false => trivial

theorem wp_when {condition : Bool} {body : Tx σ ω ρ ε Unit} {Q : Unit → σ → Trail ω ρ → Prop}
    (hb : condition → P.wp start Q body s trail) (hs : condition = false → Q () s trail) :
    P.wp start Q (Tx.when condition body) s trail := by
  cases condition with
  | true => exact hb rfl
  | false => exact hs rfl

theorem wp_ofExcept (ho : ∀ v, computed = .ok v → Q v s trail) :
    P.wp start Q (Tx.ofExcept computed) s trail := by
  cases computed with
  | ok v => exact ho v rfl
  | error error => trivial

theorem wp_orRaise (hs : ∀ v, found = some v → Q v s trail) :
    P.wp start Q (Tx.orRaise found error) s trail := by
  cases found with
  | some v => exact hs v rfl
  | none => trivial

/-- A transaction whose statements all keep an invariant of the session keeps
it, provided the invariant survives the commits of others. -/
theorem wp_of_eachStatement {I : σ → Trail ω ρ → Prop} (hb : body.EachStatement ok)
    (hsb : ∀ s t trail, I s trail → P.Rely trail s t → P.Good t → I t trail)
    (hs : ∀ t trail lock ws, I t trail → P.Good t → ok (S.view t trail.writes) lock ws →
        P.Own start t (trail.extend lock ws) ∧ I t (trail.extend lock ws))
    (hm : ∀ t trail id, I t trail → P.Good t → P.Unused t id → id ∉ trail.minted →
      P.Own start t (trail.mint id) ∧ I t (trail.mint id)) (hs0 : I s trail) :
    P.wp start (fun _ => I) body s trail := by
  induction body generalizing s trail with
  | done v => exact hs0
  | raise error => trivial
  | statement lock ws next ih =>
    intro t hr hg
    obtain ⟨hok, hn⟩ := hb (S.view t trail.writes)
    obtain ⟨ho, hi⟩ := hs t trail _ _ (hsb s t trail hs0 hr hg) hg hok
    exact ⟨ho, ih _ hn hi⟩
  | mint next ih =>
    intro t id hr hg hu hf
    obtain ⟨ho, hi⟩ := hm t trail id (hsb s t trail hs0 hr hg) hg hu hf
    exact ⟨ho, ih id (hb id) hi⟩

theorem wp_forEach {I : σ → Trail ω ρ → Prop} (hs : I s trail)
    (hb : ∀ item ∈ items, ∀ t u, I t u → P.wp start (fun _ => I) (body item) t u) :
    P.wp start (fun _ => I) (Tx.forEach items body) s trail := by
  induction items generalizing s trail with
  | nil => exact hs
  | cons item rest ih =>
    rw [Tx.forEach, wp_bind]
    apply wp_mono (hb item (.head _) s trail hs)
    intro _ t u hi
    exact ih hi fun next hn => hb next (.tail _ hn)

def Protocol.Sound (P : Protocol S) : Prop :=
  ∀ call s, P.Good s → P.wp s (fun _ _ _ => True) (S.program call) s {}

/-- What holds of every reachable configuration. A session may be behind: what
is known about it was established at an earlier committed state. -/
structure Protocol.Coherent (P : Protocol S) (config : Config σ ω ρ ε) : Prop where
  good : P.Good config.committed
  unused : ∀ id, config.supply ≤ id → P.Unused config.committed id
  minted : ∀ sid session, config.sessions.get sid = some session →
    ∀ id ∈ session.trail.minted, id < config.supply
  disjoint : ∀ sid other session rival, config.sessions.get sid = some session →
    config.sessions.get other = some rival → sid ≠ other →
    session.trail.Disjoint rival.trail
  own : ∀ sid session, config.sessions.get sid = some session →
    P.Own session.start config.committed session.trail
  sound : ∀ sid session, config.sessions.get sid = some session →
    ∃ s, P.Rely session.trail s config.committed ∧
      P.wp session.start (fun _ _ _ => True) session.rest s session.trail

section

variable (hc : P.Coherent config)

include hc

theorem Protocol.Coherent.apart : config.Apart :=
  ⟨hc.minted, hc.disjoint⟩

/-- A configuration with one session replaced stays coherent when the committed
state has not changed and the new session fits in. -/
private theorem coherent_put (hs : config.supply ≤ supply)
    (ha : Config.Apart { config with supply, sessions := config.sessions.put sid session })
    (ho : P.Own session.start config.committed session.trail)
    (hsd : P.wp session.start (fun _ _ _ => True) session.rest config.committed session.trail) :
    P.Coherent { config with supply, sessions := config.sessions.put sid session } where
  good := hc.good
  unused := fun id hi => hc.unused id (Nat.le_trans hs hi)
  minted := ha.minted
  disjoint := ha.disjoint
  own := by
    intro other rival hg
    rw [Table.get_put] at hg
    split at hg
    · cases hg
      exact ho
    · exact hc.own other rival hg
  sound := by
    intro other rival hg
    rw [Table.get_put] at hg
    split at hg
    · cases hg
      exact ⟨config.committed, P.rely_refl _ _, hsd⟩
    · exact hc.sound other rival hg

private theorem coherent_remove (sid : Nat) :
    P.Coherent { config with sessions := config.sessions.remove sid } where
  good := hc.good
  unused := hc.unused
  minted := (hc.apart.remove config.committed sid).minted
  disjoint := (hc.apart.remove config.committed sid).disjoint
  own := fun other rival hg => hc.own other rival (Config.of_get_remove hg).2
  sound := fun other rival hg => hc.sound other rival (Config.of_get_remove hg).2

end

private theorem coherent_begin (hs : P.Sound) (hc : P.Coherent config) (sid : Nat)
    (call : κ) : P.Coherent { config with
      sessions := config.sessions.put sid { start := config.committed, rest := S.program call } } :=
  coherent_put hc (Nat.le_refl config.supply) (hc.apart.begin sid _ _)
    (P.own_begin hc.good) (hs call config.committed hc.good)

private theorem coherent_commit (hc : P.Coherent config)
    (hg : config.sessions.get sid = some session)
    (hgd : P.Good (S.view config.committed session.trail.writes)) :
    P.Coherent { config with
      committed := S.view config.committed session.trail.writes
      sessions := config.sessions.remove sid } := by
  have ha := hc.apart.remove (S.view config.committed session.trail.writes) sid
  have hr : ∀ {other rival}, (config.sessions.remove sid).get other = some rival →
      P.Rely rival.trail config.committed (S.view config.committed session.trail.writes) := by
    intro other rival ho
    obtain ⟨hn, hrv⟩ := Config.of_get_remove ho
    exact P.rely_commit hc.good (hc.own sid session hg) (hc.own other rival hrv)
      (hc.disjoint sid other session rival hg hrv (Ne.symm hn))
  exact
    { good := hgd
      unused := fun id hi => P.unused_commit (hc.own sid session hg)
        (hc.unused id hi)
        fun hm => absurd (hc.minted sid session hg id hm) (Nat.not_lt.mpr hi)
      minted := ha.minted
      disjoint := ha.disjoint
      own := fun other rival ho =>
        P.own_stable (hc.own other rival (Config.of_get_remove ho).2) (hr ho)
          hgd
      sound := fun other rival ho => by
        obtain ⟨s, hp, hw⟩ := hc.sound other rival (Config.of_get_remove ho).2
        exact ⟨s, P.rely_trans hp (hr ho), hw⟩ }

variable [DecidableEq ρ]

private theorem coherent_statement (hc : P.Coherent config)
    (hg : config.sessions.get sid = some session)
    (hs : config.sendStatement S sid session = some next) : P.Coherent next := by
  obtain ⟨s, hr, hw⟩ := hc.sound sid session hg
  have ha := hc.apart.statement hg hs
  rcases Config.sendStatement_cases hs with
    ⟨lock, writes, rest, ht, -, rfl⟩ | ⟨rest, ht, rfl⟩
  · rw [ht] at hw
    obtain ⟨ho, hn⟩ := hw config.committed hr hc.good
    exact coherent_put hc (Nat.le_refl config.supply) ha ho hn
  · rw [ht] at hw
    obtain ⟨ho, hn⟩ := hw config.committed config.supply hr hc.good
      (hc.unused _ (Nat.le_refl _)) (hc.apart.fresh hg)
    exact coherent_put hc (Nat.le_succ config.supply) ha ho hn

def Protocol.CommitsGood (P : Protocol S) (allowed : Config σ ω ρ ε → Action κ → Prop) : Prop :=
  ∀ config sid session, config.sessions.get sid = some session →
    allowed config (.commit sid) → P.Good config.committed →
    P.Own session.start config.committed session.trail →
    P.Good (S.view config.committed session.trail.writes)

theorem Protocol.coherent_step (hsn : P.Sound) (hc : P.CommitsGood allowed)
    (hch : P.Coherent config) (ha : allowed config action)
    (hs : config.step S action = some next) : P.Coherent next := by
  cases action with
  | begin sid call =>
    simp only [Config.step] at hs
    split at hs
    · cases hs
    · cases hs
      exact coherent_begin hsn hch sid call
  | statement sid =>
    obtain ⟨session, hg, hse⟩ := Option.bind_eq_some_iff.mp hs
    exact coherent_statement hch hg hse
  | commit sid =>
    obtain ⟨session, hg, hcm⟩ := Option.bind_eq_some_iff.mp hs
    split at hcm
    · cases hcm
      exact coherent_commit hch hg (hc config sid session hg ha hch.good (hch.own sid session hg))
    · cases hcm
  | rollback sid =>
    obtain ⟨session, _, hn⟩ := Option.map_eq_some_iff.mp hs
    cases hn
    exact coherent_remove hch sid

/-- The rule of the logic: sound programs, good commits, and a good start give
coherent configurations in every run. -/
theorem Protocol.coherent_of_reach (hsn : P.Sound) (hc : P.CommitsGood allowed) (hgd : P.Good s)
    (hu : ∀ id, n ≤ id → P.Unused s id)
    (hr : Transition.Reach (Config.step S) allowed ⟨s, n, ∅⟩ config) :
    P.Coherent config := by
  apply hr.invariant
  · exact
      { good := hgd
        unused := hu
        minted := fun _ _ hg => by cases hg
        disjoint := fun _ _ _ _ hg => by cases hg
        own := fun _ _ hg => by cases hg
        sound := fun _ _ hg => by cases hg }
  · exact fun config action next hch ha hs =>
      Protocol.coherent_step hsn hc hch ha hs

/-- What every session may rely on is true of the committed states along a run. -/
theorem Protocol.rely_of_reach (hsn : P.Sound) (hc : P.CommitsGood allowed)
    (hch : P.Coherent config)
    (hr : Transition.Reach (Config.step S) allowed config later) :
    P.Coherent later ∧ P.Rely {} config.committed later.committed := by
  apply hr.invariant
  · exact ⟨hch, P.rely_refl _ _⟩
  · rintro mid action next ⟨hm, hrl⟩ ha hs
    refine ⟨Protocol.coherent_step hsn hc hm ha hs, P.rely_trans hrl ?_⟩
    rcases Config.committed_of_step hs with he | ⟨sid, session, -, hg, -, he⟩
    · exact he ▸ P.rely_refl _ _
    · rw [he]
      exact P.rely_commit hm.good (hm.own sid session hg) (P.own_begin hm.good) ⟨nofun, nofun⟩

end ReadCommitted
