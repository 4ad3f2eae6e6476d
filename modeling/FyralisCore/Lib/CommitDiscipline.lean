import FyralisCore.Lib.ReadCommitted

/-! Sessions under READ COMMITTED whose obligations fall due when they commit.
What a session has not committed is invisible, so nothing is asked of it before
its program has ended; what its locks and its own identifiers protect, it may
rely on from the statement that takes them. -/
namespace ReadCommitted

open Relational Transaction

variable {σ ω ρ ε κ α β : Type}

structure Discipline (S : Schema σ ω ρ ε κ) where
  Good : σ → Prop
  /-- What a session with this trail may assume of the commits of others. -/
  Rely : Trail ω ρ → σ → σ → Prop
  /-- What a session that has run to its end has done. -/
  Final : σ → Trail ω ρ → Prop
  /-- The identifier occurs nowhere in the state. -/
  Unused : σ → Nat → Prop
  /-- What the run promises of a call when it begins. -/
  Starts : σ → κ → Prop := fun _ _ => True
  /-- What the run promises of a session when it sends a statement. -/
  Admits : σ → Trail ω ρ → Prop := fun _ _ => True
  rely_refl : ∀ trail s, Rely trail s s
  rely_trans : ∀ {trail s t u}, Rely trail s t → Rely trail t u → Rely trail s u
  final_stable : ∀ {s t trail}, Good s → Final s trail → Rely trail s t → Good t → Final t trail
  good_commit : ∀ {s trail}, Good s → Final s trail → Good (S.view s trail.writes)
  rely_commit : ∀ {s mine theirs}, Good s → Final s mine → theirs.Disjoint mine →
    Rely theirs s (S.view s mine.writes)
  unused_commit : ∀ {s trail id}, Good s → Final s trail → Unused s id → id ∉ trail.minted →
    Unused (S.view s trail.writes) id

variable {S : Schema σ ω ρ ε κ} (D : Discipline S)

namespace Discipline

/-- The weakest condition under which a session that still has `body` to run
ends in `Q`, whatever the others commit between its statements. -/
def wp (Q : α → σ → Trail ω ρ → Prop) : Tx σ ω ρ ε α → σ → Trail ω ρ → Prop
  | .done value, s, trail => Q value s trail
  | .raise _, _, _ => True
  | .statement lock writes next, s, trail => ∀ t, D.Rely trail s t → D.Good t →
      D.Admits t trail →
      let seen := S.view t trail.writes
      wp Q (next seen) t (trail.extend (lock seen) (writes seen))
  | .mint next, s, trail => ∀ t id, D.Rely trail s t → D.Good t → D.Unused t id →
      id ∉ trail.minted → wp Q (next id) t (trail.mint id)

/-- Every call ends with `Final`. -/
def Sound : Prop :=
  ∀ call s, D.Good s → D.Starts s call → D.wp (fun _ => D.Final) (S.program call) s {}

variable {D}

section

variable {Q : α → σ → Trail ω ρ → Prop} {s : σ} {trail : Trail ω ρ}

theorem wp_bind {Q : β → σ → Trail ω ρ → Prop} :
    D.wp Q (first.bind rest) s trail ↔ D.wp (fun v => D.wp Q (rest v)) first s trail := by
  induction first generalizing s trail with
  | done v => rfl
  | raise error => rfl
  | statement lock writes next ih => simp [Tx.bind, wp, ih]
  | mint next ih => simp [Tx.bind, wp, ih]

theorem wp_mono (hw : D.wp Q body s trail) (hi : ∀ v t u, Q v t u → R v t u) :
    D.wp R body s trail := by
  induction body generalizing s trail with
  | done v => exact hi _ _ _ hw
  | raise error => trivial
  | statement lock writes next ih =>
    intro t hr hg ha
    exact ih _ (hw t hr hg ha)
  | mint next ih =>
    intro t id hr hg hu hm
    exact ih _ (hw t id hr hg hu hm)

theorem wp_seq {Q : β → σ → Trail ω ρ → Prop} (h1 : D.wp R first s trail)
    (ht : ∀ v t u, R v t u → D.wp Q (rest v) t u) :
    D.wp Q (first.bind rest) s trail :=
  wp_bind.mpr (wp_mono h1 ht)

theorem wp_query (ha : ∀ t, D.Rely trail s t → D.Good t → D.Admits t trail →
      ∀ writes v, answer (S.view t trail.writes) = .ok (writes, v) →
        Q v t (trail.extend (lock (S.view t trail.writes)) writes)) :
    D.wp Q (Tx.query lock answer) s trail := by
  intro t hr hg had
  dsimp only
  cases hc : answer (S.view t trail.writes) with
  | ok r =>
    obtain ⟨writes, v⟩ := r
    exact ha t hr hg had writes v hc
  | error error => trivial

theorem wp_read (ha : ∀ t, D.Rely trail s t → D.Good t → D.Admits t trail →
      Q (answer (S.view t trail.writes)) t trail) : D.wp Q (Tx.read answer) s trail := by
  refine wp_query fun t hr hg had writes v hc => ?_
  cases hc
  rw [Trail.extend_nothing]
  exact ha t hr hg had

theorem wp_readLocking (ha : ∀ t, D.Rely trail s t → D.Good t → D.Admits t trail →
      Q (answer (S.view t trail.writes)) t (trail.extend (lock (S.view t trail.writes)) [])) :
    D.wp Q (Tx.readLocking lock answer) s trail := by
  refine wp_query fun t hr hg had writes v hc => ?_
  cases hc
  exact ha t hr hg had

theorem wp_newId {Q : Nat → σ → Trail ω ρ → Prop}
    (hi : ∀ t id, D.Rely trail s t → D.Good t → D.Unused t id → id ∉ trail.minted →
      Q id t (trail.mint id)) : D.wp Q (Tx.newId : Tx σ ω ρ ε Nat) s trail :=
  hi

theorem wp_ensure {condition : Bool} {error : ε} {Q : Unit → σ → Trail ω ρ → Prop}
    (ht : condition → Q () s trail) : D.wp Q (Tx.ensure condition error) s trail := by
  cases condition with
  | true => exact ht rfl
  | false => trivial

theorem wp_ofExcept (ho : ∀ v, computed = .ok v → Q v s trail) :
    D.wp Q (Tx.ofExcept computed) s trail := by
  cases computed with
  | ok v => exact ho v rfl
  | error error => trivial

theorem wp_orRaise (hf : ∀ v, found = some v → Q v s trail) :
    D.wp Q (Tx.orRaise found error) s trail := by
  cases found with
  | some v => exact hf v rfl
  | none => trivial

theorem wp_when
    {Q : Unit → σ → Trail ω ρ → Prop} (hb : condition = true → D.wp Q body s trail)
    (hs : condition = false → Q () s trail) : D.wp Q (Tx.when condition body) s trail := by
  cases condition with
  | true => exact hb rfl
  | false => exact hs rfl

theorem wp_forEach {I : σ → Trail ω ρ → Prop} (hs : I s trail)
    (hb : ∀ item ∈ items, ∀ t u, I t u → D.wp (fun _ => I) (body item) t u) :
    D.wp (fun _ => I) (Tx.forEach items body) s trail := by
  induction items generalizing s trail with
  | nil => exact hs
  | cons item rest ih =>
    rw [Tx.forEach, wp_bind]
    apply wp_mono (hb item (.head _) s trail hs)
    intro _ t u hk
    exact ih hk fun other ho => hb other (.tail _ ho)

end

/-- What holds of every reachable configuration. A session may be behind: what
is known about it was established at an earlier committed state. -/
structure Coherent (D : Discipline S) (config : Config σ ω ρ ε) : Prop where
  good : D.Good config.committed
  unused : ∀ id, config.supply ≤ id → D.Unused config.committed id
  minted : ∀ sid session, config.sessions.get sid = some session →
    ∀ id ∈ session.trail.minted, id < config.supply
  disjoint : ∀ sid other session rival, config.sessions.get sid = some session →
    config.sessions.get other = some rival → sid ≠ other →
    session.trail.Disjoint rival.trail
  sound : ∀ sid session, config.sessions.get sid = some session →
    ∃ s, D.Good s ∧ D.Rely session.trail s config.committed ∧
      D.wp (fun _ => D.Final) session.rest s session.trail

def Admitted (D : Discipline S) (config : Config σ ω ρ ε) : Action κ → Prop
  | .begin _ call => D.Starts config.committed call
  | .statement sid => ∀ session, config.sessions.get sid = some session →
      D.Admits config.committed session.trail
  | .commit _ => True
  | .rollback _ => True

variable {config : Config σ ω ρ ε} {sid : Nat} {session : Session σ ω ρ ε}

theorem Coherent.apart (hc : D.Coherent config) : config.Apart :=
  ⟨hc.minted, hc.disjoint⟩

private theorem discipline_put (hc : D.Coherent config) (hs : config.supply ≤ supply)
    (ha : Config.Apart { config with supply, sessions := config.sessions.put sid session })
    (hsd : D.wp (fun _ => D.Final) session.rest config.committed session.trail) :
    D.Coherent { config with supply, sessions := config.sessions.put sid session } where
  good := hc.good
  unused := fun id hi => hc.unused id (Nat.le_trans hs hi)
  minted := ha.minted
  disjoint := ha.disjoint
  sound := by
    intro other rival hg
    rw [Table.get_put] at hg
    split at hg
    · cases hg
      exact ⟨config.committed, hc.good, D.rely_refl _ _, hsd⟩
    · exact hc.sound other rival hg

private theorem discipline_rollback (hc : D.Coherent config)
    (sid : Nat) : D.Coherent { config with sessions := config.sessions.remove sid } where
  good := hc.good
  unused := hc.unused
  minted := (hc.apart.remove config.committed sid).minted
  disjoint := (hc.apart.remove config.committed sid).disjoint
  sound := fun other rival hg => hc.sound other rival (Config.of_get_remove hg).2

theorem Coherent.final (hc : D.Coherent config) (hg : config.sessions.get sid = some session)
    (hd : session.rest = .done ()) : D.Final config.committed session.trail := by
  obtain ⟨s, hgd, hr, hw⟩ := hc.sound sid session hg
  rw [hd] at hw
  exact D.final_stable hgd hw hr hc.good

private theorem discipline_commit (hc : D.Coherent config)
    (hg : config.sessions.get sid = some session) (hd : session.rest = .done ()) :
    D.Coherent { config with
      committed := S.view config.committed session.trail.writes
      sessions := config.sessions.remove sid } := by
  have hf := hc.final hg hd
  have ha := hc.apart.remove (S.view config.committed session.trail.writes) sid
  exact
    { good := D.good_commit hc.good hf
      unused := fun id hi => D.unused_commit hc.good hf (hc.unused id hi)
        fun hm => absurd (hc.minted sid session hg id hm) (Nat.not_lt.mpr hi)
      minted := ha.minted
      disjoint := ha.disjoint
      sound := by
        intro other rival ho
        obtain ⟨hn, hr⟩ := Config.of_get_remove ho
        obtain ⟨s, hgd, hp, hw⟩ := hc.sound other rival hr
        have hds := hc.disjoint other sid rival session hr hg hn
        exact ⟨s, hgd, D.rely_trans hp (D.rely_commit hc.good hf hds), hw⟩ }

section

variable [DecidableEq ρ]

variable {config : Config σ ω ρ ε}

private theorem discipline_statement (hc : D.Coherent config)
    (hg : config.sessions.get sid = some session) (had : D.Admits config.committed session.trail)
    (hs : config.sendStatement S sid session = some next) : D.Coherent next := by
  obtain ⟨s, -, hr, hw⟩ := hc.sound sid session hg
  have ha := hc.apart.statement hg hs
  rcases Config.sendStatement_cases hs with
    ⟨lock, writes, rest, ht, -, rfl⟩ | ⟨rest, ht, rfl⟩
  · rw [ht] at hw
    exact discipline_put hc (Nat.le_refl config.supply) ha (hw config.committed hr hc.good had)
  · rw [ht] at hw
    exact discipline_put hc (Nat.le_succ config.supply) ha
      (hw config.committed config.supply hr hc.good
        (hc.unused _ (Nat.le_refl _)) (hc.apart.fresh hg))

theorem coherent_step (hsd : D.Sound) (hc : D.Coherent config) (ha : D.Admitted config action)
    (hs : config.step S action = some next) : D.Coherent next := by
  cases action with
  | begin sid call =>
    simp only [Config.step] at hs
    split at hs
    · cases hs
    · cases hs
      exact discipline_put hc (Nat.le_refl config.supply) (hc.apart.begin sid _ _)
        (hsd call config.committed hc.good ha)
  | statement sid =>
    obtain ⟨session, hg, hsn⟩ := Option.bind_eq_some_iff.mp hs
    exact discipline_statement hc hg (ha session hg) hsn
  | commit sid =>
    obtain ⟨session, hg, hcm⟩ := Option.bind_eq_some_iff.mp hs
    split at hcm
    · next hd =>
      cases hcm
      exact discipline_commit hc hg hd
    · cases hcm
  | rollback sid =>
    obtain ⟨session, -, hn⟩ := Option.map_eq_some_iff.mp hs
    cases hn
    exact discipline_rollback hc sid

/-- The rule of the logic: sound programs and a good start give coherent
configurations in every run that keeps its promises. -/
theorem coherent_of_reach (hsd : D.Sound)
    (ha : ∀ config action, allowed config action → D.Admitted config action)
    (hgd : D.Good s) (hu : ∀ id, n ≤ id → D.Unused s id)
    (hr : Transition.Reach (Config.step S) allowed ⟨s, n, ∅⟩ config) :
    D.Coherent config := by
  apply hr.invariant
  · exact
      { good := hgd
        unused := hu
        minted := fun _ _ hg => by cases hg
        disjoint := fun _ _ _ _ hg => by cases hg
        sound := fun _ _ hg => by cases hg }
  · exact fun config action next hc hst hs =>
      coherent_step hsd hc (ha config action hst) hs

end

end Discipline

end ReadCommitted

/-! The least rely: a session may assume of the others exactly that they commit
what well-ended sessions commit that hold nothing of its. An assertion is
stable as soon as one such commit keeps it, and no relation between distant
states has to be written down. -/
namespace ReadCommitted

open Relational Transaction

variable {σ ω ρ ε κ : Type} {S : Schema σ ω ρ ε κ}

def Stable (S : Schema σ ω ρ ε κ) (Good : σ → Prop) (Final : σ → Trail ω ρ → Prop)
    (P : σ → Trail ω ρ → Prop) : Prop :=
  ∀ s mine theirs, Good s → Final s mine → theirs.Disjoint mine → P s theirs →
    P (S.view s mine.writes) theirs

structure CommitRules (S : Schema σ ω ρ ε κ) where
  Good : σ → Prop
  Final : σ → Trail ω ρ → Prop
  Unused : σ → Nat → Prop
  Starts : σ → κ → Prop := fun _ _ => True
  Admits : σ → Trail ω ρ → Prop := fun _ _ => True
  stable : Stable S Good Final Final
  good_commit : ∀ {s trail}, Good s → Final s trail → Good (S.view s trail.writes)
  unused_commit : ∀ {s trail id}, Good s → Final s trail → Unused s id → id ∉ trail.minted →
    Unused (S.view s trail.writes) id

namespace CommitRules

variable (R : CommitRules S)

def Interferes (trail : Trail ω ρ) (s t : σ) : Prop :=
  R.Good s ∧ ∃ mine, R.Final s mine ∧ trail.Disjoint mine ∧ t = S.view s mine.writes

abbrev Rely (trail : Trail ω ρ) : σ → σ → Prop :=
  Relation.ReflTransGen (R.Interferes trail)

abbrev Kept (P : σ → Trail ω ρ → Prop) : Prop :=
  Stable S R.Good R.Final P

variable {R} {P Q : σ → Trail ω ρ → Prop} {s t : σ} {trail : Trail ω ρ}

theorem Rely.keeps (hr : R.Rely trail s t) (hsb : R.Kept P) (hP : P s trail) : P t trail := by
  induction hr with
  | refl => exact hP
  | tail _ hs ih =>
    obtain ⟨hg, mine, hf, hd, rfl⟩ := hs
    exact hsb _ mine trail hg hf hd ih

theorem Rely.weaken (hrl : R.Rely u s t)
    (hl : trail.locks ⊆ u.locks) (hm : trail.minted ⊆ u.minted) : R.Rely trail s t := by
  induction hrl with
  | refl => exact .refl
  | tail _ hs ih =>
    obtain ⟨hg, mine, hf, hd, rfl⟩ := hs
    exact ih.tail ⟨hg, mine, hf, ⟨fun row hr => hd.1 row (hl hr),
      fun id hi => hd.2 id (hm hi)⟩, rfl⟩

variable (R) in
def discipline : Discipline S where
  Good := R.Good
  Rely := R.Rely
  Final := R.Final
  Unused := R.Unused
  Starts := R.Starts
  Admits := R.Admits
  rely_refl _ _ := .refl
  rely_trans := .trans
  final_stable _ hfinal hrely _ := Rely.keeps hrely R.stable hfinal
  good_commit := R.good_commit
  rely_commit hgood hmine hdisjoint := .single ⟨hgood, _, hmine, hdisjoint, rfl⟩
  unused_commit := R.unused_commit

end CommitRules

end ReadCommitted
