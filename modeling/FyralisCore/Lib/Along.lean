import FyralisCore.Lib.CommitDiscipline
import FyralisCore.Lib.Raises
import FyralisCore.Lib.TotalCorrectness

/-! The rules of a discipline for transactions whose error the caller looks at.
The result of an attempt is a value, so what holds where an error was raised can
be stated like what holds where the body returned. -/
namespace ReadCommitted

open Relational Transaction Discipline

variable {σ ω ρ ε κ α β : Type} {S : Schema σ ω ρ ε κ} {D : Discipline S} {s : σ}
  {trail : Trail ω ρ}

def Discipline.wpAttempt (D : Discipline S) (Q : Except ε β → σ → Trail ω ρ → Prop)
    (rest : α → Tx σ ω ρ ε β) : Except ε α → σ → Trail ω ρ → Prop
  | .ok value => D.wp Q (rest value).attempt
  | .error error => Q (.error error)

section

variable {first : Tx σ ω ρ ε α} {Q : Except ε β → σ → Trail ω ρ → Prop}

theorem Discipline.wp_attempt_bind : D.wp Q (first.bind rest).attempt s trail ↔ D.wp
    (D.wpAttempt Q rest) first.attempt s trail := by
  induction first generalizing s trail with
  | done v => rfl
  | raise error => rfl
  | statement lock ws next ih => simp [Tx.bind, Tx.attempt, Discipline.wp, ih]
  | mint next ih => simp [Tx.bind, Tx.attempt, Discipline.wp, ih]

theorem Discipline.wp_attempt_seq {R : Except ε α → σ → Trail ω ρ → Prop}
    (h1 : D.wp R first.attempt s trail) (ht : ∀ v t u, R (.ok v) t u → D.wp Q (rest v).attempt t u)
    (he : ∀ error t u, R (.error error) t u → Q (.error error) t u) : D.wp Q
    (first.bind rest).attempt s trail := by
  refine wp_attempt_bind.mpr (wp_mono h1 ?_)
  intro r t u hr
  cases r with
  | ok v => exact ht v t u hr
  | error error => exact he error t u hr

end

theorem Discipline.wp_attempt_query {lock : σ → Option ρ} {answer : σ → Except ε (List ω × α)}
    (ho : ∀ t, D.Rely trail s t → D.Good t → D.Admits t trail →
      ∀ ws v, answer (S.view t trail.writes) = .ok (ws, v) →
        Q (.ok v) t (trail.extend (lock (S.view t trail.writes)) ws))
    (he : ∀ t, D.Rely trail s t → D.Good t →
      ∀ error, answer (S.view t trail.writes) = .error error →
        Q (.error error) t (trail.extend (lock (S.view t trail.writes)) [])) :
    D.wp Q (Tx.query lock answer).attempt s trail := by
  intro t hr hg ha
  dsimp only
  cases hc : answer (S.view t trail.writes) with
  | ok r =>
    obtain ⟨ws, v⟩ := r
    exact ho t hr hg ha ws v hc
  | error error => exact he t hr hg error hc

theorem Discipline.wp_attempt_ofExcept (hc : Q computed s trail) :
    D.wp Q (Tx.ofExcept computed).attempt s trail := by
  cases computed with
  | ok v => exact hc
  | error error => exact hc

theorem Discipline.wp_frame {body : Tx σ ω ρ ε α} {Q : α → σ → Trail ω ρ → Prop} {P : σ → Prop}
    (hs : ∀ {trail s t}, D.Rely trail s t → P s → P t) (hk : P s)
    (hw : D.wp Q body s trail) :
    D.wp (fun v t u => P t ∧ Q v t u) body s trail := by
  induction body generalizing s trail with
  | done v => exact ⟨hk, hw⟩
  | raise error => trivial
  | statement lock ws next ih =>
    intro t hr hg ha
    exact ih _ (hs hr hk) (hw t hr hg ha)
  | mint next ih =>
    intro t id hr hg hu hm
    exact ih _ (hs hr hk) (hw t id hr hg hu hm)

theorem Discipline.wp_of_attempt
    {R : Except ε α → σ → Trail ω ρ → Prop} (ha : D.wp R body.attempt s trail)
    (ho : ∀ v t u, R (.ok v) t u → Q v t u) : D.wp Q body s trail := by
  induction body generalizing s trail with
  | done v => exact ho v s trail ha
  | raise error => trivial
  | statement lock ws next ih =>
    intro t hr hg had
    exact ih _ (ha t hr hg had)
  | mint next ih =>
    intro t id hr hg hu hm
    exact ih _ (ha t id hr hg hu hm)

end ReadCommitted

/-! What holds all along a run of a transaction alone, and what every value that a
transaction returns satisfies. A run that raises is a run too: the statements it made
count. -/
namespace Transaction.Tx

variable {σ ω ρ ε α β γ : Type}

section

variable (apply : σ → ω → σ)

/-- Each statement of the run makes writes that are allowed in the state it runs in. -/
def Along (allows : σ → List ω → Prop) : Tx σ ω ρ ε α → σ → Nat → Prop
  | .done _, _, _ => True
  | .raise _, _, _ => True
  | .statement _ writes next, state, supply =>
    allows state (writes state) ∧
      (next state).Along allows ((writes state).foldl apply state) supply
  | .mint next, state, supply => (next supply).Along allows state (supply + 1)

def written : Tx σ ω ρ ε α → σ → Nat → List ω
  | .done _, _, _ => []
  | .raise _, _, _ => []
  | .statement _ writes next, state, supply =>
    writes state ++ (next state).written ((writes state).foldl apply state) supply
  | .mint next, state, supply => (next supply).written state (supply + 1)

def EachValue (ok : α → Prop) (body : Tx σ ω ρ ε α) : Prop :=
  ∀ state supply value after left, Returns apply body state supply value after left → ok value

end

variable {apply : σ → ω → σ} {allows : σ → List ω → Prop} {state : σ} {supply : Nat}

variable {body : Tx σ ω ρ ε α}

theorem Along.mono (hb : body.Along apply allows state supply)
    (hi : ∀ state ws, allows state ws → other state ws) :
    body.Along apply other state supply := by
  induction body generalizing state supply with
  | done v => trivial
  | raise error => trivial
  | statement lock ws next ih => exact ⟨hi state _ hb.1, ih _ hb.2⟩
  | mint next ih => exact ih _ hb

theorem Along.bind {first : Tx σ ω ρ ε α} {rest : α → Tx σ ω ρ ε β}
    (h1 : first.Along apply allows state supply)
    (ht : ∀ v t left, Returns apply first state supply v t left →
      (rest v).Along apply allows t left) :
    (first.bind rest).Along apply allows state supply := by
  induction first generalizing state supply with
  | done v => exact ht v state supply rfl
  | raise error => trivial
  | statement lock ws next ih => exact ⟨h1.1, ih _ h1.2 ht⟩
  | mint next ih => exact ih _ h1 ht

theorem along_query {lock : σ → Option ρ} {answer : σ → Except ε (List ω × α)}
    (ho : ∀ ws v, answer state = .ok (ws, v) → allows state ws)
    (he : ∀ error, answer state = .error error → allows state []) :
    (query lock answer).Along apply allows state supply := by
  simp only [query, Along]
  cases ha : answer state with
  | error error => exact ⟨he error ha, trivial⟩
  | ok r => exact ⟨ho r.1 r.2 ha, trivial⟩

theorem along_bind_of_reads {first : Tx σ ω ρ ε α} {rest : α → Tx σ ω ρ ε β}
    (hrd : first.EachStatement fun _ _ ws => ws = []) (ha : ∀ state, allows state [])
    (ht : ∀ v left, Returns apply first state supply v state left →
      (rest v).Along apply allows state left) :
    (first.bind rest).Along apply allows state supply := by
  induction first generalizing state supply with
  | done v => exact ht v supply rfl
  | raise error => trivial
  | statement lock ws next ih =>
    obtain ⟨hn, hnx⟩ := hrd state
    simp only [Tx.bind, Along, hn, List.foldl_nil]
    refine ⟨ha state, ih state hnx fun v left hr => ht v left ?_⟩
    unfold Returns at hr ⊢
    simpa only [exec, hn, List.foldl_nil] using hr
  | mint next ih => exact ih supply (hrd supply) ht

theorem Along.rescue (hb : body.Along apply allows state supply)
    (hh : ∀ error recovery, handler error = some recovery → ∀ state supply,
      recovery.Along apply allows state supply) :
    (body.rescue handler).Along apply allows state supply := by
  induction body generalizing state supply with
  | done v => trivial
  | raise error =>
    rw [Tx.rescue]
    cases hr : handler error with
    | none => trivial
    | some recovery => exact hh error recovery hr state supply
  | statement lock ws next ih => exact ⟨hb.1, ih _ hb.2⟩
  | mint next ih => exact ih _ hb

theorem EachStatement.along (hb : body.EachStatement fun state _ ws => allows state ws)
    (state : σ) (supply : Nat) : body.Along apply allows state supply := by
  induction body generalizing state supply with
  | done v => trivial
  | raise error => trivial
  | statement lock ws next ih => exact ⟨(hb state).1, ih state (hb state).2 _ supply⟩
  | mint next ih => exact ih supply (hb supply) state (supply + 1)

theorem EachStatement.mapEach
    {body : β → Tx σ ω ρ ε γ} (hb : ∀ item, (body item).EachStatement ok) :
    (mapEach items body).EachStatement ok := by
  induction items with
  | nil => trivial
  | cons item rest ih => exact (hb item).bind fun _ => ih.bind fun _ => trivial

theorem along_mapEach {items : List β} {body : β → Tx σ ω ρ ε γ} (I : List β → σ → Prop)
    (hs0 : I items state) (hs : ∀ item rest state supply, I (item :: rest) state →
      (body item).Along apply allows state supply ∧ ∀ v t left,
        Returns apply (body item) state supply v t left → I rest t) :
    (mapEach items body).Along apply allows state supply := by
  induction items generalizing state supply with
  | nil => trivial
  | cons item rest ih =>
    obtain ⟨hb, hk⟩ := hs item rest state supply hs0
    refine hb.bind fun v t left hr => ?_
    exact (ih (hk v t left hr)).bind fun _ _ _ _ => trivial

theorem Along.relates [IsPreorder σ relation] (hb : body.Along apply allows state supply)
    (hs : ∀ state ws, allows state ws → relation state (ws.foldl apply state)) :
    relation state (body.exec apply state supply).state := by
  induction body generalizing state supply with
  | done v => exact refl_of relation state
  | raise error => exact refl_of relation state
  | statement lock ws next ih =>
    exact trans_of relation (hs state _ hb.1) (ih _ hb.2)
  | mint next ih => exact ih _ hb

/-- The writes of a kind that each statement pays for out of a potential are no more than
the potential at the start. -/
theorem Along.countP_written_le {counted : ω → Bool} {potential : σ → Nat}
    (hb : body.Along apply allows state supply) (hp : ∀ state ws, allows state ws →
      ws.countP counted + potential (ws.foldl apply state) ≤ potential state) :
    (body.written apply state supply).countP counted ≤ potential state := by
  induction body generalizing state supply with
  | done v => exact Nat.zero_le _
  | raise error => exact Nat.zero_le _
  | statement lock ws next ih =>
    have h1 := hp state (ws state) hb.1
    have ht := ih state hb.2
    rw [written, List.countP_append]
    omega
  | mint next ih => exact ih _ hb

theorem Ends.holds (he : Ends apply body state supply R E)
    (hr : Returns apply body state supply v t left) : R v t left := by
  unfold Ends at he
  rwa [hr] at he

theorem returns_rescue (hrt : Returns apply (body.rescue handler) state supply v t left) :
    Returns apply body state supply v t left ∨
      ∃ error recovery, handler error = some recovery ∧ ∃ m rest,
        Returns apply recovery m rest v t left := by
  induction body generalizing state supply with
  | done r => exact .inl hrt
  | raise error =>
    rw [Tx.rescue] at hrt
    cases hr : handler error with
    | none =>
      rw [hr] at hrt
      exact absurd hrt returns_raise
    | some recovery =>
      rw [hr] at hrt
      exact .inr ⟨error, recovery, hr, state, supply, hrt⟩
  | statement lock ws next ih => exact ih _ hrt
  | mint next ih => exact ih _ hrt

section

variable {ok : α → Prop} {body : Tx σ ω ρ ε α}

theorem EachValue.done (ho : ok v) : EachValue apply ok (done v : Tx σ ω ρ ε α) := by
  intro state supply r t left hr
  rwa [← (returns_done.mp hr).1]

theorem EachValue.mono (hb : EachValue apply ok body)
    (hi : ∀ v, ok v → other v) : EachValue apply other body :=
  fun _ _ v _ _ hr => hi v (hb _ _ v _ _ hr)

theorem EachValue.bind (ht : ∀ v, EachValue apply okRest (rest v)) :
    EachValue apply okRest (body.bind rest) := by
  intro state supply r t left hr
  obtain ⟨v, m, k, -, hl⟩ := returns_bind.mp hr
  exact ht v m k r t left hl

theorem EachValue.seq (hb : EachValue apply ok body)
    (ht : ∀ v, ok v → EachValue apply okRest (rest v)) :
    EachValue apply okRest (body.bind rest) := by
  intro state supply r t left hr
  obtain ⟨v, m, k, h1, hl⟩ := returns_bind.mp hr
  exact ht v (hb _ _ v _ _ h1) m k r t left hl

theorem EachValue.rescue (hb : EachValue apply ok body)
    (hh : ∀ error recovery, handler error = some recovery → EachValue apply ok recovery) :
    EachValue apply ok (body.rescue handler) := by
  intro state supply v t left hrt
  rcases returns_rescue hrt with hv | ⟨error, recovery, hr, m, rest, hv⟩
  · exact hb _ _ v _ _ hv
  · exact hh error recovery hr m rest v t left hv

theorem Ends.value (he : Ends apply body state supply R E) (hv : EachValue apply ok body) :
    Ends apply body state supply (fun v t left => R v t left ∧ ok v) E := by
  unfold Ends at he ⊢
  split at he
  · next v t left hx => exact ⟨he, hv _ _ _ _ _ hx⟩
  · exact he

theorem EachValue.mapEach (he : ∀ item, EachValue apply okItem (each item)) :
    EachValue apply (fun values => ∀ v ∈ values, okItem v) (mapEach items each) := by
  induction items with
  | nil => exact .done fun _ hm => absurd hm List.not_mem_nil
  | cons item rest ih =>
    refine (he item).seq fun v hvl => ih.seq fun values hv => .done ?_
    exact List.forall_mem_cons.mpr ⟨hvl, hv⟩

end

end Transaction.Tx
