import FyralisCore.Ingestion.Cutover

/-! An event that the router has published and answered is not written inline,
so a writer that takes it in shadow mode drops it. None is dropped in the runs
in which the writer has last seen the tenant's flag on. -/
namespace FyralisCore.Ingestion

open Transition List Option Function

variable {Tenant Process : Type} {config : CutoverConfig Process}
  {state after : CutoverState Process Tenant} {message : StreamMessage Tenant}
  {outcome : WriterOutcome}

def WriterOutcome.Kept (outcome : WriterOutcome) : Prop :=
  outcome = .written ∨ outcome = .deadLettered

/-- Every event answered with 202 is kept whenever the writer consumes it. -/
def NeverDropped (state : CutoverState Process Tenant) : Prop :=
  ∀ message outcome, (message, outcome) ∈ state.consumed → ∀ event, message.event = some event →
    state.routing event = .accepted → outcome.Kept

def CutoverState.OnKafkaPath (state : CutoverState Process Tenant)
    (message : StreamMessage Tenant) : Prop :=
  ∃ event, message.event = some event ∧ (state.routing event).onKafkaPath

def CutoverState.SeenOn (config : CutoverConfig Process) (state : CutoverState Process Tenant)
    (process : Process) (tenant : Tenant) : Prop :=
  ∀ row, (state.readers process).seen tenant = some row → row.getD config.pathDefault

def CutoverState.Waits (state : CutoverState Process Tenant) (caller : FlagCaller Tenant) : Prop :=
  ∃ offset message, caller = .write offset ∧ state.normalized[offset]? = some message ∧
    state.OnKafkaPath message

/-- The writer is wired, answers out of a SELECT that found the flag on, or on a
failed one has the default on, and its DLQ envelopes arrive. -/
def FlagStands (config : CutoverConfig Process) (state : CutoverState Process Tenant) :
    CutoverAction Process Tenant → Prop
  | .flag process (.lookUp tenant caller) => state.Waits caller → state.SeenOn config process tenant
  | .flag process .endRead => ∀ read, (state.readers process).reading = some read →
      state.Waits read.caller → state.SeenOn config process read.tenant
  | .flag process .readFails => ∀ read, (state.readers process).reading = some read →
      state.Waits read.caller → config.pathDefault
  | .take process offset => state.Waits (.write offset) →
      (config.writer process).pool ∧ (config.writer process).tenantFlags
  | .write _ offset run => state.Waits (.write offset) → run.dlqReaches
  | .giveUp _ offset _ dlqReaches => state.Waits (.write offset) → dlqReaches
  | .parseFails offset dlqReaches => state.Waits (.write offset) → dlqReaches
  | _ => True

def CutoverState.Carries (state : CutoverState Process Tenant) (message : StreamMessage Tenant) :
    Prop :=
  message ∈ state.queue ∨ message ∈ state.raw ∨ message ∈ state.normalized ∨
    ∃ outcome, (message, outcome) ∈ state.consumed

def Routing.Decided (routing : Routing) : Prop :=
  routing ≠ .unseen ∧ routing ≠ .received

structure Safe (state : CutoverState Process Tenant) : Prop where
  kept : ∀ message outcome, (message, outcome) ∈ state.consumed → state.OnKafkaPath message →
    outcome.Kept
  decided : ∀ message event, state.Carries message → message.event = some event →
    (state.routing event).Decided

section

variable (hs : Safe state)

include hs

theorem Safe.neverDropped : NeverDropped state := by
  intro message outcome hc event he ha
  exact hs.kept message outcome hc ⟨event, he, by rw [ha]; rfl⟩

/-- A step that consumes nothing moves an event to the Kafka path only from the
router's decision, where it has no message yet. -/
theorem Safe.mono (hc : after.consumed = state.consumed) (hrt : ∀ event,
    (after.routing event).onKafkaPath → (state.routing event).onKafkaPath ∨ state.routing event =
    .received) (hd : ∀ message event, after.Carries message → message.event = some event →
    (after.routing event).Decided) : Safe after where
  kept message outcome hi hp := by
    obtain ⟨event, he, ha⟩ := hp
    rw [hc] at hi
    rcases hrt event ha with hb | hr
    · exact hs.kept message outcome hi ⟨event, he, hb⟩
    · have hps := hs.decided message event (.inr (.inr (.inr ⟨outcome, hi⟩))) he
      exact absurd hr hps.2
  decided := hd

theorem Safe.of_carries (hc : after.consumed = state.consumed) (hr : after.routing = state.routing)
    (hcr : ∀ message, after.Carries message → message.event = none ∨ state.Carries message) :
    Safe after := by
  apply hs.mono hc
  · intro event hp
    rw [hr] at hp
    exact .inl hp
  · intro message event ha he
    rw [hr]
    rcases hcr message ha with hn | hb
    · rw [hn] at he
      cases he
    · exact hs.decided message event hb he

theorem Safe.consume {offset : Nat} (hg : state.normalized[offset]? = some message)
    (hk : state.OnKafkaPath message → outcome.Kept) : Safe (state.consume message outcome) where
  kept other found hi hp := by
    rcases mem_cons.mp hi with heq | hi
    · cases heq
      exact hk hp
    · exact hs.kept other found hi hp
  decided other event hc he := by
    rcases hc with hq | hr | hn | ⟨found, hi⟩
    · exact hs.decided other event (.inl hq) he
    · exact hs.decided other event (.inr (.inl hr)) he
    · exact hs.decided other event (.inr (.inr (.inl hn))) he
    · rcases mem_cons.mp hi with heq | hi
      · cases heq
        exact hs.decided message event (.inr (.inr (.inl (mem_of_getElem? hg)))) he
      · exact hs.decided other event (.inr (.inr (.inr ⟨found, hi⟩))) he

end

section

variable [DecidableEq Tenant]

theorem Safe.route (hs : Safe state) (hp : routing.onKafkaPath → (state.routing event).onKafkaPath ∨
      state.routing event = .received) (hd : (state.routing event).Decided → routing.Decided) :
    Safe (state.route event routing) := by
  apply hs.mono
  · rfl
  · intro other ho
    by_cases he : other = event
    · subst he
      simp only [CutoverState.route, update_self] at ho
      exact hp ho
    · simp only [CutoverState.route, update_of_ne he] at ho
      exact .inl ho
  · intro message other hc ho
    have hb := hs.decided message other hc ho
    by_cases he : other = event
    · subst he
      simp only [CutoverState.route, update_self]
      exact hd hb
    · simp only [CutoverState.route, update_of_ne he]
      exact hb

theorem Safe.send (hs : Safe state) (hp : routing.onKafkaPath → (state.routing event).onKafkaPath)
    (hd : routing.Decided) : Safe
      ({ state with queue := state.queue ++ [event.message] }.route event routing) := by
  apply hs.mono
  · rfl
  · intro other ho
    by_cases he : other = event
    · subst he
      simp only [CutoverState.route, update_self] at ho
      exact .inl (hp ho)
    · simp only [CutoverState.route, update_of_ne he] at ho
      exact .inl ho
  · intro message other hc ho
    by_cases he : other = event
    · subst he
      simp only [CutoverState.route, update_self]
      exact hd
    · simp only [CutoverState.route, update_of_ne he]
      refine hs.decided message other ?_ ho
      rcases hc with hq | ht
      · rcases mem_append.mp hq with hq | hn
        · exact .inl hq
        · cases mem_singleton.mp hn
          exact absurd (Option.some.inj ho).symm he
      · exact .inr ht

end

section Runs

variable [DecidableEq Tenant] [DecidableEq Process]

def CutoverState.Coherent (config : CutoverConfig Process) (state : CutoverState Process Tenant) :
    Prop :=
  ∀ process, (state.readers process).Current config.pathDefault state.now

variable {process : Process} {reader : FlagReader Tenant (FlagCaller Tenant)}
  {move : FlagMove Tenant (FlagCaller Tenant)}

omit [DecidableEq Process] in
theorem readers_decideWith (hd : state.decideWith process answer = some after) :
    after.readers = state.readers ∧ after.now = state.now := by
  simp only [CutoverState.decideWith] at hd
  grind [CutoverState.route, CutoverState.consume]

omit [DecidableEq Tenant] in
theorem Coherent.update (hc : state.Coherent config) (process : Process)
    (hcr : reader.Current config.pathDefault state.now) (other : Process) :
    (Function.update state.readers process reader other).Current config.pathDefault state.now := by
  by_cases he : other = process
  · subst he
    rwa [update_self]
  · rw [update_of_ne he]
    exact hc other

theorem coherent_step (hc : state.Coherent config)
    (hst : cutoverStep config state action = some after) : after.Coherent config := by
  cases action with
  | elapse duration =>
    cases hst
    exact fun process => (hc process).mono (Nat.le_add_right ..)
  | flag process move =>
    obtain ⟨-, hm⟩ := ite_none_right_eq_some.mp hst
    split at hm
    · cases hm
    · next reader answer hmv =>
      have hr := Coherent.update hc process (current_move (hc process) hmv)
      split at hm
      · cases hm
        exact hr
      · obtain ⟨hrd, hn⟩ := readers_decideWith hm
        intro other
        rw [hrd, hn]
        exact hr other
  | restart process =>
    cases hst
    exact Coherent.update hc process current_initial
  | setFlag | receive | skipCutover | enqueue | deliver | refuse | accept | fallBack | ingestInline
  | shadowWrite | publishOther | normalize | take | write | retry | giveUp | parseFails =>
    have hs : after.readers = state.readers ∧ after.now = state.now := by
      simp only [cutoverStep] at hst
      grind [CutoverState.route, CutoverState.consume]
    intro other
    rw [hs.1, hs.2]
    exact hc other

theorem coherent_of_reach (hr : Reach (cutoverStep config) allowed {} state) : state.Coherent config := by
  apply hr.invariant
  · exact fun _ => current_initial
  · exact fun s action t hc _ hs => coherent_step hc hs

omit [DecidableEq Process] in
theorem not_onKafkaPath_of_answer
    (hc : state.Coherent config) (hs : FlagStands config state (.flag process move))
    (hm : (state.readers process).move config.pathDefault config.ttl state.now state.flags move =
      some (reader, some ⟨tenant, .write offset, false⟩))
    (hg : state.normalized[offset]? = some message) : ¬ state.OnKafkaPath message := by
  intro hp
  have hw : state.Waits (.write offset) := ⟨offset, message, rfl, hg, hp⟩
  rcases answer_of_move (hc process) hm with
    ⟨hf, row, hsn, hv⟩ | ⟨⟨rfl, row, hr⟩, hv⟩
  · have ho : state.SeenOn config process tenant := by
      rcases hf with rfl | ⟨rfl, found, hr⟩
      · exact hs hw
      · exact hs _ hr hw
    rw [ho row hsn] at hv
    cases hv
  · rw [hs _ hr hw] at hv
    cases hv

theorem safe_flag (hsf : Safe state) (hc : state.Coherent config)
    (hsd : FlagStands config state (.flag process move))
    (hs : cutoverStep config state (.flag process move) = some after) : Safe after := by
  obtain ⟨-, hm⟩ := ite_none_right_eq_some.mp hs
  split at hm
  · cases hm
  · next reader answer hmv =>
    have hr : Safe { state with readers := Function.update state.readers process reader } :=
      hsf.of_carries rfl rfl fun _ => Or.inr
    split at hm
    · cases hm
      exact hr
    · next answer =>
      obtain ⟨tenant, caller, v⟩ := answer
      cases caller with
      | route event =>
        obtain ⟨hrc, he⟩ := ite_none_right_eq_some.mp hm
        cases he
        exact hr.route (fun _ => .inr hrc) fun hd => absurd hrc hd.2
      | write offset =>
        obtain ⟨message, hg, he⟩ := map_eq_some_iff.mp hm
        subst he
        cases v with
        | true => exact hr.of_carries rfl rfl fun _ => Or.inr
        | false =>
          have ho : ¬ state.OnKafkaPath message := not_onKafkaPath_of_answer hc hsd hmv hg
          exact hr.consume hg fun hp => absurd hp ho

theorem kept_publishWriterDlq (hr : reaches = true) : (publishWriterDlq reaches).Kept := by
  subst hr
  exact .inr rfl

theorem kept_of_writeFullMode (hr : run.dlqReaches)
    (hw : writeFullMode run = some outcome) : outcome.Kept := by
  unfold writeFullMode attemptPartitionSelfHeal at hw
  grind [publishWriterDlq, WriterOutcome.Kept]

theorem safe_step (hsf : Safe state) (hc : state.Coherent config)
    {action : CutoverAction Process Tenant} (hsd : FlagStands config state action)
    (hs : cutoverStep config state action = some after) : Safe after := by
  cases action with
  | setFlag tenant v =>
    cases hs
    exact hsf.of_carries rfl rfl fun _ => Or.inr
  | elapse duration =>
    cases hs
    exact hsf.of_carries rfl rfl fun _ => Or.inr
  | flag process move => exact safe_flag hsf hc hsd hs
  | receive event =>
    obtain ⟨hu, he⟩ := ite_none_right_eq_some.mp hs
    cases he
    exact hsf.route (fun hp => nomatch hp) fun hd => absurd hu hd.1
  | skipCutover event =>
    obtain ⟨-, he⟩ := ite_none_right_eq_some.mp hs
    cases he
    exact hsf.route (fun hp => nomatch hp) fun _ => ⟨nofun, nofun⟩
  | enqueue event =>
    obtain ⟨ha, he⟩ := ite_none_right_eq_some.mp hs
    cases he
    exact hsf.send (fun _ => by rw [ha]; rfl) ⟨nofun, nofun⟩
  | deliver index =>
    obtain ⟨message, hg, he⟩ := map_eq_some_iff.mp hs
    subst he
    refine hsf.of_carries rfl rfl fun other hcr => .inr ?_
    have hi := mem_of_getElem? hg
    unfold CutoverState.Carries at hcr ⊢
    grind [mem_of_mem_eraseIdx]
  | refuse index =>
    obtain ⟨message, -, he⟩ := map_eq_some_iff.mp hs
    subst he
    refine hsf.of_carries rfl rfl fun other hcr => .inr ?_
    exact hcr.imp mem_of_mem_eraseIdx id
  | accept event =>
    obtain ⟨⟨ha, -⟩, he⟩ := ite_none_right_eq_some.mp hs
    cases he
    exact hsf.route (fun _ => .inl (by rw [ha]; rfl)) fun _ => ⟨nofun, nofun⟩
  | fallBack event =>
    obtain ⟨-, he⟩ := ite_none_right_eq_some.mp hs
    cases he
    exact hsf.route (fun hp => nomatch hp) fun _ => ⟨nofun, nofun⟩
  | ingestInline event succeeds =>
    simp only [cutoverStep] at hs
    split at hs
    · cases hs
      cases succeeds
      · exact hsf.route (fun hp => nomatch hp) fun _ => ⟨nofun, nofun⟩
      · exact hsf.route (fun hp => nomatch hp) fun _ => ⟨nofun, nofun⟩
    · cases hs
  | shadowWrite event =>
    obtain ⟨-, he⟩ := ite_none_right_eq_some.mp hs
    cases he
    exact hsf.send (fun hp => nomatch hp) ⟨nofun, nofun⟩
  | publishOther tenant ingressKind =>
    cases hs
    refine hsf.of_carries rfl rfl fun other hcr => ?_
    unfold CutoverState.Carries at hcr ⊢
    grind
  | normalize index =>
    obtain ⟨message, hg, he⟩ := map_eq_some_iff.mp hs
    subst he
    refine hsf.of_carries rfl rfl fun other hcr => .inr ?_
    unfold CutoverState.Carries at hcr ⊢
    grind
  | take process offset =>
    simp only [cutoverStep] at hs
    split at hs
    · cases hs
    · next message hg =>
      split at hs
      · cases hs
      · cases hs
        exact hsf.of_carries rfl rfl fun _ => Or.inr
      · next hsh =>
        cases hs
        refine hsf.consume hg fun hp => ?_
        obtain ⟨hpl, hf⟩ := hsd ⟨offset, message, rfl, hg, hp⟩
        rw [WriterConfig.fullMode, if_pos hpl, if_pos hf] at hsh
        split at hsh <;> cases hsh
  | write process offset run =>
    obtain ⟨-, hr⟩ := ite_none_right_eq_some.mp hs
    split at hr
    · cases hr
    · next message hg =>
      split at hr
      · cases hr
        exact hsf.of_carries rfl rfl fun _ => Or.inr
      · next outcome hw =>
        cases hr
        have hl : Safe { state with writing := state.writing.erase (process, offset) } :=
          hsf.of_carries rfl rfl fun _ => Or.inr
        refine hl.consume hg fun hp => ?_
        exact kept_of_writeFullMode (hsd ⟨offset, message, rfl, hg, hp⟩) hw
  | retry process offset =>
    obtain ⟨-, he⟩ := ite_none_right_eq_some.mp hs
    cases he
    exact hsf.of_carries rfl rfl fun _ => Or.inr
  | giveUp process offset counted dlqReaches =>
    simp only [cutoverStep] at hs
    split at hs
    · split at hs
      · cases hs
      · next message hg =>
        by_cases hps : 0 < config.poisonMaxDurableAttempts ∧ config.poisonMaxDurableAttempts ≤
            if counted then state.poisonAttempts offset + 1 else 0
        · rw [if_pos hps] at hs
          cases hs
          have hl : Safe { state with
                raised := state.raised.erase (process, offset)
                poisonAttempts := Function.update state.poisonAttempts offset 0 } :=
            hsf.of_carries rfl rfl fun _ => Or.inr
          refine hl.consume hg fun hp => ?_
          exact kept_publishWriterDlq (hsd ⟨offset, message, rfl, hg, hp⟩)
        · rw [if_neg hps] at hs
          split at hs
          · cases hs
            exact hsf.of_carries rfl rfl fun _ => Or.inr
          · cases hs
            exact hsf.of_carries rfl rfl fun _ => Or.inr
    · cases hs
  | parseFails offset dlqReaches =>
    obtain ⟨message, hg, he⟩ := map_eq_some_iff.mp hs
    subst he
    refine hsf.consume hg fun hp => ?_
    exact kept_publishWriterDlq (hsd ⟨offset, message, rfl, hg, hp⟩)
  | restart process =>
    cases hs
    exact hsf.of_carries rfl rfl fun _ => Or.inr

/-- Whatever the flags, the caches and the delays: while the writer has seen the
flag of every event on the Kafka path on, none is dropped. -/
theorem neverDropped_of_flagStands (hreach : Reach (cutoverStep config) (FlagStands config)
      ({} : CutoverState Process Tenant) state) : NeverDropped state := by
  have hsafe : Safe state := by
    apply hreach.invariant_of fun s hreach => coherent_of_reach hreach
    · exact
        { kept := fun _ _ hin => nomatch hin
          decided := fun _ _ hcarries => by simp [CutoverState.Carries] at hcarries }
    · exact fun s action t hsafe hcoherent hstands hstep => safe_step hsafe hcoherent hstands hstep
  exact hsafe.neverDropped

omit [DecidableEq Process] in
theorem answer_of_not_flagStands
    (hc : state.Coherent config) (hn : ¬ FlagStands config state (.flag process move))
    (hm : (state.readers process).move config.pathDefault config.ttl state.now state.flags move =
      some (reader, some answer)) : state.Waits answer.caller ∧ answer.value = false := by
  rcases answer_of_move (hc process) hm with
    ⟨hf, row, hs, hv⟩ | ⟨⟨rfl, row, hr⟩, hv⟩
  · have hb : state.Waits answer.caller ∧ ¬ state.SeenOn config process answer.tenant := by
      rcases hf with rfl | ⟨rfl, found, hr⟩
      · simpa only [FlagStands, Classical.not_imp] using hn
      · simp only [FlagStands, hr, Option.some.injEq, forall_eq', Classical.not_imp] at hn
        exact hn
    refine ⟨hb.1, Bool.eq_false_iff.mpr fun ht => hb.2 fun other ho => ?_⟩
    cases hs.symm.trans ho
    rw [← hv, ht]
  · simp only [FlagStands, hr, Option.some.injEq, forall_eq', Classical.not_imp] at hn
    exact ⟨hn.1, by rw [hv]; exact Bool.eq_false_iff.mpr hn.2⟩

/-- The condition on the flag is exact: a step that breaks it drops an event, if
the router has answered the events it has published. -/
theorem dropped_of_not_flagStands (hch : state.Coherent config)
    (ha : ∀ event, (state.routing event).onKafkaPath →
      state.routing event = .accepted) (hn : ¬ FlagStands config state (.flag process move))
    (hs : cutoverStep config state (.flag process move) = some after) : ¬ NeverDropped after := by
  obtain ⟨-, hm⟩ := ite_none_right_eq_some.mp hs
  split at hm
  · cases hm
  · next reader answer hmv =>
    cases answer with
    | none =>
      -- only an answer is under the condition
      cases move with
      | lookUp tenant caller =>
        obtain ⟨v, -, he⟩ := map_eq_some_iff.mp hmv
        cases he
      | endRead =>
        simp only [FlagReader.move] at hmv
        split at hmv <;> cases hmv
      | readFails =>
        obtain ⟨read, -, he⟩ := map_eq_some_iff.mp hmv
        cases he
      | beginRead | select | abandon | invalidate => exact absurd trivial hn
    | some answer =>
      obtain ⟨tenant, caller, v⟩ := answer
      obtain ⟨⟨offset, message, hc, hg, event, hev, hp⟩, hv⟩ :=
        answer_of_not_flagStands hch hn hmv
      subst hc hv
      simp only [CutoverState.decideWith, hg, map_some] at hm
      cases hm
      intro hk
      rcases hk message .shadowed (.head _) event hev (ha event hp) with
        hw | hd
      · cases hw
      · cases hd

end Runs

private def slackEvent : WebhookEvent Unit := ⟨(), "slack", 0⟩

private def cutoverConfig : CutoverConfig Bool where
  pathDefault := true
  ttl := 30
  writer _ := ⟨true, true⟩
  poisonMaxDurableAttempts := 50

private def acceptedEvent : List (CutoverAction Bool Unit) :=
  [.receive slackEvent, .flag false (.beginRead () (.route slackEvent)), .flag false .select,
    .flag false .endRead, .enqueue slackEvent, .deliver 0, .accept slackEvent, .normalize 0]

private def writerRead : List (CutoverAction Bool Unit) :=
  [.flag true (.beginRead () (.write 0)), .flag true .select, .flag true .endRead]

private def slackWritten : WriteRun where
  now := 0
  occurredAt := none
  fullModeWrite := .ok ()
  ensureFails := false
  retriedWrite := .ok ()
  dlqReaches := true

private def flagStandsCheck (state : CutoverState Bool Unit) : CutoverAction Bool Unit → Bool
  | .flag process .endRead => (state.readers process).reading.all fun read =>
      ((state.readers process).seen read.tenant).all fun row => row.getD true
  | .write _ _ run => run.dlqReaches
  | .flag _ (.beginRead _ _) | .flag _ .select | .receive _ | .enqueue _ | .deliver _ | .accept _
  | .normalize _ => true
  | _ => false

theorem neverDropped_accepted : ∃ state : CutoverState Bool Unit,
    Reach (cutoverStep cutoverConfig) (FlagStands cutoverConfig) {} state ∧
      state.routing slackEvent = .accepted ∧
      state.consumed = [(slackEvent.message, .written)] ∧ NeverDropped state := by
  have hcheck : ∀ state action, flagStandsCheck state action →
      FlagStands cutoverConfig state action := by
    intro state action hstands
    unfold flagStandsCheck at hstands
    split at hstands
    · intro read hread _ row hrow
      rw [hread, all_some, hrow, all_some] at hstands
      exact hstands
    · exact fun _ => hstands
    all_goals trivial
  have hrun : (runChecked (cutoverStep cutoverConfig) flagStandsCheck {}
      (acceptedEvent ++ writerRead ++ [.write true 0 slackWritten])).map
        (fun state => (state.routing slackEvent, state.consumed)) =
          some (.accepted, [(slackEvent.message, .written)]) := by
    decide +kernel
  obtain ⟨state, hchecked, hend⟩ := map_eq_some_iff.mp hrun
  obtain ⟨hrouting, hconsumed⟩ := Prod.mk.inj hend
  have hreach : Reach (cutoverStep cutoverConfig) (FlagStands cutoverConfig) {} state :=
    reach_of_runChecked hcheck hchecked
  exact ⟨state, hreach, hrouting, hconsumed, neverDropped_of_flagStands hreach⟩

/-- The flag goes off between the publication and the writer's read. -/
theorem dropped_after_switch_off : ¬ ∀ state : CutoverState Bool Unit,
    Reach (cutoverStep cutoverConfig) anyStep {} state → NeverDropped state := by
  intro hnever
  have hrun : (runAll (cutoverStep cutoverConfig) {}
      (acceptedEvent ++ [.setFlag () false] ++ writerRead)).map
        (fun state => (state.routing slackEvent, state.consumed)) =
          some (.accepted, [(slackEvent.message, .shadowed)]) := by
    decide +kernel
  obtain ⟨state, hstate, hend⟩ := map_eq_some_iff.mp hrun
  obtain ⟨hrouting, hconsumed⟩ := Prod.mk.inj hend
  have hreach : Reach (cutoverStep cutoverConfig) anyStep {} state :=
    reach_of_run hstate
  have hin : (slackEvent.message, WriterOutcome.shadowed) ∈ state.consumed := by
    rw [hconsumed]
    exact .head _
  rcases hnever state hreach _ _ hin slackEvent rfl hrouting with hwritten | hdead
  · cases hwritten
  · cases hdead

theorem dropped_of_default_off : ∃ state after : CutoverState Bool Unit,
    cutoverStep { cutoverConfig with pathDefault := false } state (.flag true .readFails) =
      some after ∧ ¬ NeverDropped after := by
  let state : CutoverState Bool Unit :=
    { readers := update (fun _ => {}) true { reading := some { tenant := (), caller := .write 0 } }
      normalized := [slackEvent.message]
      routing := update (fun _ => .unseen) slackEvent .accepted }
  have hread : cutoverStep { cutoverConfig with pathDefault := false }
    { state with readers := fun _ => {} } (.flag true (.beginRead () (.write 0))) = some state := rfl
  have hfails : cutoverStep { cutoverConfig with pathDefault := false } state
    (.flag true .readFails) = some _ := rfl
  refine ⟨state, _, hfails, dropped_of_not_flagStands (coherent_step (fun _ => current_initial)
    hread) (fun event hpath => ?_) (fun hstands => ?_) hfails⟩
  · by_contra hother
    simp_all [state, update_apply, Routing.onKafkaPath]
  · exact absurd (hstands _ rfl ⟨0, _, rfl, rfl, slackEvent, rfl, rfl⟩) nofun

end FyralisCore.Ingestion
