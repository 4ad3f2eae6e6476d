import FyralisCore.Ingestion.SummaryHandoff

/-! The hand-off of pending summaries. Only the process that inserted the row
publishes its request, and only in the same attempt: a redelivery finds the row
and keeps quiet. So the request is there once the offset has passed as long as no
attempt ends between the COMMIT of such a row and its publish. -/
namespace FyralisCore.Ingestion.Handoff

open Acts (Json)
open Drafts Transition Option Function

variable {Worker Partition V : Type} {config : HandoffConfig}
  {state after : HandoffState Worker Partition V}

def isPending (observation : Observation Json V) : Bool :=
  hasPendingSummary (Summaries.decodeJsonContent observation.content)

section

variable (state : HandoffState Worker Partition V)

def Requested (id : Nat) : Prop :=
  ∃ request ∈ state.requests, request.observationId = id

/-- Every row with a pending summary whose message the committed offset has passed
has a request. -/
def HandedOff : Prop :=
  ∀ stored ∈ state.observations, isPending stored.observation →
    ∀ origin, stored.origin = some origin → origin.2 < state.committed origin.1 →
      Requested state stored.id

def Job.Owes (job : Job Partition) (id : Nat) : Prop :=
  ∃ draft, job.phase = .written draft (some id) ∧ draft.hasPendingSummary

def Publishable (draft : ObservationDraft) : Prop :=
  channelFamily draft.sourceChannel ∈ ingestionSources ∧
    match (summaryMetadata draft.content).lookup "ingress_kind" with
    | none | some .null => True
    | some (.string kind) => kind ∈ ingressKinds
    | some _ => False

def envelopeKey (env : Drafts.NormalizedEnvelope) : Option DedupKey :=
  env.externalId.map fun externalId => ⟨env.tenantId, env.sourceChannel, externalId⟩

/-- The condition on the steps of a run. No attempt ends by an error or a crash while it
owes a request; the request can be built and the producer takes it; and when a
partition has changed hands meanwhile, the offset does not pass a message whose request
is owed, nor is a message handled that it has passed, unless its event is known. -/
def HandoffStands : HandoffAction Worker Partition V → Prop
  | .handle worker index _ => ∀ job, (state.consumers worker).batch[index]? = some job →
      state.committed job.origin.1 ≤ job.origin.2 ∨ ∀ env,
        state.messageAt job.origin = some (some env) → state.knows (envelopeKey env)
  | .raiseAfterCommit worker index => ∀ job,
      (state.consumers worker).batch[index]? = some job → ∀ id, ¬ job.Owes id
  | .publish worker index accepted => ∀ job,
      (state.consumers worker).batch[index]? = some job → ∀ draft id,
        job.phase = .written draft (some id) → draft.hasPendingSummary →
          accepted ∧ Publishable draft
  | .commit worker => ∀ other, other ≠ worker → ∀ job ∈ (state.consumers other).batch, ∀ id,
      job.Owes id → state.owner job.origin.1 = some worker →
        (state.consumers worker).position job.origin.1 ≤ job.origin.2
  | .crash worker => ∀ job ∈ (state.consumers worker).batch, ∀ id, ¬ job.Owes id
  | _ => True

end

theorem hasPendingSummary_congr
    (hs : content.lookup "summarization" = other.lookup "summarization") :
    hasPendingSummary content = hasPendingSummary other := by
  unfold hasPendingSummary summaryMetadata
  rw [hs]

variable {tenantId : Nat} {draft : ObservationDraft} {observation : Observation Json V}

theorem isPending_of_build
    (hb : buildObservationCreate tenantId draft actor entities embedding = some observation) :
    isPending observation = draft.hasPendingSummary := by
  obtain ⟨-, he⟩ := ite_none_right_eq_some.mp hb
  cases he
  apply hasPendingSummary_congr
  simp [Summaries.decodeJsonContent, lookup_notedContent]

theorem identity_prepareDocumentSummarization (summaries : SummaryConfig) (draft : ObservationDraft)
    (rawS3Key ingressKind : Option String) :
    let prepared := (prepareDocumentSummarization summaries draft rawS3Key ingressKind).1
    prepared.sourceChannel = draft.sourceChannel ∧ prepared.externalId = draft.externalId := by
  unfold prepareDocumentSummarization
  grind

theorem build_of_ingestCall {channel : String}
    (hc : ingestCall surroundings tenantId channel draft rawS3Key ingressKind fails =
      some (prepared, call)) :
    (prepared.sourceChannel = draft.sourceChannel ∧ prepared.externalId = draft.externalId) ∧
      ∃ actor entities embedding,
        buildObservationCreate tenantId prepared actor entities embedding =
          some call.observation := by
  obtain ⟨-, hm⟩ := ite_none_left_eq_some.mp hc
  obtain ⟨observation, hb, he⟩ := map_eq_some_iff.mp hm
  cases he
  refine ⟨?_, _, _, _, hb⟩
  split
  · exact identity_prepareDocumentSummarization _ _ _ _
  · exact ⟨rfl, rfl⟩

theorem dedupKey_of_build
    (hb : buildObservationCreate tenantId draft actor entities embedding = some observation) :
    observation.dedupKey =
      draft.externalId.map fun externalId => ⟨tenantId, draft.sourceChannel, externalId⟩ := by
  obtain ⟨-, he⟩ := ite_none_right_eq_some.mp hb
  cases he
  rfl

/-- The row of a message is pending if its draft is, and has the message's event. -/
def Fits (env : Drafts.NormalizedEnvelope) (draft : ObservationDraft)
    (observation : Observation Json V) : Prop :=
  isPending observation = draft.hasPendingSummary ∧ observation.dedupKey = envelopeKey env

theorem fits_of_fullModeWrite (hw : fullModeWrite config env attempt = .ok (draft, observation)) :
    Fits env draft observation := by
  unfold fullModeWrite at hw
  split at hw
  · cases hw
  · next read hr =>
    dsimp only at hw
    split at hw
    · cases hw
    · cases hw
    · next prepared call _ hc _ =>
      cases hw
      obtain ⟨hi, actor, entities, embedding, hb⟩ := build_of_ingestCall hc
      have hd : read.sourceChannel = env.sourceChannel ∧ read.externalId = env.externalId := by
        unfold draftFromEnvelope at hr
        cases hv : validateIngestJsonPayload env.content with
        | error =>
          rw [hv] at hr
          cases hr
        | ok =>
          rw [hv] at hr
          cases hr
          exact ⟨rfl, rfl⟩
      refine ⟨isPending_of_build hb, (dedupKey_of_build hb).trans ?_⟩
      rw [hi.1, hi.2, hd.1, hd.2, envelopeKey]

theorem fits_of_handleMessage
    (hh : handleMessage config (some env) run = .commits obsId draft observation) :
    Fits env draft observation := by
  simp only [handleMessage] at hh
  split at hh
  · split at hh
    · next hw =>
      cases hh
      exact fits_of_fullModeWrite hw
    · cases hh
    · simp only [writeHealed] at hh
      split at hh
      · cases hh
      · split at hh
        · cases hh
        · split at hh
          · next hw =>
            cases hh
            exact fits_of_fullModeWrite hw
          all_goals cases hh
    all_goals cases hh
  · cases hh

theorem Publishable.isSome_envelope (hp : Publishable draft) (tenantId id : Nat) :
    ∃ request, summarizationEnvelope tenantId draft id = some request ∧
      request.observationId = id := by
  obtain ⟨hf, hk⟩ := hp
  unfold summarizationEnvelope
  rw [if_pos hf]
  revert hk
  cases (summaryMetadata draft.content).lookup "ingress_kind" with
  | none => exact fun _ => ⟨_, rfl, rfl⟩
  | some v =>
    cases v with
    | null => exact fun _ => ⟨_, rfl, rfl⟩
    | string kind => exact fun hk => ⟨_, if_pos hk, rfl⟩
    | bool _ | number _ | array _ | object _ => exact False.elim

/-- The request of a row is owed by the job that inserted it, whose message the offset
has not passed. -/
def Underway (state : HandoffState Worker Partition V) (id : Nat) (origin : Partition × Nat) :
    Prop :=
  state.committed origin.1 ≤ origin.2 ∧
    ∃ worker, ∃ job ∈ (state.consumers worker).batch, job.origin = origin ∧ job.Owes id

/-- Every row of the writer with a pending summary is requested or underway. -/
def HandoffKept (state : HandoffState Worker Partition V) : Prop :=
  ∀ stored ∈ state.observations, isPending stored.observation →
    ∀ origin, stored.origin = some origin →
      Requested state stored.id ∨ Underway state stored.id origin

theorem HandoffKept.handedOff (hk : HandoffKept state) : HandedOff state := by
  intro stored hs hp origin ho hps
  rcases hk stored hs hp origin ho with hr | ⟨hl, -⟩
  · exact hr
  · omega

theorem HandoffKept.of_same (hk : HandoffKept state) (ho : after.observations = state.observations)
    (hr : ∀ request ∈ state.requests, request ∈ after.requests)
    (hu : ∀ id origin, Underway state id origin →
      Requested after id ∨ Underway after id origin) : HandoffKept after := by
  intro stored hs hp origin hor
  rw [ho] at hs
  rcases hk stored hs hp origin hor with ⟨request, hrq, hi⟩ | hw
  · exact .inl ⟨request, hr request hrq, hi⟩
  · exact hu _ _ hw

theorem Underway.mono {id : Nat} (hw : Underway state id origin)
    (hc : after.committed = state.committed)
    (hj : ∀ worker, ∀ job ∈ (state.consumers worker).batch, job.Owes id →
      job ∈ (after.consumers worker).batch) : Underway after id origin := by
  obtain ⟨hl, worker, job, hjb, hor, ho⟩ := hw
  exact ⟨by rwa [hc], worker, job, hj worker job hjb ho, hor, ho⟩

theorem mem_set_of_mem {jobs : List (Job Partition)}
    (hj : jobs[index]? = some job) (ho : other ∈ jobs) (hn : other ≠ job) :
    other ∈ jobs.set index next := by
  obtain ⟨place, hp⟩ := List.mem_iff_getElem?.mp ho
  refine List.mem_iff_getElem?.mpr ⟨place, ?_⟩
  have hd : index ≠ place := by
    rintro rfl
    exact hn (Option.some.inj (hp.symm.trans hj))
  rw [List.getElem?_set_ne hd, hp]

theorem not_owes_of_phase {job : Job Partition} (hp : job.phase = phase)
    (hn : ∀ draft id, phase ≠ .written draft (some id)) (id : Nat) : ¬ job.Owes id := by
  rintro ⟨draft, hw, -⟩
  exact hn draft id (hp.symm.trans hw)

theorem HandoffKept.with_owner (hk : HandoffKept state) (owner : Partition → Option Worker) :
    HandoffKept { state with owner } :=
  hk.of_same rfl (fun _ => id) fun _ _ hw => .inr (hw.mono rfl fun _ _ hj _ => hj)

theorem HandoffKept.append (hk : HandoffKept state)
    (hr : isPending row.observation → ∀ origin, row.origin = some origin →
      Underway state row.id origin) :
    HandoffKept { state with observations := state.observations ++ [row] } := by
  intro stored hs hp origin ho
  rcases List.mem_append.mp hs with hb | hn
  · exact hk stored hb hp origin ho
  · rw [List.mem_singleton.mp hn] at hp ho ⊢
    exact .inr (hr hp origin ho)

section Steps

variable [DecidableEq Worker]

variable {worker : Worker} {index : Nat} {job : Job Partition}

theorem Underway.withConsumer {id : Nat} (hw : Underway state id origin)
    (hb : ∀ job ∈ (state.consumers worker).batch, job.Owes id → job ∈ consumer.batch) :
    Underway (state.withConsumer worker consumer) id origin := by
  refine hw.mono rfl fun other job hj ho => ?_
  unfold HandoffState.withConsumer
  by_cases hs : other = worker
  · subst hs
    simpa using hb job hj ho
  · simpa [update_of_ne hs] using hj

theorem HandoffKept.withConsumer (hk : HandoffKept state)
    (hb : ∀ job ∈ (state.consumers worker).batch, ∀ id, job.Owes id → job ∈ consumer.batch) :
    HandoffKept (state.withConsumer worker consumer) :=
  hk.of_same rfl (fun _ => id) fun id _ hw =>
    .inr (hw.withConsumer fun job hj => hb job hj id)

theorem Underway.setPhase {id : Nat}
    (hw : Underway state id origin) (hj : (state.consumers worker).batch[index]? = some job)
    (ho : ¬ job.Owes id) : Underway (state.setPhase worker index job phase) id origin :=
  hw.withConsumer fun _ hf hfn =>
    mem_set_of_mem hj hf fun he => ho (he ▸ hfn)

section

variable (hk : HandoffKept state) (hj : (state.consumers worker).batch[index]? = some job)

include hk hj

theorem HandoffKept.setPhase (ho : ∀ id, ¬ job.Owes id) (phase : JobPhase) : HandoffKept
    (state.setPhase worker index job phase) :=
  hk.of_same rfl (fun _ => id) fun id _ hw => .inr (hw.setPhase hj (ho id))

/-- The transaction of a message that the offset has not passed, or whose event is
known. -/
theorem HandoffKept.write {observation : Observation Json V} (hp : job.phase = .handling)
    (hpd : isPending observation = draft.hasPendingSummary) (hs : state.committed job.origin.1 ≤
    job.origin.2 ∨ state.knows observation.dedupKey)
    (hw : state.write worker index job obsId draft observation = some after) :
    HandoffKept after := by
  have ho := not_owes_of_phase hp nofun
  unfold HandoffState.write at hw
  split at hw
  · cases hw
    exact hk.setPhase hj ho _
  · next hu =>
    obtain ⟨-, he⟩ := ite_none_right_eq_some.mp hw
    cases he
    refine (hk.setPhase hj ho (.written draft (some obsId))).append fun hr origin hor => ?_
    cases hor
    refine ⟨hs.resolve_right hu, worker, { job with phase := .written draft (some obsId) },
      ?_, rfl, draft, rfl, hpd.symm.trans hr⟩
    simp only [HandoffState.setPhase, HandoffState.withConsumer, update_self]
    exact List.mem_set (List.getElem?_eq_some_iff.mp hj).1 _

end

theorem HandoffKept.publish (hk : HandoffKept state)
        (hjb : (state.consumers worker).batch[index]? = some job)
    (hp : job.phase = .written draft inserted)
    (hsd : ∀ id, inserted = some id → draft.hasPendingSummary →
      accepted = true ∧ Publishable draft) :
    let request := inserted.bind fun id => summarizationRequestIfNeeded tenantId draft id false
    let done := state.setPhase worker index job .finished
    HandoffKept (if accepted then { done with requests := request.toList ++ state.requests }
      else done) := by
  intro request done
  by_cases how : ∃ id, job.Owes id
  · obtain ⟨id, found, hf, hpd⟩ := how
    obtain ⟨rfl, rfl⟩ := JobPhase.written.inj (hp.symm.trans hf)
    obtain ⟨rfl, hpb⟩ := hsd id rfl hpd
    obtain ⟨sent, hs, hid⟩ := hpb.isSome_envelope tenantId id
    have hr : request = some sent := by
      simp [request, summarizationRequestIfNeeded, hpd, hs]
    rw [if_pos rfl, hr]
    refine hk.of_same rfl (fun _ => List.mem_append_right _) fun other origin hw => ?_
    by_cases ho : other = id
    · subst ho
      exact .inl ⟨sent, List.mem_append_left _ (.head _), hid⟩
    · have hfr : ¬ job.Owes other := by
        rintro ⟨_, hwr, -⟩
        cases hp.symm.trans hwr
        exact ho rfl
      have hd : Underway done other origin := hw.setPhase hjb hfr
      exact .inr (hd.mono rfl fun _ _ hi _ => hi)
  · have hd : HandoffKept done := hk.setPhase hjb (fun id hj => how ⟨id, hj⟩) _
    split
    · exact hd.of_same rfl (fun _ => List.mem_append_right _) fun _ _ hw =>
        .inr (hw.mono rfl fun _ _ hi _ => hi)
    · exact hd

omit [DecidableEq Worker] in
theorem Job.not_owes_of_isFinished (hf : job.isFinished) (id : Nat) : ¬ job.Owes id := by
  rintro ⟨draft, hw, -⟩
  obtain ⟨origin, phase⟩ := job
  cases hw
  cases hf

variable [DecidableEq Partition]

theorem HandoffKept.commit (hk : HandoffKept state) (hsd : HandoffStands state (.commit worker))
    (hs : handoffStep config state (.commit worker) = some after) : HandoffKept after := by
  obtain ⟨⟨-, hf⟩, he⟩ := ite_none_right_eq_some.mp hs
  cases he
  refine hk.of_same rfl (fun _ => id) fun id origin hw => .inr ?_
  obtain ⟨hl, other, job, hj, rfl, hows⟩ := hw
  have ho : other ≠ worker := by
    rintro rfl
    exact job.not_owes_of_isFinished (List.all_eq_true.mp hf job hj) id hows
  refine ⟨?_, other, job, ?_, rfl, hows⟩
  · dsimp only
    split
    · next how => exact hsd other ho job hj id hows how
    · exact hl
  · simpa [HandoffState.withConsumer, update_of_ne ho] using hj

theorem HandoffKept.step (hk : HandoffKept state) {action : HandoffAction Worker Partition V}
    (hsd : HandoffStands state action)
    (hs : handoffStep config state action = some after) : HandoffKept after := by
  cases action
  case append partition message =>
    cases hs
    exact hk.of_same rfl (fun _ => id) fun _ _ hw => .inr (hw.mono rfl fun _ _ hj _ => hj)
  case insertElsewhere id observation =>
    obtain ⟨-, he⟩ := ite_none_right_eq_some.mp hs
    cases he
    exact hk.append nofun
  case assign partition worker =>
    cases hs
    have ha : HandoffKept (state.withConsumer worker { state.consumers worker with
          position := Function.update (state.consumers worker).position partition
            (state.committed partition) }) :=
      hk.withConsumer fun _ hj _ _ => hj
    exact ha.with_owner _
  case receive worker partition =>
    obtain ⟨-, he⟩ := ite_none_right_eq_some.mp hs
    cases he
    exact hk.withConsumer fun _ hj _ _ => List.mem_append_left _ hj
  case commit worker => exact hk.commit hsd hs
  case crash worker =>
    cases hs
    refine HandoffKept.with_owner (hk.withConsumer fun job hj id ho => ?_) _
    exact absurd ho (hsd job hj id)
  all_goals obtain ⟨job, hj, ht⟩ := bind_eq_some_iff.mp hs
  case handle worker index run =>
    obtain ⟨message, hm, ht⟩ := bind_eq_some_iff.mp ht
    split at ht
    · next hp _ =>
      cases ht
      exact hk.setPhase hj (not_owes_of_phase hp nofun) _
    · next hp _ =>
      cases ht
      exact hk.setPhase hj (not_owes_of_phase hp nofun) _
    · next hp _ =>
      cases ht
      exact hk.setPhase hj (not_owes_of_phase hp nofun) _
    · next obsId draft observation hp hc =>
      cases message with
      | none => cases hc
      | some env =>
        obtain ⟨hpd, hky⟩ := fits_of_handleMessage hc
        refine hk.write hj hp hpd ((hsd job hj).imp id fun hkn => ?_) ht
        rw [hky]
        exact hkn env hm
    · cases ht
  case raiseAfterCommit worker index =>
    split at ht
    · cases ht
      exact hk.setPhase hj (hsd job hj) _
    · cases ht
  case publish worker index accepted =>
    obtain ⟨found, -, ht⟩ := bind_eq_some_iff.mp ht
    obtain ⟨message, -, ht⟩ := bind_eq_some_iff.mp ht
    split at ht
    · next draft inserted hp =>
      cases ht
      refine hk.publish hj hp fun id hi => ?_
      subst hi
      exact hsd job hj draft id hp
    · cases ht
  case retry worker index =>
    split at ht
    · next hp =>
      cases ht
      exact hk.setPhase hj (not_owes_of_phase hp nofun) _
    · cases ht
  case park worker index =>
    split at ht
    · next hp =>
      cases ht
      exact hk.setPhase hj (not_owes_of_phase hp nofun) _
    · cases ht

/-- In every run that ends no attempt owing a request, the committed offset passes no
row with a pending summary that has none. -/
theorem handed_off (hreach : Reach (handoffStep config) HandoffStands
      ({} : HandoffState Worker Partition V) state) : HandedOff state := by
  have hkept : HandoffKept state := by
    apply hreach.invariant
    · exact fun stored hstored => absurd hstored List.not_mem_nil
    · exact fun _ _ _ hkept => hkept.step
  exact hkept.handedOff

end Steps

def driveFile : Drafts.NormalizedEnvelope where
  source := "google_drive"
  ingressKind := "backfill"
  tenantId := 7
  rawS3Key := "raw/file"
  sourceChannel := "google_drive:file"
  contentText := "abcdefghijkl"
  content := []
  occurredAt := 0
  trustTier := "reputable"
  kind := "signal"
  sourceActorRef := none
  externalId := some "file-1"
  entitiesHint := []

def eightChars : HandoffConfig where
  writer := { pool := true, tenantFlags := true }
  summaries := { thresholdChars := 8 }

def plainAttempt (obsId : Nat) : WriteAttempt Unit where
  surroundings :=
    { repositories := { actors := none, aliases := none }
      enrich := fun _ content contentText _ _ => (content, contentText)
      embedder := none
      summaries := none }
  obsId
  error := none

def plainRun (obsId : Nat) : HandlingRun Unit where
  now := 0
  kafkaPathEnabled := true
  first := plainAttempt obsId
  ensureFails := false
  retried := plainAttempt obsId

def writtenWith (obsId : Nat) : List (HandoffAction Unit Unit Unit) :=
  [.assign () (), .receive () (), .handle () 0 (plainRun obsId)]

def handsOff (state : HandoffState Unit Unit Unit) : HandoffAction Unit Unit Unit → Bool
  | .handle _ _ _ => state.committed () == 0
  | .publish _ _ accepted => accepted && (state.consumers ()).batch.all fun job =>
      match job.phase with
      | .written draft (some _) => (summarizationEnvelope 7 draft 0).isSome
      | _ => true
  | .assign _ _ | .receive _ _ | .append _ _ | .commit _ => true
  | _ => false

theorem publishable_of_isSome {id : Nat}
    (hs : (summarizationEnvelope tenantId draft id).isSome) : Publishable draft := by
  unfold summarizationEnvelope at hs
  unfold Publishable
  grind

theorem handoffStands_of_handsOff {state : HandoffState Unit Unit Unit}
    {action : HandoffAction Unit Unit Unit} (hc : handsOff state action) :
    HandoffStands state action := by
  cases action with
  | handle worker index run =>
    intro job _
    left
    rw [beq_iff_eq.mp hc]
    exact Nat.zero_le _
  | publish worker index accepted =>
    obtain ⟨hac, ha⟩ := Bool.and_eq_true_iff.mp hc
    intro job hj draft id hp _
    have hs := List.all_eq_true.mp ha job (List.mem_of_getElem? hj)
    rw [hp] at hs
    exact ⟨hac, publishable_of_isSome hs⟩
  | commit worker => exact fun other ho => absurd rfl ho
  | assign | receive | append => trivial
  | insertElsewhere | raiseAfterCommit | retry | park | crash => cases hc

theorem handed_off_one_file : ∃ state : HandoffState Unit Unit Unit,
    Reach (handoffStep eightChars) HandoffStands {} state ∧ state.committed () = 1 ∧
      state.observations.any (fun stored => isPending stored.observation) ∧
        HandedOff state := by
  have hrun : (runChecked (handoffStep eightChars) handsOff {}
      (.append () (some driveFile) :: writtenWith 50 ++ [.publish () 0 true, .commit ()])).any
        (fun state => state.committed () == 1 &&
          state.observations.any fun stored => isPending stored.observation) := by
    decide +kernel
  obtain ⟨state, hstate, hcheck⟩ := (Option.any_eq_true _ _).mp hrun
  obtain ⟨hcommitted, hpending⟩ := Bool.and_eq_true_iff.mp hcheck
  have hreach : Reach (handoffStep eightChars) HandoffStands {} state :=
    reach_of_runChecked (fun _ _ => handoffStands_of_handsOff) hstate
  exact ⟨state, hreach, beq_iff_eq.mp hcommitted, hpending, handed_off hreach⟩

/-- The writer dies between the row's COMMIT and its publish; when it is back it finds
the row, publishes nothing and commits the offset. -/
theorem lost_handoff : ¬ ∀ (config : HandoffConfig) (state : HandoffState Unit Unit Unit),
    Reach (handoffStep config) anyStep {} state → HandedOff state := by
  have hrun : (runAll (handoffStep eightChars) {}
      (.append () (some driveFile) :: writtenWith 50 ++ .crash () :: writtenWith 51 ++
        [.publish () 0 true, .commit ()])).any (fun state =>
          state.requests.isEmpty && state.committed () == 1 &&
            state.observations.any fun stored => isPending stored.observation &&
              stored.origin == some ((), 0)) := by
    decide +kernel
  obtain ⟨state, hstate, hcheck⟩ := (Option.any_eq_true _ _).mp hrun
  simp only [Bool.and_eq_true, List.isEmpty_iff, beq_iff_eq, List.any_eq_true] at hcheck
  obtain ⟨⟨hnone, hcommitted⟩, stored, hstored, hpending, horigin⟩ := hcheck
  intro hall
  have hhanded := hall eightChars state (reach_of_run hstate)
  obtain ⟨request, hrequest, -⟩ := hhanded stored hstored hpending ((), 0) horigin
    (by rw [hcommitted]; exact Nat.zero_lt_one)
  rw [hnone] at hrequest
  cases hrequest

end FyralisCore.Ingestion.Handoff
