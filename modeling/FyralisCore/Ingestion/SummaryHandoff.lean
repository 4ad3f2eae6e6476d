import FyralisCore.Ingestion.Cutover
import FyralisCore.Ingestion.Drafts
import FyralisCore.Ingestion.Normalizer

/-! The observation writer as a consumer of the normalized topic: it commits a
row, publishes the summarization request of a large document, and commits the
offset when its batch is done. Each of the three may be the last thing it does. -/
namespace FyralisCore.Ingestion.Handoff

open Acts (Json)
open Drafts

/-- A row with the message it was inserted for, if it came through the writer. -/
structure StoredRow (Partition V : Type) where
  id : Nat
  observation : Observation Json V
  origin : Option (Partition × Nat)

inductive JobPhase where
  | handling
  /-- The transaction has committed with the row it inserted, none when deduped; the
  request is still to be published. -/
  | written (draft : ObservationDraft) (inserted : Option Nat)
  | raised
  | finished

structure Job (Partition : Type) where
  origin : Partition × Nat
  phase : JobPhase

structure Consumer (Partition : Type) where
  mode : WorkerMode := .polling
  position : Partition → Nat := fun _ => 0
  batch : List (Job Partition) := []

structure HandoffState (Worker Partition V : Type) where
  /-- The normalized topic; none is a message that does not validate. -/
  log : Partition → List (Option Drafts.NormalizedEnvelope) := fun _ => []
  committed : Partition → Nat := fun _ => 0
  owner : Partition → Option Worker := fun _ => none
  consumers : Worker → Consumer Partition := fun _ => {}
  observations : List (StoredRow Partition V) := []
  /-- The summarization requests handed to the producer. -/
  requests : List SummarizationEnvelope := []

structure HandoffConfig where
  writer : WriterConfig
  summaries : SummaryConfig

/-- One run of `_full_mode_write`; the error comes before anything is committed. -/
structure WriteAttempt (V : Type) where
  surroundings : Surroundings V
  obsId : Nat
  error : Option WriteError

/-- What the surroundings answer while one message is handled; `now` is in
microseconds. -/
structure HandlingRun (V : Type) where
  now : Int
  kafkaPathEnabled : Bool
  first : WriteAttempt V
  ensureFails : Bool
  retried : WriteAttempt V

/-- Where `_handle_message` ends, or its transaction does. -/
inductive Handled (V : Type) where
  | deadLettered
  | shadowed
  | raised
  | commits (obsId : Nat) (draft : ObservationDraft) (observation : Observation Json V)

inductive HandoffAction (Worker Partition V : Type) where
  | append (partition : Partition) (message : Option Drafts.NormalizedEnvelope)
  /-- Another path inserts a row. -/
  | insertElsewhere (id : Nat) (observation : Observation Json V)
  /-- The group hands a partition to a consumer. -/
  | assign (partition : Partition) (worker : Worker)
  | receive (worker : Worker) (partition : Partition)
  | handle (worker : Worker) (index : Nat) (run : HandlingRun V)
  /-- The COMMIT's answer is lost, or `emit_pending_notifications` raises. -/
  | raiseAfterCommit (worker : Worker) (index : Nat)
  | publish (worker : Worker) (index : Nat) (accepted : Bool)
  | retry (worker : Worker) (index : Nat)
  /-- The poison message goes to the DLQ. -/
  | park (worker : Worker) (index : Nat)
  | commit (worker : Worker)
  | crash (worker : Worker)

variable {Worker Partition V : Type}

/-- `_full_mode_write` up to its COMMIT. The writer always has a producer for the
summaries. -/
def fullModeWrite (config : HandoffConfig) (env : Drafts.NormalizedEnvelope) (attempt : WriteAttempt V) :
    Except WriteError (ObservationDraft × Observation Json V) :=
  match draftFromEnvelope env with
  | .error _ => .error .permanent
  | .ok draft =>
    let surroundings := { attempt.surroundings with summaries := some config.summaries }
    match ingestCall surroundings env.tenantId env.sourceChannel draft (some env.rawS3Key)
        (some env.ingressKind) false, attempt.error with
    | none, _ => .error .transient
    | some _, some error => .error error
    | some (draft, call), none => .ok (draft, call.observation)

def microsPerDay : Int := 24 * 60 * 60 * 1000000

def writeHealed (config : HandoffConfig) (env : Drafts.NormalizedEnvelope) (run : HandlingRun V) :
    Handled V :=
  if env.occurredAt < run.now - partitionMaxBackfillLookbackDays * microsPerDay ∨
      run.now + partitionFutureSkewDays * microsPerDay < env.occurredAt then .deadLettered
  else if run.ensureFails then .raised
  else
    match fullModeWrite config env run.retried with
    | .ok (draft, observation) => .commits run.retried.obsId draft observation
    | .error .permanent | .error (.checkViolation none) => .deadLettered
    | .error (.checkViolation (some _)) | .error .transient => .raised

def handleMessage (config : HandoffConfig) (message : Option Drafts.NormalizedEnvelope)
    (run : HandlingRun V) : Handled V :=
  match message with
  | none => .deadLettered
  | some env =>
    if (config.writer.fullMode env.ingressKind).getD run.kafkaPathEnabled then
      match fullModeWrite config env run.first with
      | .ok (draft, observation) => .commits run.first.obsId draft observation
      | .error .permanent => .deadLettered
      | .error (.checkViolation none) => writeHealed config env run
      | .error (.checkViolation (some _)) | .error .transient => .raised
    else .shadowed

namespace HandoffState

variable [DecidableEq Worker] [DecidableEq Partition]

section

variable (state : HandoffState Worker Partition V)

def messageAt (origin : Partition × Nat) : Option (Option Drafts.NormalizedEnvelope) :=
  (state.log origin.1)[origin.2]?

def knows (key : Option DedupKey) : Bool :=
  key.isSome && state.observations.any fun stored => stored.observation.dedupKey = key

def withConsumer (worker : Worker) (consumer : Consumer Partition) :
    HandoffState Worker Partition V :=
  { state with consumers := Function.update state.consumers worker consumer }

def setPhase (worker : Worker) (index : Nat) (job : Job Partition) (phase : JobPhase) : HandoffState
    Worker Partition V :=
  let consumer := state.consumers worker
  state.withConsumer worker
    { consumer with mode := .processing, batch := consumer.batch.set index { job with phase } }

def write (worker : Worker) (index : Nat) (job : Job Partition) (obsId : Nat)
    (draft : ObservationDraft) (observation : Observation Json V) : Option
    (HandoffState Worker Partition V) :=
  if state.knows observation.dedupKey then
    some (state.setPhase worker index job (.written draft none))
  else if state.observations.all fun stored => stored.id ≠ obsId then
    some { state.setPhase worker index job (.written draft (some obsId)) with
      observations := state.observations ++ [⟨obsId, observation, some job.origin⟩] }
  else none

end

end HandoffState

variable [DecidableEq Worker] [DecidableEq Partition]

def Job.isFinished : Job Partition → Bool
  | ⟨_, .finished⟩ => true
  | _ => false

def handoffStep (config : HandoffConfig) (state : HandoffState Worker Partition V) :
    HandoffAction Worker Partition V → Option (HandoffState Worker Partition V)
  | .append partition message =>
    some { state with
      log := Function.update state.log partition (state.log partition ++ [message]) }
  | .insertElsewhere id observation =>
    if state.observations.all fun stored => stored.id ≠ id then
      some { state with observations := state.observations ++ [⟨id, observation, none⟩] }
    else none
  | .assign partition worker =>
    let consumer := state.consumers worker
    some { state.withConsumer worker { consumer with
        position := Function.update consumer.position partition (state.committed partition) } with
      owner := Function.update state.owner partition (some worker) }
  | .receive worker partition =>
    let consumer := state.consumers worker
    let offset := consumer.position partition
    if state.owner partition = some worker ∧ consumer.mode = .polling ∧
        offset < (state.log partition).length then
      some (state.withConsumer worker { consumer with
        position := Function.update consumer.position partition (offset + 1)
        batch := consumer.batch ++ [⟨(partition, offset), .handling⟩] })
    else none
  | .handle worker index run => do
    let job ← (state.consumers worker).batch[index]?
    let message ← state.messageAt job.origin
    match job.phase, handleMessage config message run with
    | .handling, .deadLettered | .handling, .shadowed =>
      some (state.setPhase worker index job .finished)
    | .handling, .raised => some (state.setPhase worker index job .raised)
    | .handling, .commits obsId draft observation =>
      state.write worker index job obsId draft observation
    | _, _ => none
  | .raiseAfterCommit worker index => do
    let job ← (state.consumers worker).batch[index]?
    match job.phase with
    | .written _ _ => some (state.setPhase worker index job .raised)
    | _ => none
  | .publish worker index accepted => do
    let job ← (state.consumers worker).batch[index]?
    let message ← (← state.messageAt job.origin)
    match job.phase with
    | .written draft inserted =>
      let request := inserted.bind fun id =>
        summarizationRequestIfNeeded message.tenantId draft id false
      let after := state.setPhase worker index job .finished
      some (if accepted then { after with requests := request.toList ++ state.requests } else after)
    | _ => none
  | .retry worker index => do
    let job ← (state.consumers worker).batch[index]?
    match job.phase with
    | .raised => some (state.setPhase worker index job .handling)
    | _ => none
  | .park worker index => do
    let job ← (state.consumers worker).batch[index]?
    match job.phase with
    | .raised => some (state.setPhase worker index job .finished)
    | _ => none
  | .commit worker =>
    let consumer := state.consumers worker
    if consumer.mode = .processing ∧ consumer.batch.all Job.isFinished then
      some { state.withConsumer worker { consumer with mode := .polling, batch := [] } with
        committed := fun partition =>
          if state.owner partition = some worker then consumer.position partition
          else state.committed partition }
    else none
  | .crash worker =>
    some { state.withConsumer worker {} with
      owner := fun partition =>
        if state.owner partition = some worker then none else state.owner partition }

end FyralisCore.Ingestion.Handoff
