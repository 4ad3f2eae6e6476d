import FyralisCore.Ingestion.RawEnvelope

/-! The normalizer worker: a batch of raw messages, one message or many, is
processed and then the consumer's position is committed. What is produced goes
to a local queue; the broker acknowledges or refuses it when it likes. -/
namespace FyralisCore.Ingestion

open Transition

structure RawMessage (Bytes : Type) where
  value : Bytes
  /-- the tenant, by which the concurrent loop groups a batch -/
  key : Option String

structure NormalizedEnvelope (Draft : Type) where
  raw : IngressEnvelope
  draft : Draft

inductive Outbound (Draft : Type) where
  | normalized (envelope : NormalizedEnvelope Draft)
  | dlq (envelope : DLQEnvelope)

def Outbound.topic {Draft : Type} : Outbound Draft → String
  | .normalized envelope => topicFor "normalized" envelope.raw.source
  | .dlq envelope => topicFor "dlq" envelope.source

def Outbound.tenantId {Draft : Type} : Outbound Draft → Nat
  | .normalized envelope => envelope.raw.tenantId
  | .dlq envelope => envelope.tenantId

/-- A message in the producer's queue, and the raw message behind it. -/
structure ProducedRecord (Partition Draft : Type) where
  topic : String
  key : String
  value : Outbound Draft
  origin : Partition × Nat

/-- What the surroundings answer while one message is processed. -/
structure TransformRun (Draft : Type) where
  now : Int
  /-- the blob, its handler and the model of the normalized envelope -/
  transform : IngressEnvelope → String → Except String Draft
  /-- the error of `produce`, if it raises -/
  produceFails : Option String
  dlqProduceFails : Bool

inductive TransformFailure where
  | invariant (broken : EnvelopeInvariant) (envelope : IngressEnvelope)
  | other (error : String)

inductive Disposition (Draft : Type) where
  | enqueued (outbound : Outbound Draft)
  | unsupportedCombination
  | dlqSkipped
  | dlqFailed

variable {Bytes Draft Partition : Type}

/-- `_normalize_one_with_envelope`; `none` when the pair has no handler. -/
def normalizeOneWithEnvelope (decoder : Decoder Bytes) (bytes : Bytes)
    (run : TransformRun Draft) : Except TransformFailure (Option (NormalizedEnvelope Draft)) :=
  match decoder.validate bytes with
  | .error error => .error (.other error)
  | .ok envelope =>
    match assertEnvelopeInvariants run.now envelope with
    | .error broken => .error (.invariant broken envelope)
    | .ok () =>
      match resolveChannel envelope.source envelope.ingressKind with
      | none => .ok none
      | some channel =>
        match run.transform envelope channel, run.produceFails with
        | .error error, _ => .error (.other error)
        | .ok _, some error => .error (.other error)
        | .ok draft, none => .ok (some ⟨envelope, draft⟩)

/-- The DLQ envelope of a failure; only a broken invariant comes with the parsed
envelope. -/
def TransformFailure.dlqEnvelope (decoder : Decoder Bytes) (bytes : Bytes) :
    TransformFailure → Option DLQEnvelope
  | .invariant broken envelope =>
    Ingestion.dlqEnvelope decoder bytes .normalizerInvariantFailure
      (decoder.explain broken envelope) (some envelope)
  | .other error => Ingestion.dlqEnvelope decoder bytes .normalizerParseFailure error none

section

variable (decoder : Decoder Bytes) (bytes : Bytes) (run : TransformRun Draft)

def publishDlq (failure : TransformFailure) : Disposition Draft :=
  match failure.dlqEnvelope decoder bytes with
  | none => .dlqSkipped
  | some envelope => if run.dlqProduceFails then .dlqFailed else .enqueued (.dlq envelope)

def processMessage : Disposition Draft :=
  match normalizeOneWithEnvelope decoder bytes run with
  | .ok (some envelope) => .enqueued (.normalized envelope)
  | .ok none => .unsupportedCombination
  | .error failure => publishDlq decoder bytes run failure

end

inductive WorkerMode where
  | polling
  | processing
deriving DecidableEq

/-- The raw log, the consumer's offsets, the messages of the batch that are not
processed yet, and the producer. -/
structure NormalizerState (Partition Bytes Draft : Type) where
  raw : Partition → List (RawMessage Bytes) := fun _ => []
  position : Partition → Nat := fun _ => 0
  committed : Partition → Nat := fun _ => 0
  mode : WorkerMode := .polling
  batch : List (Partition × Nat) := []
  queue : List (ProducedRecord Partition Draft) := []
  acked : List (ProducedRecord Partition Draft) := []
  /-- the messages since the last commit or crash whose record the broker has
  refused for good, or whose DLQ record was never enqueued -/
  lost : List (Partition × Nat) := []

inductive NormalizerAction (Partition Bytes Draft : Type) where
  | publishRaw (partition : Partition) (message : RawMessage Bytes)
  /-- the next message of a partition joins the batch -/
  | receive (partition : Partition)
  | process (index : Nat) (run : TransformRun Draft)
  | commit
  | acknowledge (index : Nat)
  | deliveryFails (index : Nat)
  | crash

section

variable (state : NormalizerState Partition Bytes Draft)

def NormalizerState.messageAt (origin : Partition × Nat) : Option (RawMessage Bytes) :=
  (state.raw origin.1)[origin.2]?

def NormalizerState.firstOfKey (index : Nat) (message : RawMessage Bytes) : Bool :=
  (state.batch.take index).all fun earlier =>
    ((state.messageAt earlier).bind RawMessage.key).getD "" != message.key.getD ""

def NormalizerState.settle (origin : Partition × Nat) : Disposition Draft → NormalizerState
    Partition Bytes Draft
  | .enqueued outbound =>
    { state with queue := state.queue ++ [⟨outbound.topic, toString outbound.tenantId, outbound,
      origin⟩] }
  | .unsupportedCombination => state
  | .dlqSkipped => state
  | .dlqFailed => { state with lost := origin :: state.lost }

end

section

variable (state : NormalizerState Partition Bytes Draft) (origin : Partition × Nat)
  (disposition : Disposition Draft)

@[simp] theorem raw_settle : (state.settle origin disposition).raw = state.raw := by
  cases disposition <;> rfl

@[simp] theorem position_settle : (state.settle origin disposition).position = state.position := by
  cases disposition <;> rfl

@[simp] theorem committed_settle :
    (state.settle origin disposition).committed = state.committed := by
  cases disposition <;> rfl

@[simp] theorem acked_settle : (state.settle origin disposition).acked = state.acked := by
  cases disposition <;> rfl

end

variable [DecidableEq Partition]

def normalizerStep (decoder : Decoder Bytes) (state : NormalizerState Partition Bytes Draft) :
    NormalizerAction Partition Bytes Draft → Option (NormalizerState Partition Bytes Draft)
  | .publishRaw partition message =>
    some { state with
      raw := Function.update state.raw partition (state.raw partition ++ [message]) }
  | .receive partition =>
    if state.mode = .polling ∧ state.position partition < (state.raw partition).length then
      some { state with
        batch := state.batch ++ [(partition, state.position partition)]
        position := Function.update state.position partition (state.position partition + 1) }
    else none
  | .process index run =>
    match state.batch[index]? with
    | none => none
    | some origin =>
      match state.messageAt origin with
      | none => none
      | some message =>
        if state.firstOfKey index message then
          some ({ state with mode := .processing, batch := state.batch.eraseIdx index }.settle
            origin (processMessage decoder message.value run))
        else none
  | .commit =>
    if state.mode = .processing ∧ state.batch = [] then
      some { state with mode := .polling, committed := state.position, lost := [] }
    else none
  | .acknowledge index =>
    (state.queue[index]?).map fun record =>
      { state with queue := state.queue.eraseIdx index, acked := record :: state.acked }
  | .deliveryFails index =>
    (state.queue[index]?).map fun record =>
      { state with queue := state.queue.eraseIdx index, lost := record.origin :: state.lost }
  | .crash =>
    some { state with
      position := state.committed
      mode := .polling
      batch := []
      queue := []
      lost := [] }

end FyralisCore.Ingestion
