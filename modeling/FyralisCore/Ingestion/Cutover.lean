import FyralisCore.Ingestion.TenantFlags
import FyralisCore.Lib.Reach

/-! The cutover. The webhook router and the observation writer each read
`kafka_path_enabled` in a process of their own: the router to publish an event
instead of ingesting it inline, the writer to write it or only to log it. -/
namespace FyralisCore.Ingestion

def cutoverEnabledProviders : List (String × String) :=
  ["slack", "github", "jira", "mercury", "quickbooks", "grafana", "brex", "ramp", "gusto", "deel",
    "fireflies", "miro", "figma", "hibob", "ashby"].map fun provider => (provider, provider)

structure WebhookEvent (Tenant : Type) where
  tenantId : Tenant
  provider : String
  deliveryId : Nat
deriving DecidableEq

/-- A message of the raw or of the normalized topic, and the webhook behind it. -/
structure StreamMessage (Tenant : Type) where
  tenantId : Tenant
  ingressKind : String
  event : Option (WebhookEvent Tenant)
deriving DecidableEq

variable {Tenant Process : Type}

def WebhookEvent.message (event : WebhookEvent Tenant) : StreamMessage Tenant :=
  ⟨event.tenantId, "webhook", some event⟩

inductive Routing where
  | unseen
  | received
  /-- in `_attempt_kafka_path`, before or after `produce` -/
  | attempting (enqueued : Bool)
  /-- answered with 202 -/
  | accepted
  | inline (suppressShadowWrite : Bool)
  | ingested (suppressShadowWrite : Bool)
  | rejected
deriving DecidableEq

def Routing.onKafkaPath : Routing → Bool
  | .attempting _ | .accepted => true
  | .unseen | .received | .inline _ | .ingested _ | .rejected => false

inductive WriteError where
  /-- ValidationError, HandlerNotFound or PayloadTooLarge -/
  | permanent
  | checkViolation (constraintName : Option String)
  | transient

inductive WriterOutcome where
  | written
  | deadLettered
  /-- `publish_dlq` could not hand over the envelope, or the broker refused it -/
  | dlqFailed
  | shadowed
deriving DecidableEq

/-- What the surroundings answer while one message is written. Times are days. -/
structure WriteRun where
  now : Int
  occurredAt : Option Int
  fullModeWrite : Except WriteError Unit
  /-- `ensure_partitions`; an error other than a lost race -/
  ensureFails : Bool
  retriedWrite : Except WriteError Unit
  dlqReaches : Bool

def partitionMaxBackfillLookbackDays : Int := 3660

def partitionFutureSkewDays : Int := 7

def publishWriterDlq (reaches : Bool) : WriterOutcome :=
  if reaches then .deadLettered else .dlqFailed

/-- `_attempt_partition_self_heal` with the branches behind it. -/
def attemptPartitionSelfHeal (run : WriteRun) : Option WriterOutcome :=
  match run.occurredAt with
  | none => some (publishWriterDlq run.dlqReaches)
  | some occurred =>
    if occurred < run.now - partitionMaxBackfillLookbackDays ∨
        run.now + partitionFutureSkewDays < occurred then
      some (publishWriterDlq run.dlqReaches)
    else if run.ensureFails then none
    else
      match run.retriedWrite with
      | .ok () => some .written
      | .error .permanent | .error (.checkViolation none) => some (publishWriterDlq run.dlqReaches)
      | .error (.checkViolation (some _)) | .error .transient => none

def writeFullMode (run : WriteRun) : Option WriterOutcome :=
  match run.fullModeWrite with
  | .ok () => some .written
  | .error .permanent => some (publishWriterDlq run.dlqReaches)
  | .error (.checkViolation none) => attemptPartitionSelfHeal run
  | .error (.checkViolation (some _)) | .error .transient => none

structure WriterConfig where
  pool : Bool
  tenantFlags : Bool

def WriterConfig.fullMode (config : WriterConfig) (ingressKind : String) : Option Bool :=
  if config.pool then
    if ingressKind = "backfill" then some true else if config.tenantFlags then none else some false
  else some false

inductive FlagCaller (Tenant : Type) where
  | route (event : WebhookEvent Tenant)
  /-- the message of the normalized topic with this offset -/
  | write (offset : Nat)

structure CutoverConfig (Process : Type) where
  pathDefault : Bool
  ttl : Nat
  writer : Process → WriterConfig
  poisonMaxDurableAttempts : Nat

structure CutoverState (Process Tenant : Type) where
  now : Nat := 0
  flags : Tenant → Option Bool := fun _ => none
  readers : Process → FlagReader Tenant (FlagCaller Tenant) := fun _ => {}
  routing : WebhookEvent Tenant → Routing := fun _ => .unseen
  /-- the producers' local queues -/
  queue : List (StreamMessage Tenant) := []
  raw : List (StreamMessage Tenant) := []
  normalized : List (StreamMessage Tenant) := []
  /-- the messages in full mode -/
  writing : List (Process × Nat) := []
  /-- the messages whose handler has raised -/
  raised : List (Process × Nat) := []
  /-- writer_poison_attempts -/
  poisonAttempts : Nat → Nat := fun _ => 0
  consumed : List (StreamMessage Tenant × WriterOutcome) := []

inductive CutoverAction (Process Tenant : Type) where
  /-- the UPSERT of `set_bool`, by an operator or the circuit breaker -/
  | setFlag (tenant : Tenant) (value : Bool)
  | elapse (duration : Nat)
  | flag (process : Process) (move : FlagMove Tenant (FlagCaller Tenant))
  | receive (event : WebhookEvent Tenant)
  /-- the provider has no cutover, or the gateway no flags -/
  | skipCutover (event : WebhookEvent Tenant)
  | enqueue (event : WebhookEvent Tenant)
  | deliver (index : Nat)
  | refuse (index : Nat)
  | accept (event : WebhookEvent Tenant)
  | fallBack (event : WebhookEvent Tenant)
  | ingestInline (event : WebhookEvent Tenant) (succeeds : Bool)
  | shadowWrite (event : WebhookEvent Tenant)
  /-- a message of backfill, poll or gateway -/
  | publishOther (tenant : Tenant) (ingressKind : String)
  | normalize (index : Nat)
  | take (process : Process) (offset : Nat)
  | write (process : Process) (offset : Nat) (run : WriteRun)
  | retry (process : Process) (offset : Nat)
  /-- the give-up of `_handle_message_with_retry`; `counted` when the counter's store is there -/
  | giveUp (process : Process) (offset : Nat) (counted dlqReaches : Bool)
  | parseFails (offset : Nat) (dlqReaches : Bool)
  | restart (process : Process)

namespace CutoverState

variable [DecidableEq Tenant] [DecidableEq Process]

def route (state : CutoverState Process Tenant) (event : WebhookEvent Tenant) (routing : Routing) :
    CutoverState Process Tenant :=
  { state with routing := Function.update state.routing event routing }

def consume (state : CutoverState Process Tenant) (message : StreamMessage Tenant)
    (outcome : WriterOutcome) : CutoverState Process Tenant :=
  { state with consumed := (message, outcome) :: state.consumed }

section

variable (config : CutoverConfig Process) (state : CutoverState Process Tenant) (process : Process)

def asks (tenant : Tenant) : FlagCaller Tenant → Bool
  | .route event => event.tenantId = tenant && decide (state.routing event = .received) &&
      (cutoverEnabledProviders.lookup event.provider).isSome
  | .write offset => (state.normalized[offset]?).any fun message =>
      message.tenantId = tenant && ((config.writer process).fullMode message.ingressKind).isNone

def admits : FlagMove Tenant (FlagCaller Tenant) → Bool
  | .lookUp tenant caller | .beginRead tenant caller => state.asks config process tenant caller
  | .select | .endRead | .readFails | .abandon | .invalidate _ => true

end

def decideWith (state : CutoverState Process Tenant) (process : Process)
    (answer : FlagAnswer Tenant (FlagCaller Tenant)) : Option (CutoverState Process Tenant) :=
  match answer.caller with
  | .route event =>
    if state.routing event = .received then
      some (state.route event (if answer.value then .attempting false else .inline false))
    else none
  | .write offset =>
    (state.normalized[offset]?).map fun message =>
      if answer.value then { state with writing := (process, offset) :: state.writing }
      else state.consume message .shadowed

end CutoverState

variable [DecidableEq Tenant] [DecidableEq Process]

open CutoverState in
def cutoverStep (config : CutoverConfig Process) (state : CutoverState Process Tenant) :
    CutoverAction Process Tenant → Option (CutoverState Process Tenant)
  | .setFlag tenant value =>
    some { state with flags := Function.update state.flags tenant (some value) }
  | .elapse duration => some { state with now := state.now + duration }
  | .flag process move =>
    if state.admits config process move then
      match (state.readers process).move config.pathDefault config.ttl state.now state.flags move with
      | none => none
      | some (reader, answer) =>
        let moved := { state with readers := Function.update state.readers process reader }
        match answer with
        | none => some moved
        | some answer => moved.decideWith process answer
    else none
  | .receive event =>
    if state.routing event = .unseen then some (state.route event .received) else none
  | .skipCutover event =>
    if state.routing event = .received then some (state.route event (.inline false)) else none
  | .enqueue event =>
    if state.routing event = .attempting false then
      some ({ state with queue := state.queue ++ [event.message] }.route event (.attempting true))
    else none
  | .deliver index =>
    (state.queue[index]?).map fun message =>
      { state with queue := state.queue.eraseIdx index, raw := state.raw ++ [message] }
  | .refuse index =>
    (state.queue[index]?).map fun _ => { state with queue := state.queue.eraseIdx index }
  | .accept event =>
    -- the flush leaves nothing in the queue
    if state.routing event = .attempting true ∧ event.message ∉ state.queue then
      some (state.route event .accepted)
    else none
  | .fallBack event =>
    if state.routing event = .attempting false ∨ state.routing event = .attempting true then
      some (state.route event (.inline true))
    else none
  | .ingestInline event succeeds =>
    match state.routing event with
    | .inline suppressShadowWrite =>
      some (state.route event (if succeeds then .ingested suppressShadowWrite else .rejected))
    | _ => none
  | .shadowWrite event =>
    if state.routing event = .ingested false then
      some ({ state with queue := state.queue ++ [event.message] }.route event (.ingested true))
    else none
  | .publishOther tenant ingressKind =>
    some { state with raw := state.raw ++ [⟨tenant, ingressKind, none⟩] }
  | .normalize index =>
    (state.raw[index]?).map fun message =>
      { state with normalized := state.normalized ++ [message] }
  | .take process offset =>
    match state.normalized[offset]? with
    | none => none
    | some message =>
      match (config.writer process).fullMode message.ingressKind with
      | none => none
      | some true => some { state with writing := (process, offset) :: state.writing }
      | some false => some (state.consume message .shadowed)
  | .write process offset run =>
    if (process, offset) ∈ state.writing then
      match state.normalized[offset]? with
      | none => none
      | some message =>
        let left := { state with writing := state.writing.erase (process, offset) }
        match writeFullMode run with
        | none => some { left with raised := (process, offset) :: state.raised }
        | some outcome => some (left.consume message outcome)
    else none
  | .retry process offset =>
    if (process, offset) ∈ state.raised then
      some { state with raised := state.raised.erase (process, offset) }
    else none
  | .giveUp process offset counted dlqReaches =>
    if (process, offset) ∈ state.raised then
      match state.normalized[offset]? with
      | none => none
      | some message =>
        let left := { state with raised := state.raised.erase (process, offset) }
        let durable := if counted then state.poisonAttempts offset + 1 else 0
        if 0 < config.poisonMaxDurableAttempts ∧ config.poisonMaxDurableAttempts ≤ durable then
          some ({ left with poisonAttempts := Function.update state.poisonAttempts offset 0 }.consume
            message (publishWriterDlq dlqReaches))
        else if counted then
          some { left with poisonAttempts := Function.update state.poisonAttempts offset durable }
        else some left
    else none
  | .parseFails offset dlqReaches =>
    (state.normalized[offset]?).map fun message =>
      state.consume message (publishWriterDlq dlqReaches)
  | .restart process =>
    some { state with
      readers := Function.update state.readers process {}
      writing := state.writing.filter fun entry => entry.1 ≠ process
      raised := state.raised.filter fun entry => entry.1 ≠ process }

end FyralisCore.Ingestion
