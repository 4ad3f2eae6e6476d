import Mathlib.Data.List.MinMax
import FyralisCore.Lib.ReadCommitted
import FyralisCore.Think.TriggerQueue

/-! The transaction of `ingest` and `ingest_from_draft`: take the advisory lock
of the external id, look for the observation, insert it, enqueue its trigger. -/
namespace FyralisCore.Ingestion

open Relational Transaction

/-- A row of observations; `J` are JSON values and `V` embeddings. -/
structure Observation (J V : Type) where
  tenantId : Nat
  occurredAt : Int
  kind : String
  sourceChannel : String
  sourceActorRef : Option String
  actorId : Option Nat
  content : J
  contentText : String
  embedding : Option V
  embeddingPending : Bool
  trustTier : String
  externalId : Option String
  causeId : Option Nat
  entitiesMentioned : List J

structure EventArrivalPayload where
  sourceChannel : String
  kind : String
  trustTier : String
  seedOccurredAt : Int
  seedNaturalText : String
  scopeActors : List Nat

structure EnqueuedTrigger where
  tenantId : Nat
  triggerKind : Think.TriggerKind
  triggerSubkind : Option Think.TriggerSubkind
  observationId : Option Nat
  payload : EventArrivalPayload

structure IngestResult where
  observationId : Nat
  deduped : Bool
  triggerQueueId : Option Nat
deriving DecidableEq

structure DedupKey where
  tenantId : Nat
  sourceChannel : String
  externalId : String
deriving DecidableEq

structure IngestCall (J V : Type) where
  observation : Observation J V
  /-- the actor reference that stayed unresolved, if any -/
  unresolvedActorRef : Option String
  enqueueTrigger : Bool
  summaryPending : Bool
  /-- a statement of the clarification request fails -/
  clarificationFails : Bool

structure IngestAnswer where
  key : Option DedupKey
  triggersEnabled : Bool
  result : IngestResult

structure IngestDb (J V : Type) where
  observations : Table Nat (Observation J V) := ∅
  triggers : Table Nat EnqueuedTrigger := ∅
  answers : List IngestAnswer := []

inductive IngestWrite (J V : Type) where
  | observation (id : Nat) (row : Observation J V)
  | trigger (id : Nat) (row : EnqueuedTrigger)
  | answer (answer : IngestAnswer)

inductive IngestLock where
  | advisory (key : Nat)
  /-- an entry of the index on (tenant_id, source_channel, external_id, occurred_at) -/
  | entry (key : DedupKey) (occurredAt : Int)
deriving DecidableEq

inductive IngestError where
  | invalidTrustTier (tier : String)
  | insertConflictWithNullExternalId
  | insertConflictButNoRow
  /-- "current transaction is aborted" -/
  | transactionAborted

variable {J V : Type}

def IngestDb.apply (db : IngestDb J V) : IngestWrite J V → IngestDb J V
  | .observation id row => { db with observations := db.observations.put id row }
  | .trigger id row => { db with triggers := db.triggers.put id row }
  | .answer answer => { db with answers := answer :: db.answers }

def Observation.dedupKey (row : Observation J V) : Option DedupKey :=
  row.externalId.map fun externalId => ⟨row.tenantId, row.sourceChannel, externalId⟩

abbrev IngestTx (J V α : Type) : Type :=
  Tx (IngestDb J V) (IngestWrite J V) IngestLock IngestError α

section

variable (digest : String → Nat)

/-- `digest` is the number in the first eight bytes of the SHA-256 of a text. -/
def dedupLockKey (key : DedupKey) : Nat :=
  digest (toString key.tenantId ++ "\x00" ++ key.sourceChannel ++ "\x00" ++ key.externalId) &&&
    0x7FFFFFFFFFFFFFFF

def rowsOfKey (db : IngestDb J V) (key : DedupKey) : List (Nat × Observation J V) :=
  db.observations.rows.filter fun entry => entry.2.dedupKey = some key

def latestOfKey (db : IngestDb J V) (key : DedupKey) : Option (Nat × Observation J V) :=
  letI : Preorder Int := Int.instLinearOrder.toPartialOrder.toPreorder
  (rowsOfKey db key).argmax fun entry => entry.2.occurredAt

def rowOfEntry (db : IngestDb J V) (key : DedupKey) (occurredAt : Int) :
    Option (Nat × Observation J V) :=
  (rowsOfKey db key).find? fun entry => entry.2.occurredAt = occurredAt

def validTrustTiers : List String :=
  ["authoritative", "attested_agent", "authoritative_external", "reputable", "inferential",
    "inferential_external", "unvetted", "derived"]

/-- `pg_advisory_xact_lock`, held until the transaction ends, then the SELECT. -/
def lockAndFindExistingObservation (row : Observation J V) : IngestTx J V (Option Nat) :=
  match row.dedupKey with
  | none => return none
  | some key => do
    Tx.readLocking (fun _ => some (.advisory (dedupLockKey digest key))) fun _ => ()
    Tx.read fun seen => ((rowsOfKey seen key).head?).map Prod.fst

def insertObservation (obsId : Nat) (row : Observation J V) :
    IngestTx J V (Option (Nat × Observation J V)) :=
  Tx.query (fun seen => row.dedupKey.bind fun key =>
      if (rowOfEntry seen key row.occurredAt).isSome then none
      else some (.entry key row.occurredAt))
    fun seen => .ok <|
      if (row.dedupKey.bind fun key => rowOfEntry seen key row.occurredAt).isSome then ([], none)
      else ([.observation obsId row], some (obsId, row))

def fetchLatest (row : Observation J V) : IngestTx J V (Option (Nat × Observation J V)) :=
  match row.dedupKey with
  | none => return none
  | some key => Tx.read fun seen => latestOfKey seen key

def insertWithConn (obsId : Nat) (row : Observation J V) : IngestTx J V (Nat × Observation J V) := do
  let existing ← fetchLatest row
  match existing with
  | some found => return found
  | none => do
    let inserted ← insertObservation obsId row
    match inserted, row.dedupKey with
    | some found, _ => return found
    | none, none => .raise .insertConflictWithNullExternalId
    | none, some key => do
      let exact ← Tx.read fun seen => rowOfEntry seen key row.occurredAt
      let existing ← match exact with
        | some found => pure (some found)
        | none => Tx.read fun seen => latestOfKey seen key
      Tx.orRaise existing .insertConflictButNoRow

def repoInsert (obsId : Nat) (row : Observation J V) : IngestTx J V (Nat × Observation J V) := do
  Tx.ensure (decide (row.trustTier ∈ validTrustTiers)) (.invalidTrustTier row.trustTier)
  insertWithConn obsId row

/-- The request goes to tables of its own. An error of it is swallowed, but the
transaction is aborted by it, and no later statement or COMMIT goes through. -/
def maybeOpenActorIdentityClarification (call : IngestCall J V) (row : Observation J V) :
    IngestTx J V Unit :=
  let wanted := row.actorId.isNone &&
    (call.unresolvedActorRef.map fun ref => !ref.trimAscii.isEmpty).getD false
  Tx.ensure (!(wanted && call.clarificationFails)) .transactionAborted

def eventArrivalTrigger (call : IngestCall J V) (rowId : Nat) (row : Observation J V) :
    EnqueuedTrigger where
  tenantId := call.observation.tenantId
  triggerKind := .t1
  triggerSubkind := some .eventArrival
  observationId := some rowId
  payload :=
    { sourceChannel := call.observation.sourceChannel
      kind := row.kind
      trustTier := row.trustTier
      seedOccurredAt := row.occurredAt
      seedNaturalText := (row.contentText.take 2000).toString
      scopeActors := row.actorId.toList }

def enqueueEventArrivalTrigger (call : IngestCall J V) (rowId : Nat) (row : Observation J V) :
    IngestTx J V Nat := do
  let newId ← Tx.newId
  Tx.query (fun _ => none) fun _ =>
    .ok ([.trigger newId (eventArrivalTrigger call rowId row)], newId)

def IngestCall.triggersEnabled (call : IngestCall J V) : Bool :=
  call.enqueueTrigger && !call.summaryPending

def insertObservationAndMaybeEnqueueTrigger (call : IngestCall J V) (obsId : Nat) : IngestTx J V
    IngestResult := do
  let existing ← lockAndFindExistingObservation digest call.observation
  if existing.isSome then do
    let row ← repoInsert obsId call.observation
    return { observationId := row.1, deduped := true, triggerQueueId := none }
  else do
    let row ← repoInsert obsId call.observation
    if call.observation.externalId.isSome && row.1 != obsId then
      return { observationId := row.1, deduped := true, triggerQueueId := none }
    else do
      maybeOpenActorIdentityClarification call row.2
      if call.triggersEnabled then do
        let triggerQueueId ← enqueueEventArrivalTrigger call row.1 row.2
        return { observationId := row.1, deduped := false, triggerQueueId := some triggerQueueId }
      else return { observationId := row.1, deduped := false, triggerQueueId := none }

/-- One call: the id of step 2, the transaction, and the answer that its commit
makes final. -/
def ingestFromDraft (call : IngestCall J V) : IngestTx J V Unit := do
  let obsId ← Tx.newId
  let result ← insertObservationAndMaybeEnqueueTrigger digest call obsId
  Tx.query (fun _ => none) fun _ =>
    .ok ([.answer ⟨call.observation.dedupKey, call.triggersEnabled, result⟩], ())

def ingestSchema : ReadCommitted.Schema (IngestDb J V) (IngestWrite J V) IngestLock IngestError
    (IngestCall J V) where
  apply := IngestDb.apply
  program := ingestFromDraft digest

end

end FyralisCore.Ingestion
