import Mathlib.Logic.Function.Basic
import FyralisCore.Lib.Reach

/-! The shard fetch loop: load the cursor, fetch its page, write and publish the
records, flush, advance the cursor. Every await of the loop is a step of its
own; loops of one process share a producer, whose queue the broker works off in
any order. -/
namespace FyralisCore.Ingestion

/-- A fetched record; the fetcher puts the webhook's headers under a reserved
key of it. -/
structure FetchedRecord (Body : Type) where
  body : Body
  webhookMetadata : Option (List (String × String))

structure FetchResult (Cursor Body : Type) where
  records : List (FetchedRecord Body)
  nextCursor : Option Cursor
  endOfData : Bool

structure RawBlob (Cursor Body : Type) where
  record : Body
  shardId : Nat
  cursor : Option Cursor
  webhookMetadata : List (String × String)

structure RawEnvelope where
  source : String
  tenantId : Nat
  rawS3Key : String
  contentHash : String
  ingestedAt : Nat
  ingressKind : String

structure KafkaMessage where
  topic : String
  value : String
  key : Option String
deriving DecidableEq

/-- The configured environment and the library functions that a message is built
with: the digest of a blob, the month of a timestamp, the JSON of an envelope. -/
structure RawTier (Cursor Body : Type) where
  ingestionEnv : String
  computeContentHash : RawBlob Cursor Body → String
  yearMonth : Nat → String
  dumps : RawEnvelope → String

structure FetchLoopContext where
  shardId : Nat
  tenantId : Nat
  source : String

def topicFor (stage source : String) : String := "ingestion." ++ stage ++ "." ++ source

def buildRawS3Key (env source : String) (tenantId : Nat) (yearMonth contentHash : String) :
    String :=
  env ++ "/" ++ source ++ "/" ++ toString tenantId ++ "/" ++ yearMonth ++ "/" ++
    contentHash.take 2 ++ "/" ++ contentHash ++ ".json.zst"

variable {Cursor Body : Type}

/-- The message of `_write_record_and_build_message`, after the blob is in S3. -/
def writeRecordAndBuildMessage (tier : RawTier Cursor Body) (ctx : FetchLoopContext)
    (cursor : Option Cursor) (record : FetchedRecord Body) (now : Nat) : KafkaMessage :=
  let contentHash := tier.computeContentHash
    ⟨record.body, ctx.shardId, cursor, record.webhookMetadata.getD []⟩
  { topic := topicFor "raw" ctx.source
    value := tier.dumps
      { source := ctx.source
        tenantId := ctx.tenantId
        rawS3Key := buildRawS3Key tier.ingestionEnv ctx.source ctx.tenantId
          (tier.yearMonth now) contentHash
        contentHash := contentHash
        ingestedAt := now
        ingressKind := "backfill" }
    key := some (toString ctx.tenantId) }

structure StateData (Cursor : Type) where
  cursor : Option Cursor
  pagesFetched : Nat
  recordsFetched : Option Nat
  endOfData : Option Bool

def initialStateData : StateData Cursor := ⟨none, 0, none, none⟩

def cursorOf (current : Option (StateData Cursor)) : Option Cursor :=
  current.bind StateData.cursor

def newStateData (current : Option (StateData Cursor)) (result : FetchResult Cursor Body)
    (recordsFetched : Nat) : StateData Cursor where
  cursor := result.nextCursor
  pagesFetched := ((current.map StateData.pagesFetched).getD 0) + 1
  recordsFetched := some recordsFetched
  endOfData := some result.endOfData

/-- Where a loop stands. `publish`, `flush` and `advance` are the three steps of
`advance_cursor_atomic_with_kafka_publish`. -/
inductive Phase (Cursor Body : Type) where
  | idle
  | ensureState
  | persistInitial
  | loadCursor
  | fetchPage (current : Option (StateData Cursor))
  | writeMessages (current : Option (StateData Cursor)) (result : FetchResult Cursor Body)
  | publish (current : Option (StateData Cursor)) (result : FetchResult Cursor Body)
      (unsent : List KafkaMessage)
  | flush (current : Option (StateData Cursor)) (result : FetchResult Cursor Body)
  | advance (current : Option (StateData Cursor)) (result : FetchResult Cursor Body)

structure FetchLoop (Cursor Body : Type) where
  phase : Phase Cursor Body
  recordsFetched : Nat

/-- The fetcher of the shard's source, the loops that ever run on the shard and
the process that each belongs to. -/
structure Deployment (Cursor Body Loop Proc : Type) where
  tier : RawTier Cursor Body
  ctx : FetchLoopContext
  fetcher : Option Cursor → FetchResult Cursor Body
  process : Loop → Proc

/-- The shard's workflow_states row, the queue of each process's producer, the
messages that the broker has acknowledged, and the loops. -/
structure IngestState (Cursor Body Loop Proc : Type) where
  row : Option (StateData Cursor)
  queue : Proc → List KafkaMessage
  acked : List KafkaMessage
  loops : Loop → FetchLoop Cursor Body

inductive IngestAction (Loop Proc : Type) where
  /-- the signal path: the claim transaction bootstraps the row -/
  | claim (loop : Loop)
  /-- an orphan's new owner, or a signal for a shard in progress -/
  | resume (loop : Loop)
  | ensure (loop : Loop)
  | bootstrap (loop : Loop)
  | load (loop : Loop)
  | fetch (loop : Loop)
  /-- the S3 writes; each message carries the time of its own write -/
  | write (loop : Loop) (writtenAt : Nat → Nat)
  | produce (loop : Loop)
  | flush (loop : Loop)
  | update (loop : Loop)
  /-- any exception of the fetch, the S3 writes or the produce -/
  | giveUp (loop : Loop)
  | acknowledge (process : Proc) (position : Nat)
  /-- a permanent failure: only the delivery report's counter hears of it -/
  | deliveryFails (process : Proc) (position : Nat)
  /-- another publisher of the process -/
  | otherProduce (process : Proc) (message : KafkaMessage)
  | crash (process : Proc)

variable {Loop Proc : Type}

def Deployment.message (deployment : Deployment Cursor Body Loop Proc) :
    Option Cursor → FetchedRecord Body → Nat → KafkaMessage :=
  writeRecordAndBuildMessage deployment.tier deployment.ctx

variable [DecidableEq Loop] [DecidableEq Proc]

section

variable (state : IngestState Cursor Body Loop Proc)

def IngestState.enter (loop : Loop) (phase : Phase Cursor Body) :
    IngestState Cursor Body Loop Proc :=
  { state with loops := Function.update state.loops loop { state.loops loop with phase := phase } }

def IngestState.counted (loop : Loop) (recordsFetched : Nat) : IngestState Cursor Body Loop Proc :=
  { state with
    loops := Function.update state.loops loop
      { state.loops loop with recordsFetched := recordsFetched } }

def IngestState.enqueue (process : Proc) (message : KafkaMessage) : IngestState Cursor Body Loop
    Proc :=
  { state with
    queue := Function.update state.queue process (state.queue process ++ [message]) }

theorem mem_eraseIdx_of_mem {α : Type} {list : List α} {position : Nat} {removed a : α}
    (ha : list[position]? = some removed) (hm : a ∈ list) :
    a = removed ∨ a ∈ list.eraseIdx position := by
  obtain ⟨i, hi, rfl⟩ := List.getElem_of_mem hm
  by_cases hp : i = position
  · subst hp
    exact .inl (Option.some.inj ((List.getElem?_eq_getElem hi).symm.trans ha))
  · exact .inr (List.mem_eraseIdx_iff_getElem.mpr ⟨i, hi, hp, rfl⟩)

def IngestState.dequeue (process : Proc) (position : Nat) : IngestState Cursor Body Loop Proc :=
  { state with
    queue := Function.update state.queue process ((state.queue process).eraseIdx position) }

end

def ingestStep (deployment : Deployment Cursor Body Loop Proc)
    (state : IngestState Cursor Body Loop Proc) :
    IngestAction Loop Proc → Option (IngestState Cursor Body Loop Proc)
  | .claim loop =>
    match (state.loops loop).phase with
    | .idle => some (({ state with row := some initialStateData }.counted loop 0).enter loop
        .ensureState)
    | _ => none
  | .resume loop =>
    match (state.loops loop).phase with
    | .idle => some ((state.counted loop 0).enter loop .ensureState)
    | _ => none
  | .ensure loop =>
    match (state.loops loop).phase, state.row with
    | .ensureState, none => some (state.enter loop .persistInitial)
    | .ensureState, some data =>
      some ((state.counted loop (data.recordsFetched.getD 0)).enter loop .loadCursor)
    | _, _ => none
  | .bootstrap loop =>
    match (state.loops loop).phase with
    | .persistInitial =>
      some ({ state with row := some initialStateData }.enter loop .loadCursor)
    | _ => none
  | .load loop =>
    match (state.loops loop).phase with
    | .loadCursor => some (state.enter loop (.fetchPage state.row))
    | _ => none
  | .fetch loop =>
    match (state.loops loop).phase with
    | .fetchPage current =>
      let result := deployment.fetcher (cursorOf current)
      some ((state.counted loop ((state.loops loop).recordsFetched + result.records.length)).enter
        loop (.writeMessages current result))
    | _ => none
  | .write loop writtenAt =>
    match (state.loops loop).phase with
    | .writeMessages current result =>
      some (state.enter loop (.publish current result (result.records.mapIdx fun i record =>
        deployment.message (cursorOf current) record (writtenAt i))))
    | _ => none
  | .produce loop =>
    match (state.loops loop).phase with
    | .publish current result (message :: unsent) =>
      some ((state.enqueue (deployment.process loop) message).enter loop
        (.publish current result unsent))
    | .publish current result [] => some (state.enter loop (.flush current result))
    | _ => none
  | .flush loop =>
    match (state.loops loop).phase with
    | .flush current result =>
      if 0 < (state.queue (deployment.process loop)).length then some (state.enter loop .idle)
      else some (state.enter loop (.advance current result))
    | _ => none
  | .update loop =>
    match (state.loops loop).phase, state.row with
    | .advance current result, some _ =>
      let data := newStateData current result (state.loops loop).recordsFetched
      some ({ state with row := some data }.enter loop
        (if result.endOfData then .idle else .loadCursor))
    | .advance _ _, none => some (state.enter loop .idle)
    | _, _ => none
  | .giveUp loop => some (state.enter loop .idle)
  | .acknowledge process position =>
    ((state.queue process)[position]?).map fun message =>
      { state.dequeue process position with acked := state.acked ++ [message] }
  | .deliveryFails process position =>
    ((state.queue process)[position]?).map fun _ => state.dequeue process position
  | .otherProduce process message => some (state.enqueue process message)
  | .crash process =>
    some { state with
      queue := Function.update state.queue process []
      loops := fun loop =>
        if deployment.process loop = process then ⟨.idle, 0⟩ else state.loops loop }

end FyralisCore.Ingestion
