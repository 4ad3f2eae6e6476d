import FyralisCore.Ingestion.Summaries

/-! The batch worker of the summarizer (`summarization_batch_worker.py`,
`0138_summarization_batches.sql`): items are claimed and submitted as a provider's
job, jobs are polled, and the output file of a completed one is worked off line by
line. Each statement and each call of the provider is a step of its own. -/
namespace FyralisCore.Ingestion.Batch

open Relational
open Acts (Json strip)
open Models (truthy)

inductive ItemStatus where
  | queued
  | submitting
  | submitted
  | completed
  | failed
  deriving DecidableEq, Repr

structure BatchItem where
  tenantId : Nat
  observationId : Nat
  status : ItemStatus := .queued
  jobId : Option Nat := none
  sourceChars : Option Nat := none
  attempts : Nat := 0

def batchCustomId (observationId : Nat) : String := "summarization:" ++ toString observationId

def BatchItem.customId (item : BatchItem) : String := batchCustomId item.observationId

structure BatchJob where
  providerBatchId : String
  status : String

def jobStatuses : List String :=
  ["submitted", "validating", "in_progress", "finalizing", "completed", "failed", "expired",
    "cancelling", "cancelled"]

def openStatuses : List String :=
  ["submitted", "validating", "in_progress", "finalizing", "cancelling"]

/-- What `parse_batch_output_line` parses with: `orjson.loads`, `int(value or 0)`, and
whether `parse_summary_text` returns. -/
structure OutputReader where
  loads : String → Option Json
  int : Json → Option Int
  parsesSummary : String → Bool

/-- `value or []`, iterated over for its dicts; none when it is no iterable. -/
def dictsIn : Option Json → Option (List (List (String × Json)))
  | some (.array items) => some (items.filterMap fun item =>
      match item with
      | .object fields => some fields
      | _ => none)
  | some (.number literal) => if truthy (.number literal) then none else some []
  | some (.bool true) => none
  | _ => some []

def responsesOutputText (body : List (String × Json)) : Option String :=
  match (Summaries.stringAt body "output_text").filter (· ≠ "") with
  | some direct => some direct
  | none => do
    let outputs ← dictsIn (body.lookup "output")
    let contents ← outputs.mapM fun output => dictsIn (output.lookup "content")
    return String.join (contents.flatten.filterMap fun content => Summaries.stringAt content "text")

/-- `parse_batch_output_line`: the custom id, and whether there is a result; none when
it raises. -/
def parseBatchOutputLine (reader : OutputReader) (line : String) : Option (String × Bool) :=
  match reader.loads line with
  | some (.object payload) =>
    match (Summaries.stringAt payload "custom_id").filter (· ≠ "") with
    | none => none
    | some customId =>
      if ((payload.lookup "error").map truthy).getD false then some (customId, false)
      else
        match payload.lookup "response" with
        | some (.object response) => do
          let statusCode ← reader.int ((response.lookup "status_code").getD .null)
          match response.lookup "body" with
          | some (.object body) =>
            if 200 ≤ statusCode ∧ statusCode < 300 then do
              let text ← responsesOutputText body
              if text = "" then return (customId, false)
              else if reader.parsesSummary text then return (customId, true)
              else none
            else return (customId, false)
          | _ => return (customId, false)
        | _ => some (customId, false)
  | _ => none

inductive BatchPhase where
  | idle
  /-- Claimed; the texts of the remaining items are to be loaded. -/
  | loading (remaining : List Nat) (lines : List (Nat × Nat))
  | resetting (lines : List (Nat × Nat)) (error : String)
  | recording (lines : List (Nat × Nat)) (providerBatchId status : String)
  | polling (jobs : List Nat)
  | updating (job : Nat) (status : String) (outputFile : Option String) (rest : List Nat)
  | reading (outputFile : String) (rest : List Nat)
  | applying (lines : List String) (rest : List Nat)
  | listing (job : Nat) (rest : List Nat)
  | failing (items : List Nat) (rest : List Nat)

structure BatchState (Worker : Type) where
  items : Table Nat BatchItem := ∅
  jobs : Table Nat BatchJob := ∅
  phase : Worker → BatchPhase := fun _ => .idle

structure BatchConfig where
  batchSize : Int := 50
  pollLimit : Int := 10
  submitMaxAttempts : Nat := 3
  reader : OutputReader
  /-- `file_text` of the provider, by lines. -/
  files : String → List String

inductive BatchAction (Worker : Type) where
  /-- `enqueue_batch_item` -/
  | enqueue (id tenantId observationId : Nat)
  | claim (worker : Worker) (picked : List Nat)
  /-- The text of the next item, by its length; none when there is none. -/
  | load (worker : Worker) (sourceChars : Option Nat)
  | submit (worker : Worker) (result : Except String (String × String))
  | resetClaim (worker : Worker)
  | record (worker : Worker) (jobId : Nat)
  | selectJobs (worker : Worker) (picked : List Nat)
  | retrieve (worker : Worker) (status : String) (outputFile : Option String)
  | updateJob (worker : Worker)
  | readFile (worker : Worker)
  /-- `applied`: what `apply_summary_to_observation` returns lets the item be completed. -/
  | applyLine (worker : Worker) (applied : Bool)
  | listItems (worker : Worker)
  | failItem (worker : Worker)
  /-- The work at hand is done. -/
  | proceed (worker : Worker)
  /-- The process is killed, or an exception ends it. -/
  | crash (worker : Worker)

def BatchItem.claim (item : BatchItem) : BatchItem :=
  { item with status := .submitting, attempts := item.attempts + 1 }

def BatchItem.submit (jobId sourceChars : Nat) (item : BatchItem) : BatchItem :=
  { item with status := .submitted, jobId := some jobId, sourceChars := some sourceChars }

def BatchItem.reset (submitMaxAttempts : Nat) (item : BatchItem) : BatchItem :=
  { item with status := if submitMaxAttempts ≤ item.attempts then .failed else .queued }

def BatchItem.fail (item : BatchItem) : BatchItem := { item with status := .failed }

def BatchItem.complete (item : BatchItem) : BatchItem := { item with status := .completed }

def itemByCustomId (items : Table Nat BatchItem) (customId : String) : Option Nat :=
  (items.rows.find? fun entry => entry.2.customId = customId).map Prod.fst

def updateItems (items : Table Nat BatchItem) (ids : List Nat) (change : BatchItem → BatchItem) :
    Table Nat BatchItem :=
  items.updateWhere (fun id _ => ids.contains id) fun _ => change

def markSubmitted (items : Table Nat BatchItem) (jobId : Nat) (lines : List (Nat × Nat)) :
    Table Nat BatchItem :=
  lines.foldl (fun items line => items.update line.1 (BatchItem.submit jobId line.2)) items

def jobOfBatch (jobs : Table Nat BatchJob) (providerBatchId : String) : Option Nat :=
  (jobs.rows.find? fun entry => entry.2.providerBatchId = providerBatchId).map Prod.fst

def outputLines (config : BatchConfig) (outputFile : String) : List String :=
  ((config.files outputFile).map strip).filter (· ≠ "")

def withinLimit (limit : Int) (picked : List Nat) : Bool := (picked.length : Int) ≤ max 1 limit

section Step

variable {Worker : Type} [DecidableEq Worker]

def BatchState.enter (state : BatchState Worker) (worker : Worker) (phase : BatchPhase) :
    BatchState Worker :=
  { state with phase := Function.update state.phase worker phase }

/-- `_INSERT_JOB_SQL` with the marks behind it, in one transaction. -/
def BatchState.record (state : BatchState Worker) (worker : Worker) (jobId : Nat)
    (lines : List (Nat × Nat)) (providerBatchId status : String) : Option (BatchState Worker) :=
  if status ∉ jobStatuses then none
  else
    match jobOfBatch state.jobs providerBatchId with
    | some existing =>
      some { state.enter worker .idle with
        items := markSubmitted state.items existing lines
        jobs := state.jobs.update existing fun job => { job with status } }
    | none =>
      if (state.jobs.get jobId).isSome then none
      else some { state.enter worker .idle with
        items := markSubmitted state.items jobId lines
        jobs := state.jobs.put jobId { providerBatchId, status } }

def afterUpdate (job : Nat) (status : String) (outputFile : Option String) (rest : List Nat) :
    BatchPhase :=
  if status = "completed" then
    match outputFile.filter (· ≠ "") with
    | some file => .reading file rest
    | none => .polling rest
  else if status ∈ ["failed", "expired", "cancelled"] then .listing job rest
  else .polling rest

def batchStep (config : BatchConfig) (state : BatchState Worker) :
    BatchAction Worker → Option (BatchState Worker)
  | .enqueue id tenantId observationId =>
    let item : BatchItem := { tenantId, observationId }
    if state.items.any fun _ row => row.tenantId = tenantId ∧ row.observationId = observationId then
      some state
    else if (state.items.get id).isSome ∨
        state.items.any (fun _ row => row.customId = item.customId) then none
    else some { state with items := state.items.put id item }
  | .claim worker picked =>
    match state.phase worker with
    | .idle =>
      if withinLimit config.batchSize picked && picked.all fun id =>
          (state.items.get id).any fun item => item.status = .queued then
        some { state.enter worker (.loading picked []) with
          items := updateItems state.items picked BatchItem.claim }
      else none
    | _ => none
  | .load worker sourceChars =>
    match state.phase worker, sourceChars with
    | .loading (id :: rest) lines, none =>
      some { state.enter worker (.loading rest lines) with
        items := state.items.update id BatchItem.fail }
    | .loading (id :: rest) lines, some chars =>
      some (state.enter worker (.loading rest (lines ++ [(id, chars)])))
    | _, _ => none
  | .submit worker result =>
    match state.phase worker, result with
    | .loading [] (line :: lines), .ok (providerBatchId, status) =>
      some (state.enter worker (.recording (line :: lines) providerBatchId status))
    | .loading [] (line :: lines), .error error =>
      some (state.enter worker (.resetting (line :: lines) error))
    | _, _ => none
  | .resetClaim worker =>
    match state.phase worker with
    | .resetting lines _ =>
      some { state.enter worker .idle with
        items := updateItems state.items (lines.map Prod.fst)
          (BatchItem.reset config.submitMaxAttempts) }
    | _ => none
  | .record worker jobId =>
    match state.phase worker with
    | .recording lines providerBatchId status =>
      state.record worker jobId lines providerBatchId status
    | _ => none
  | .selectJobs worker picked =>
    match state.phase worker with
    | .idle =>
      if withinLimit config.pollLimit picked && picked.all fun id =>
          (state.jobs.get id).any fun job => openStatuses.contains job.status then
        some (state.enter worker (.polling picked))
      else none
    | _ => none
  | .retrieve worker status outputFile =>
    match state.phase worker with
    | .polling (job :: rest) => some (state.enter worker (.updating job status outputFile rest))
    | _ => none
  | .updateJob worker =>
    match state.phase worker with
    | .updating job status outputFile rest =>
      if status ∈ jobStatuses then
        some { state.enter worker (afterUpdate job status outputFile rest) with
          jobs := state.jobs.update job fun row => { row with status } }
      else none
    | _ => none
  | .readFile worker =>
    match state.phase worker with
    | .reading outputFile rest =>
      some (state.enter worker (.applying (outputLines config outputFile) rest))
    | _ => none
  | .applyLine worker applied =>
    match state.phase worker with
    | .applying (line :: lines) rest =>
      match parseBatchOutputLine config.reader line with
      | none => none
      | some (customId, hasResult) =>
        match itemByCustomId state.items customId with
        | none => some (state.enter worker (.applying lines rest))
        | some id =>
          some { state.enter worker (.applying lines rest) with
            items := state.items.update id
              (if hasResult && applied then BatchItem.complete else BatchItem.fail) }
    | _ => none
  | .listItems worker =>
    match state.phase worker with
    | .listing job rest =>
      let rows := state.items.rows.filter fun entry =>
        entry.2.jobId = some job ∧ entry.2.status = .submitted
      some (state.enter worker (.failing (rows.map Prod.fst) rest))
    | _ => none
  | .failItem worker =>
    match state.phase worker with
    | .failing (id :: ids) rest =>
      some { state.enter worker (.failing ids rest) with
        items := state.items.update id BatchItem.fail }
    | _ => none
  | .proceed worker =>
    match state.phase worker with
    | .loading [] [] | .polling [] => some (state.enter worker .idle)
    | .applying [] rest | .failing [] rest => some (state.enter worker (.polling rest))
    | _ => none
  | .crash worker => some (state.enter worker .idle)

end Step

end FyralisCore.Ingestion.Batch
