import FyralisCore.Lib.Dict
import FyralisCore.Lib.ReadCommitted
import FyralisCore.Models.Falsifier

/-! Writing the summary of a document observation (`summarization_worker.py`):
the live worker and the batch worker load the row, compute a whole new content
document and write it back under a guard on the stored status. -/
namespace FyralisCore.Ingestion.Summaries

open Relational Transaction
open Acts (Json strip)

structure ObservationRow (V : Type) where
  sourceChannel : String
  content : Json
  contentText : String
  occurredAt : String
  kind : String
  trustTier : String
  actorId : Option Nat
  embedding : Option V
  embeddingPending : Bool

structure SummarizedTrigger where
  id : Nat
  tenantId : Nat
  triggerKind : String := "T1"
  triggerSubkind : String := "event_arrival"
  observationId : Nat
  sourceChannel : String
  kind : String
  trustTier : String
  seedOccurredAt : String
  seedNaturalText : String
  scopeActors : List Nat
  summarized : Bool := true
  deriving DecidableEq

/-- `summaries` is a history: the observations whose summary was written, in
the order of the commits. -/
structure SummaryDb (V : Type) where
  observations : Table Nat (ObservationRow V) := ∅
  triggers : List SummarizedTrigger := []
  summaries : List Nat := []

inductive SummaryLock where
  | observation (id : Nat)
  deriving DecidableEq, Repr

inductive SummaryWrite where
  /-- `_UPDATE_SQL` -/
  | writeSummary (observationId : Nat) (contentText : String) (content : Json)
  /-- `_FAIL_UPDATE_SQL` -/
  | markFailed (observationId : Nat) (contentText : String) (content : Json)
  | insertTrigger (row : SummarizedTrigger)

/-- What a malformed `summarization` value or a lost connection raises. -/
inductive SummaryError where
  | malformedSummarization
  deriving DecidableEq, Repr

section

variable {V : Type}

section

variable (row : ObservationRow V) (contentText : String) (content : Json)

def ObservationRow.summarized : ObservationRow V :=
  { row with contentText, content, embedding := none, embeddingPending := true }

def ObservationRow.failed : ObservationRow V :=
  { row with contentText, content }

end

def SummaryDb.apply (db : SummaryDb V) : SummaryWrite → SummaryDb V
  | .writeSummary id contentText content =>
    { db with
      observations := db.observations.update id fun row => row.summarized contentText content
      summaries := db.summaries ++ [id] }
  | .markFailed id contentText content =>
    { db with
      observations := db.observations.update id fun row => row.failed contentText content }
  | .insertTrigger row => { db with triggers := db.triggers ++ [row] }

abbrev SummaryTx (V α : Type) : Type :=
  Tx (SummaryDb V) SummaryWrite SummaryLock SummaryError α

def summaryStatus (content : Json) : Option String :=
  match content with
  | .object fields =>
    match fields.lookup "summarization" with
    | some (.object summary) =>
      match summary.lookup "status" with
      | some (.string status) => some status
      | _ => none
    | _ => none
  | _ => none

def ObservationRow.isComplete (row : ObservationRow V) : Bool :=
  summaryStatus row.content = some "complete"

def openRow (db : SummaryDb V) (observationId : Nat) : Option (ObservationRow V) :=
  (db.observations.get observationId).filter fun row => !row.isComplete

/-- UPDATE ... WHERE id = $3 AND the guard RETURNING. Only a row that passes the
guard is held; a statement that waited reads the row anew. -/
def updateGuarded (observationId : Nat) (write : SummaryWrite)
    (after : ObservationRow V → ObservationRow V) : SummaryTx V (Option (ObservationRow V)) :=
  Tx.query (fun db => (openRow db observationId).map fun _ => .observation observationId)
    fun db => .ok (match openRow db observationId with
      | none => ([], none)
      | some row => ([write], some (after row)))

end

def decodeJsonContent : Json → List (String × Json)
  | .object fields => fields
  | _ => []

section

variable (content : List (String × Json))

/-- `dict(content.get("summarization") or {})`: a value that is not a dict
raises, unless it is falsy. -/
def summarizationDict : Option (List (String × Json)) :=
  match content.lookup "summarization" with
  | none | some .null | some (.bool false) | some (.string "") | some (.array []) => some []
  | some (.number literal) => if literal = "0" then some [] else none
  | some (.object fields) => some fields
  | some _ => none

def stringAt (fields : List (String × Json)) (key : String) : Option String :=
  match fields.lookup key with
  | some (.string text) => some text
  | _ => none

def firstText (fields : List (String × Json)) (keys : List String) : Option String :=
  keys.findSome? fun key => ((stringAt fields key).map strip).filter (· ≠ "")

def contains (text part : String) : Bool := 1 < (text.splitOn part).length

def sourceTextFromContent (contentText : String) : Option String :=
  let summary := match content.lookup "summarization" with
    | some (.object fields) => firstText fields ["source_text"]
    | _ => none
  (summary.or (firstText content ["text", "summary"])).or
    (if contentText ≠ "" && !contains contentText "queued for summarization" then
      some contentText
    else none)

def metadataFromContent (sourceChannel : String) : List (String × Json) :=
  ("source_channel", .string sourceChannel) ::
    ["title", "name", "file_name", "mime_type", "object_type"].filterMap fun key =>
      match content.lookup key with
      | none | some .null => none
      | some value => some (key, value)

structure SummaryResult where
  summaryText : String
  model : String

structure SummarizationEnvelope where
  tenantId : Nat
  observationId : Nat
  rawS3Key : Option String := none

def completedContent (summary : List (String × Json)) (result : SummaryResult) (sourceChars : Nat)
    (now : String) : Json :=
  let summary := Dict.pop "source_text" (Dict.update summary
    [("status", .string "complete"), ("completed_at", .string now), ("model", .string result.model),
      ("summary_chars", .number (toString result.summaryText.length)),
      ("source_chars", .number (toString sourceChars))])
  .object (Dict.set "summary_provenance" (.string "llm_summarizer")
    (Dict.set "summarization" (.object summary) content))

def failureContentText (errorType error : String) : String :=
  let label := match firstText content ["name", "title", "file_name"] with
    | some title => "Document '" ++ title ++ "'"
    | none => "Document"
  label ++ " summarization failed: " ++ errorType ++ ": " ++ (error.take 200).toString

def failedContent (summary : List (String × Json)) (errorType error : String)
    (rawS3Key : Option String) (now : String) : Json :=
  let summary := Dict.update summary
    [("status", .string "failed"), ("failed_at", .string now), ("error_type", .string errorType),
      ("error", .string (error.take 500).toString)]
  let summary := match rawS3Key.filter (· ≠ "") with
    | some key => Dict.set "raw_s3_key" (.string key) summary
    | none => summary
  .object (Dict.set "summarization" (.object summary) content)

end

theorem summaryStatus_completedContent (content summary : List (String × Json))
    (r : SummaryResult) (sourceChars : Nat) (now : String) :
    summaryStatus (completedContent content summary r sourceChars now) = some "complete" := by
  simp [completedContent, summaryStatus, Dict.update]

theorem summaryStatus_failedContent (content summary : List (String × Json))
    (errorType error : String) (rawS3Key : Option String) (now : String) :
    summaryStatus (failedContent content summary errorType error rawS3Key now) = some "failed" := by
  unfold failedContent
  split <;> simp [summaryStatus, Dict.update]

inductive Status where
  | summarized
  | guardNoOp
  | observationMissing
  | summarizeFailed
  deriving DecidableEq, Repr

section

variable {V : Type}

def triggerOf (id : Nat) (env : SummarizationEnvelope) (updated : ObservationRow V) :
    SummarizedTrigger where
  id
  tenantId := env.tenantId
  observationId := env.observationId
  sourceChannel := updated.sourceChannel
  kind := updated.kind
  trustTier := updated.trustTier
  seedOccurredAt := updated.occurredAt
  seedNaturalText := (updated.contentText.take 2000).toString
  scopeActors := updated.actorId.toList

/-- `_write_summary_and_enqueue`, with the row loaded before. -/
def writeSummaryAndEnqueue (env : SummarizationEnvelope) (existing : ObservationRow V)
    (result : SummaryResult) (sourceChars : Nat) (now : String) : SummaryTx V Status := do
  let content := decodeJsonContent existing.content
  let summary ← Tx.orRaise (summarizationDict content) .malformedSummarization
  let document := completedContent content summary result sourceChars now
  let updated ← updateGuarded env.observationId
    (.writeSummary env.observationId result.summaryText document)
    fun row => row.summarized result.summaryText document
  match updated with
  | none => pure .guardNoOp
  | some row =>
    let id ← Tx.newId
    Tx.query (fun _ => none) fun _ => .ok ([.insertTrigger (triggerOf id env row)], ())
    pure .summarized

def markSummaryFailed (env : SummarizationEnvelope) (existing : ObservationRow V)
    (errorType error : String) (rawS3Key : Option String) (now : String) : SummaryTx V Unit := do
  let content := decodeJsonContent existing.content
  let summary ← Tx.orRaise (summarizationDict content) .malformedSummarization
  let document := failedContent content summary errorType error rawS3Key now
  let contentText := failureContentText content errorType error
  let _ ← updateGuarded env.observationId (.markFailed env.observationId contentText document)
    fun row => row.failed contentText document
  pure ()

/-- `_load_observation`. It is a transaction of its own, but it writes nothing
and holds nothing, so here it is the first statement of what follows. -/
def loadObservation (env : SummarizationEnvelope) : SummaryTx V (Option (ObservationRow V)) :=
  Tx.read fun db => db.observations.get env.observationId

/-- A live attempt: what the raw store and the summarizer answer is its own. -/
structure LiveAttempt where
  env : SummarizationEnvelope
  /-- `source_text_from_raw_s3` -/
  sourceTextFromRawS3 : Option String → Option String
  /-- the source text and its metadata; an error is its type and its text -/
  summarize : String → List (String × Json) → Except (String × String) SummaryResult
  now : String

def pendingMeta (content : List (String × Json)) : Option (List (String × Json)) :=
  match content.lookup "summarization" with
  | some (.object summary) =>
    if stringAt summary "status" = some "complete" then none else some summary
  | _ => none

def summarizeAndUpdate (attempt : LiveAttempt) : SummaryTx V Status := do
  let env := attempt.env
  match ← loadObservation env with
  | none => pure .observationMissing
  | some existing =>
    let content := decodeJsonContent existing.content
    match pendingMeta content with
    | none => pure .guardNoOp
    | some summaryMeta =>
      let rawKey := (env.rawS3Key.filter (· ≠ "")).or (stringAt summaryMeta "raw_s3_key")
      let sourceText := ((attempt.sourceTextFromRawS3 rawKey).filter (· ≠ "")).or
        (sourceTextFromContent content existing.contentText)
      match sourceText.filter (· ≠ "") with
      | none =>
        markSummaryFailed env existing "SourceTextMissing"
          "No source text available for document summarization" rawKey attempt.now
        pure .summarizeFailed
      | some text =>
        match attempt.summarize text (metadataFromContent content existing.sourceChannel) with
        | .error (errorType, error) =>
          markSummaryFailed env existing errorType error rawKey attempt.now
          pure .summarizeFailed
        | .ok result => writeSummaryAndEnqueue env existing result text.length attempt.now

structure OutputLine where
  env : SummarizationEnvelope
  result : SummaryResult
  sourceChars : Nat
  now : String

def applySummaryToObservation (line : OutputLine) : SummaryTx V Status := do
  match ← loadObservation line.env with
  | none => pure .observationMissing
  | some existing =>
    writeSummaryAndEnqueue line.env existing line.result line.sourceChars line.now

inductive SummaryCall where
  | live (attempt : LiveAttempt)
  | batch (line : OutputLine)

def summaryProgram : SummaryCall → SummaryTx V Unit
  | .live attempt => (summarizeAndUpdate attempt).bind fun _ => .done ()
  | .batch line => (applySummaryToObservation line).bind fun _ => .done ()

def summarySchema (V : Type) :
    ReadCommitted.Schema (SummaryDb V) SummaryWrite SummaryLock SummaryError SummaryCall where
  apply := SummaryDb.apply
  program := summaryProgram

end

end FyralisCore.Ingestion.Summaries
