import FyralisCore.Ingestion.Ingest
import FyralisCore.Ingestion.RawEnvelope
import FyralisCore.Ingestion.Summaries

/-! From a handler's draft to the row of observations (`core.py`): the summary of
a large document is put off, actor and entities are resolved, and what stays
unresolved is noted in the content. -/
namespace FyralisCore.Ingestion.Drafts

open Acts (Json strip)
open Models (isTruthyAt)
open Summaries (stringAt)

abbrev Fields := List (String × Json)

structure ObservationDraft where
  sourceChannel : String
  contentText : String
  content : Fields
  occurredAt : Int
  trustTier : String
  kind : String := "signal"
  sourceActorRef : Option String := none
  externalId : Option String := none
  entitiesHint : List Fields := []
  unresolvedPhrases : List String := []
  rawPayload : Option Fields := none

def hexDigit (value : Nat) : Char := Char.ofNat (if value < 10 then 48 + value else 87 + value)

def escapeUnit (unit : Nat) : String :=
  "\\u" ++ String.ofList ([unit / 4096, unit / 256 % 16, unit / 16 % 16, unit % 16].map hexDigit)

/-- A character of an ASCII text, as `json.dumps` writes it. -/
def escapeChar (char : Char) : String :=
  match char with
  | '"' => "\\\""
  | '\\' => "\\\\"
  | '\n' => "\\n"
  | '\r' => "\\r"
  | '\t' => "\\t"
  | _ =>
    let code := char.toNat
    if code = 0x08 then "\\b"
    else if code = 0x0c then "\\f"
    else if 0x20 ≤ code ∧ code < 0x7f then char.toString
    else if code < 0x10000 then escapeUnit code
    else
      -- a surrogate pair
      escapeUnit (0xd800 + (code - 0x10000) / 1024) ++ escapeUnit (0xdc00 + (code - 0x10000) % 1024)

def dumpsString (text : String) : String :=
  "\"" ++ String.join (text.toList.map escapeChar) ++ "\""

mutual
def dumps (sortKeys : Bool) : Json → String
  | .null => "null"
  | .bool value => if value then "true" else "false"
  | .number literal => literal
  | .string value => dumpsString value
  | .array items => "[" ++ ", ".intercalate (dumpsItems sortKeys items) ++ "]"
  | .object fields =>
    let dumped := dumpsFields sortKeys fields
    let ordered := if sortKeys then dumped.insertionSort fun a b => a.1 ≤ b.1 else dumped
    let texts := ordered.map fun field => dumpsString field.1 ++ ": " ++ field.2
    "\x7b" ++ ", ".intercalate texts ++ "\x7d"

def dumpsItems (sortKeys : Bool) : List Json → List String
  | [] => []
  | item :: rest => dumps sortKeys item :: dumpsItems sortKeys rest

def dumpsFields (sortKeys : Bool) : List (String × Json) → List (String × String)
  | [] => []
  | (key, value) :: rest => (key, dumps sortKeys value) :: dumpsFields sortKeys rest
end

def hasNul (text : String) : Bool := text.toList.contains '\x00'

mutual
def containsNul : Json → Bool
  | .string value => hasNul value
  | .array items => containsNulItems items
  | .object fields => containsNulFields fields
  | .null | .bool _ | .number _ => false

def containsNulItems : List Json → Bool
  | [] => false
  | item :: rest => containsNul item || containsNulItems rest

def containsNulFields : List (String × Json) → Bool
  | [] => false
  | (key, value) :: rest => hasNul key || containsNul value || containsNulFields rest
end

def maxPayloadBytes : Nat := 1 * 1024 * 1024

inductive PayloadError where
  | tooLarge (size : Nat)
  | containsNul
  deriving DecidableEq, Repr

def validateIngestJsonPayload (payload : Fields) : Except PayloadError Unit :=
  let size := (dumps false (.object payload)).utf8ByteSize
  if maxPayloadBytes < size then .error (.tooLarge size)
  else if containsNul (.object payload) then .error .containsNul
  else .ok ()

structure SummaryConfig where
  /-- `INGEST_DOCUMENT_SUMMARY_THRESHOLD_CHARS` -/
  thresholdChars : Int := 8192
  /-- `INGEST_DOCUMENT_SUMMARY_CHANNELS` -/
  sourceChannels : List String := ["google_drive:file", "notion:object", "fireflies:transcript"]

def summaryMetadata (content : Fields) : Fields :=
  match content.lookup "summarization" with
  | some (.object summary) => summary
  | _ => []

def hasPendingSummary (content : Fields) : Bool :=
  stringAt (summaryMetadata content) "status" = some "pending"

def ObservationDraft.hasPendingSummary (draft : ObservationDraft) : Bool :=
  Drafts.hasPendingSummary draft.content

def documentTitle (draft : ObservationDraft) : String :=
  (Summaries.firstText draft.content ["name", "title", "file_name"]).getD
    ((draft.externalId.filter (· ≠ "")).getD draft.sourceChannel)

def optionalString : Option String → Json
  | some text => .string text
  | none => .null

def pendingSummary (draft : ObservationDraft) (rawS3Key ingressKind : Option String) : Fields :=
  [("status", .string "pending"), ("reason", .string "large_document"),
    ("original_chars", .number (toString draft.contentText.length)),
    ("raw_s3_key", optionalString rawS3Key), ("ingress_kind", optionalString ingressKind),
    ("source_channel", .string draft.sourceChannel), ("model", .null)] ++
      if rawS3Key.isNone then [("source_text", .string draft.contentText)] else []

/-- `_prepare_document_summarization`: the draft, and whether its summary is
pending. -/
def prepareDocumentSummarization (config : SummaryConfig) (draft : ObservationDraft)
    (rawS3Key ingressKind : Option String) : ObservationDraft × Bool :=
  if draft.hasPendingSummary then (draft, true)
  else if stringAt (summaryMetadata draft.content) "status" = some "complete" then (draft, false)
  else if draft.sourceChannel ∉ config.sourceChannels ∧
      isTruthyAt draft.content "is_document" = false then (draft, false)
  else if (draft.contentText.length : Int) < config.thresholdChars then (draft, false)
  else
    let content := Dict.set "summarization" (.object (pendingSummary draft rawS3Key ingressKind))
      draft.content
    let content := match rawS3Key with
      | some key => Dict.set "raw_s3_key" (.string key) content
      | none => content
    ({ draft with
      content
      contentText := "Document '" ++ documentTitle draft ++ "' is queued for summarization." },
      true)

structure SummarizationEnvelope where
  tenantId : Nat
  source : String
  observationId : Nat
  rawS3Key : Option String
  ingressKind : Option String
  deriving DecidableEq

def channelFamily (sourceChannel : String) : String :=
  String.ofList (sourceChannel.toList.takeWhile (· ≠ ':'))

section

variable (tenantId : Nat) (draft : ObservationDraft) (observationId : Nat)

def summarizationEnvelope : Option SummarizationEnvelope :=
  let summary := summaryMetadata draft.content
  let source := channelFamily draft.sourceChannel
  let request (ingressKind : Option String) : SummarizationEnvelope :=
    { tenantId, source, observationId, rawS3Key := stringAt summary "raw_s3_key", ingressKind }
  if source ∈ ingestionSources then
    match summary.lookup "ingress_kind" with
    | none | some .null => some (request none)
    | some (.string kind) => if kind ∈ ingressKinds then some (request (some kind)) else none
    | some _ => none
  else none

def summarizationRequestIfNeeded (deduped : Bool) : Option SummarizationEnvelope :=
  if deduped || !draft.hasPendingSummary then none
  else summarizationEnvelope tenantId draft observationId

end

/-- What the repositories answer: `resolve_by_source_actor_ref`, none of it when it
raises ValidationError, and `fast_path_resolve_many` by normalized phrase. -/
structure Repositories where
  actors : Option (String → Option (Option Nat))
  aliases : Option (Nat → String → Option Fields)

structure ActorResolution where
  actorId : Option Nat
  unresolvedActorRef : Option String

def resolveActor (repositories : Repositories) (draft : ObservationDraft) : ActorResolution :=
  match draft.sourceActorRef.filter (· ≠ ""), repositories.actors with
  | some ref, some actors =>
    let ref := if ref.toList.contains ':' then ref else draft.sourceChannel ++ ":" ++ ref
    let actorId := (actors ref).join
    { actorId, unresolvedActorRef := if actorId.isNone then some ref else none }
  | _, _ => { actorId := none, unresolvedActorRef := none }

def isAsciiLetter (char : Char) : Bool :=
  ('a' ≤ char && char ≤ 'z') || ('A' ≤ char && char ≤ 'Z')

def isTokenChar (char : Char) : Bool :=
  isAsciiLetter char || ('0' ≤ char && char ≤ '9') || char = '-'

def closedToken (reversed : List Char) : List String :=
  if 2 ≤ reversed.length then [String.ofList reversed.reverse] else []

/-- `_TOKEN_RE.finditer`; the token that is open comes reversed. -/
def tokensFrom : Option (List Char) → List Char → List String
  | none, [] => []
  | some reversed, [] => closedToken reversed
  | none, char :: rest => tokensFrom (if isAsciiLetter char then some [char] else none) rest
  | some reversed, char :: rest =>
    if isTokenChar char then tokensFrom (some (char :: reversed)) rest
    else closedToken reversed ++ tokensFrom none rest

def grams : List String → List String
  | [] => []
  | token :: rest =>
    ([1, 2, 3].filterMap fun n =>
      if n ≤ rest.length + 1 then some (" ".intercalate ((token :: rest).take n)) else none) ++
        grams rest

/-- `normalize_phrase` of a gram, whose letters are ASCII and whose blanks are
single. -/
def normalizePhrase (phrase : String) : String := String.ofList (phrase.toList.map Char.toLower)

/-- The grams whose normalized form has not been seen, up to the maximum. -/
def collectPhrases (maxPhrases : Nat) (phrases : List String) : List String → List String
  | [] => phrases
  | gram :: rest =>
    let norm := normalizePhrase gram
    if norm = "" ∨ norm ∈ phrases.map normalizePhrase then collectPhrases maxPhrases phrases rest
    else if maxPhrases ≤ phrases.length + 1 then phrases ++ [gram]
    else collectPhrases maxPhrases (phrases ++ [gram]) rest

def candidatePhrases (text : String) : List String :=
  collectPhrases 50 [] (grams (tokensFrom none text.toList))

def looksLikeEntity (phrase : String) : Bool :=
  phrase.toList.contains '-' || phrase.toList.any Char.isUpper

structure EntityResolution where
  entitiesMentioned : List Fields
  unresolvedPhrases : List String

def refKey (ref : Fields) : String := dumps true (.object ref)

def EntityResolution.add (aliases : String → Option Fields) (found : EntityResolution)
    (phrase : String) : EntityResolution :=
  match aliases (normalizePhrase phrase) with
  | some ref =>
    if refKey ref ∈ found.entitiesMentioned.map refKey then found
    else { found with entitiesMentioned := found.entitiesMentioned ++ [ref] }
  | none =>
    if looksLikeEntity phrase && !found.unresolvedPhrases.contains phrase then
      { found with unresolvedPhrases := found.unresolvedPhrases ++ [phrase] }
    else found

def resolveEntities (repositories : Repositories) (tenantId : Nat) (draft : ObservationDraft) :
    EntityResolution :=
  let hinted : EntityResolution := ⟨draft.entitiesHint, draft.unresolvedPhrases⟩
  match repositories.aliases with
  | some aliases =>
    if draft.contentText = "" then hinted
    else (candidatePhrases draft.contentText).foldl (EntityResolution.add (aliases tenantId)) hinted
  | none => hinted

def hexValue (char : Char) : Option Nat :=
  if '0' ≤ char ∧ char ≤ '9' then some (char.toNat - 48)
  else if 'a' ≤ char ∧ char ≤ 'f' then some (char.toNat - 87)
  else if 'A' ≤ char ∧ char ≤ 'F' then some (char.toNat - 55)
  else none

def uuidOfText (text : String) : Option Nat :=
  let bare := ((text.replace "urn:" "").replace "uuid:" "").toList
  let isBrace (char : Char) : Bool := char.toNat = 0x7b || char.toNat = 0x7d
  let hex := ((bare.dropWhile isBrace).reverse.dropWhile isBrace).reverse.filter (· ≠ '-')
  if hex.length = 32 then
    hex.foldlM (fun value char => (hexValue char).map fun digit => 16 * value + digit) 0
  else none

/-- The id of `_extract_cause_id`; the text of a list or a dict is no UUID. -/
def causeIdOf (content : Fields) : Option Nat :=
  match content.lookup "_cause_event_id" with
  | some (.string text) | some (.number text) => uuidOfText text
  | _ => none

def observationKinds : List String :=
  ["signal", "state_change", "anomaly_flagged", "contestation", "prediction_resolution",
    "transaction"]

def notedContent (content : Fields) (unresolvedActorRef : Option String)
    (unresolvedPhrases : List String) : Fields :=
  let content := match unresolvedActorRef with
    | some ref => Dict.set "_unresolved_actor_ref" (.string ref) content
    | none => content
  if unresolvedPhrases.isEmpty then content
  else Dict.set "_unresolved_phrases" (.array (unresolvedPhrases.map Json.string)) content

theorem lookup_notedContent (content : Fields) (ref : Option String) (phrases : List String)
    (key : String) : (notedContent content ref phrases).lookup key =
      if key = "_unresolved_phrases" ∧ phrases ≠ [] then some (.array (phrases.map Json.string))
      else if key = "_unresolved_actor_ref" ∧ ref.isSome then ref.map Json.string
      else content.lookup key := by
  unfold notedContent
  cases ref <;> cases phrases <;> simp

/-- `_build_observation_create`, with the embedding that goes with it; none when a
value is outside its literal type. -/
def buildObservationCreate {V : Type} (tenantId : Nat) (draft : ObservationDraft)
    (actor : ActorResolution) (entities : EntityResolution) (embedding : Option V) :
    Option (Observation Json V) :=
  let content := notedContent draft.content actor.unresolvedActorRef entities.unresolvedPhrases
  if draft.kind ∈ observationKinds ∧ draft.trustTier ∈ validTrustTiers then
    some
      { tenantId
        occurredAt := draft.occurredAt
        kind := draft.kind
        sourceChannel := draft.sourceChannel
        sourceActorRef := draft.sourceActorRef
        actorId := actor.actorId
        content := .object (Dict.pop "_cause_event_id" content)
        contentText := draft.contentText
        embedding
        embeddingPending := embedding.isNone
        trustTier := draft.trustTier
        externalId := draft.externalId
        causeId := causeIdOf content
        entitiesMentioned := entities.entitiesMentioned.map Json.object }
  else none

/-- What `ingest_from_draft` is given beside the draft. The enrichers of a channel
read the draft's content, text, raw payload and time, and rewrite the first two. -/
structure Surroundings (V : Type) where
  repositories : Repositories
  enrich : String → Fields → String → Option Fields → Int → Fields × String
  embedder : Option (String → Option V)
  /-- with a summarization producer -/
  summaries : Option SummaryConfig

variable {V : Type}

def ObservationDraft.enriched (surroundings : Surroundings V) (channel : String)
    (draft : ObservationDraft) : ObservationDraft :=
  let (content, contentText) := surroundings.enrich channel draft.content draft.contentText
    draft.rawPayload draft.occurredAt
  { draft with content, contentText }

def computeEmbedding (embedder : Option (String → Option V)) (contentText : String) : Option V :=
  embedder.bind fun embed => if contentText = "" then none else embed contentText

/-- Steps 1.5 to 5 of `ingest_from_draft`: the draft as it stands then, and the call
of the transaction. -/
def ingestCall (surroundings : Surroundings V) (tenantId : Nat) (channel : String)
    (draft : ObservationDraft) (rawS3Key ingressKind : Option String)
    (clarificationFails : Bool) : Option (ObservationDraft × IngestCall Json V) :=
  if draft.sourceChannel ≠ channel then none
  else
    let draft := draft.enriched surroundings channel
    let (draft, summaryPending) := match surroundings.summaries with
      | some config => prepareDocumentSummarization config draft rawS3Key ingressKind
      | none => (draft, false)
    let actor := resolveActor surroundings.repositories draft
    let embedding := if summaryPending then none
      else computeEmbedding surroundings.embedder draft.contentText
    (buildObservationCreate tenantId draft actor
      (resolveEntities surroundings.repositories tenantId draft) embedding).map fun observation =>
        (draft,
          { observation
            unresolvedActorRef := actor.unresolvedActorRef
            enqueueTrigger := true
            summaryPending
            clarificationFails })

/-- `NormalizedEnvelope`, without what the writer does not read. -/
structure NormalizedEnvelope where
  source : String
  ingressKind : String
  tenantId : Nat
  rawS3Key : String
  sourceChannel : String
  contentText : String
  content : Fields
  occurredAt : Int
  trustTier : String
  kind : String
  sourceActorRef : Option String
  externalId : Option String
  entitiesHint : List Fields

def draftFromEnvelope (env : NormalizedEnvelope) : Except PayloadError ObservationDraft := do
  validateIngestJsonPayload env.content
  return {
    sourceChannel := env.sourceChannel
    contentText := env.contentText
    content := env.content
    occurredAt := env.occurredAt
    trustTier := env.trustTier
    kind := env.kind
    sourceActorRef := env.sourceActorRef
    externalId := env.externalId
    entitiesHint := env.entitiesHint }

end FyralisCore.Ingestion.Drafts
