import FyralisCore.Acts.Schema
import FyralisCore.Ingestion.ShardFetch

/-! The raw envelope as the normalizer reads it: its invariants, the handler
channel behind it, and the DLQ envelope of one that fails. -/
namespace FyralisCore.Ingestion

open Acts (Json)

def ingestionSources : List String :=
  ["slack", "github", "discord", "gmail", "notion", "google_calendar", "google_drive", "jira",
    "mercury", "quickbooks", "grafana", "telegram", "brex", "ramp", "gusto", "deel", "fireflies",
    "signal", "aws", "miro", "figma", "carta", "hibob", "ashby", "linkedin", "whatsapp"]

def ingressKinds : List String := ["webhook", "gateway", "pubsub", "backfill", "poll"]

structure IngressEnvelope extends RawEnvelope where
  ingressMetadata : List (String × Json)
  idemHints : List (String × String)

def channelMap : List ((String × String) × String) :=
  [(("discord", "gateway"), "discord:message"), (("discord", "webhook"), "discord:interaction"),
    (("discord", "backfill"), "discord:message"), (("github", "webhook"), "github:webhook"),
    (("github", "backfill"), "github:webhook"), (("slack", "webhook"), "slack:message"),
    (("slack", "backfill"), "slack:message"), (("gmail", "backfill"), "gmail:"),
    (("gmail", "poll"), "gmail:"), (("notion", "webhook"), "notion:object"),
    (("notion", "backfill"), "notion:object"), (("notion", "poll"), "notion:object"),
    (("google_calendar", "backfill"), "google_calendar:event"),
    (("google_calendar", "poll"), "google_calendar:event"),
    (("google_drive", "backfill"), "google_drive:file"),
    (("google_drive", "poll"), "google_drive:file"), (("jira", "backfill"), "jira:issue"),
    (("jira", "poll"), "jira:issue"), (("jira", "webhook"), "jira:issue"),
    (("mercury", "backfill"), "mercury:transaction"),
    (("mercury", "poll"), "mercury:transaction"),
    (("mercury", "webhook"), "mercury:transaction"),
    (("quickbooks", "backfill"), "quickbooks:object"),
    (("quickbooks", "poll"), "quickbooks:object"),
    (("quickbooks", "webhook"), "quickbooks:object"),
    (("grafana", "backfill"), "grafana:annotation"),
    (("grafana", "poll"), "grafana:annotation"), (("grafana", "webhook"), "grafana:alert"),
    (("telegram", "gateway"), "telegram:message"),
    (("telegram", "backfill"), "telegram:message"), (("brex", "backfill"), "brex:transaction"),
    (("brex", "poll"), "brex:transaction"), (("brex", "webhook"), "brex:transaction"),
    (("ramp", "backfill"), "ramp:transaction"), (("ramp", "poll"), "ramp:transaction"),
    (("ramp", "webhook"), "ramp:transaction"), (("gusto", "backfill"), "gusto:object"),
    (("gusto", "poll"), "gusto:object"), (("gusto", "webhook"), "gusto:object"),
    (("deel", "backfill"), "deel:payment"), (("deel", "poll"), "deel:payment"),
    (("deel", "webhook"), "deel:payment"), (("fireflies", "backfill"), "fireflies:transcript"),
    (("fireflies", "poll"), "fireflies:transcript"),
    (("fireflies", "webhook"), "fireflies:transcript"), (("miro", "backfill"), "miro:item"),
    (("miro", "poll"), "miro:item"), (("miro", "webhook"), "miro:item"),
    (("figma", "backfill"), "figma:event"), (("figma", "poll"), "figma:event"),
    (("figma", "webhook"), "figma:event"), (("signal", "gateway"), "signal:message"),
    (("signal", "backfill"), "signal:message"), (("aws", "backfill"), "aws:event"),
    (("aws", "poll"), "aws:event"), (("carta", "backfill"), "carta:object"),
    (("carta", "poll"), "carta:object"), (("hibob", "backfill"), "hibob:object"),
    (("hibob", "poll"), "hibob:object"), (("hibob", "webhook"), "hibob:object"),
    (("ashby", "backfill"), "ashby:object"), (("ashby", "poll"), "ashby:object"),
    (("ashby", "webhook"), "ashby:object"), (("linkedin", "backfill"), "linkedin:object"),
    (("linkedin", "poll"), "linkedin:object"), (("whatsapp", "webhook"), "whatsapp:message")]

def resolveChannel (source ingressKind : String) : Option String :=
  channelMap.lookup (source, ingressKind)

inductive EnvelopeInvariant where
  | contentHashFormat
  | rawS3KeyShape
  | hashPrefix
  | ingestedInFuture
  | ingestedInPast
  | forbiddenMetadata

section

variable (text : List Char)

/-- What `$` of a pattern matches up to: a last newline is not part of it. -/
def chomp : List Char :=
  if text.getLast? = some '\n' then text.dropLast else text

def isLowerHex (c : Char) : Bool := c.isDigit || ('a' ≤ c && c ≤ 'f')

def isHex (c : Char) : Bool := isLowerHex c || ('A' ≤ c && c ≤ 'F')

def isContentHash : Bool :=
  text.length = 40 && text.all isLowerHex

def isUuidText : Bool :=
  match text.splitOn '-' with
  | [a, b, c, d, e] => [a, b, c, d, e].map List.length = [8, 4, 4, 4, 12] &&
      [a, b, c, d, e].all fun part => part.all isHex
  | _ => false

def isYearMonth : Bool :=
  match text.splitOn '-' with
  | [year, month] => year.length = 4 && month.length = 2 && (year ++ month).all Char.isDigit
  | _ => false

def isBlobName : Bool :=
  isContentHash (text.take 40) &&
    (text.drop 40 = ".json".toList || text.drop 40 = ".json.zst".toList)

def isRawS3Key : Bool :=
  match text.splitOn '/' with
  | [env, source, tenant, yearMonth, hashPrefix, blob] =>
    !env.isEmpty && (env.all fun c => c.isDigit || c.isLower || c = '_' || c = '-') &&
      ingestionSources.any (fun name => name.toList = source) && isUuidText tenant &&
      isYearMonth yearMonth && hashPrefix.length = 2 && hashPrefix.all isLowerHex &&
      isBlobName blob
  | _ => false

end

def forbiddenMetadataKeys : List String := ["guild_id", "raw_guild_id"]

/-- The first invariant that the envelope breaks at the time `now`, in seconds. -/
def assertEnvelopeInvariants (now : Int) (envelope : IngressEnvelope) :
    Except EnvelopeInvariant Unit := do
  let key := envelope.rawS3Key.toList
  let hash := envelope.contentHash.toList
  let age := now - envelope.ingestedAt
  unless isContentHash (chomp hash) do throw .contentHashFormat
  unless isRawS3Key (chomp key) do throw .rawS3KeyShape
  unless (key.splitOn '/').reverse[1]?.getD [] = hash.take 2 do throw .hashPrefix
  if 3600 < -age then throw .ingestedInFuture
  if 30 * 24 * 3600 < age then throw .ingestedInPast
  if envelope.ingressMetadata.any fun entry => forbiddenMetadataKeys.contains entry.1 then
    throw .forbiddenMetadata

inductive WireFailureKind where
  | normalizerParseFailure
  | normalizerInvariantFailure

structure DLQEnvelope where
  tenantId : Nat
  source : String
  failureKind : WireFailureKind
  rawS3Key : Option String
  errorSummary : String

/-- What the normalizer parses bytes with: `orjson.loads`, `RawEnvelope.model_validate`
after it (or the text of its error), `UUID`, and the texts of the invariant
errors. -/
structure Decoder (Bytes : Type) where
  loads : Bytes → Option Json
  validate : Bytes → Except String IngressEnvelope
  uuid : String → Option Nat
  explain : EnvelopeInvariant → IngressEnvelope → String

structure DLQFields where
  tenantId : Option Nat := none
  source : Option String := none
  rawS3Key : Option String := none

variable {Bytes : Type}

def stringAt (fields : List (String × Json)) (key : String) : Option String :=
  match fields.lookup key with
  | some (.string value) => some value
  | _ => none

def extractDlqFieldsBestEffort (decoder : Decoder Bytes) (bytes : Bytes) : DLQFields :=
  match decoder.loads bytes with
  | some (.object fields) =>
    { tenantId := (stringAt fields "tenant_id").bind decoder.uuid
      source := (stringAt fields "source").filter ingestionSources.contains
      rawS3Key := (stringAt fields "raw_s3_key").filter fun key => !key.isEmpty }
  | _ => {}

def dlqEnvelope (decoder : Decoder Bytes) (bytes : Bytes) (failureKind : WireFailureKind)
    (errorSummary : String) (envelope : Option IngressEnvelope) : Option DLQEnvelope := do
  let extracted := extractDlqFieldsBestEffort decoder bytes
  let tenantId ← (envelope.map fun known => known.tenantId).or extracted.tenantId
  let source ← (envelope.map fun known => known.source).or extracted.source
  return {
    tenantId
    source
    failureKind
    rawS3Key := (envelope.map fun known => known.rawS3Key).or extracted.rawS3Key
    errorSummary := if errorSummary.isEmpty then "(empty)" else (errorSummary.take 500).toString }

end FyralisCore.Ingestion
