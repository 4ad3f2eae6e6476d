import FyralisCore.Ingestion.Drafts

/-! The normalized topic as a wire: the normalizer names the draft's fields in a
`NormalizedEnvelope` and serialises it, the writer parses it and reads the fields
back. Two fields of a draft have no name there. -/
namespace FyralisCore.Ingestion.Drafts

open Acts (Json)
open Summaries (stringAt)

/-- What both ends serialise with: `orjson.dumps` and `json.loads`, and the texts of
datetimes and UUIDs. -/
structure Codec (Bytes : Type) where
  dumps : Json → Option Bytes
  loads : Bytes → Option Json
  isoformat : Int → String
  datetime : String → Option Int
  uuidText : Nat → String
  uuid : String → Option Nat

variable {Bytes : Type}

def envelopeFields : List String :=
  ["envelope_version", "source", "ingress_kind", "tenant_id", "raw_s3_key", "content_hash",
    "raw_ingested_at", "source_channel", "content_text", "content", "occurred_at", "trust_tier",
    "kind", "source_actor_ref", "external_id", "entities_hint", "normalized_at",
    "ingress_metadata", "idem_hints"]

def envelopeDict (codec : Codec Bytes) (raw : IngressEnvelope) (normalizedAt : Int)
    (draft : ObservationDraft) : Fields :=
  [("envelope_version", .number "1"), ("source", .string raw.source),
    ("ingress_kind", .string raw.ingressKind),
    ("tenant_id", .string (codec.uuidText raw.tenantId)), ("raw_s3_key", .string raw.rawS3Key),
    ("content_hash", .string raw.contentHash),
    ("raw_ingested_at", .string (codec.isoformat raw.ingestedAt)),
    ("source_channel", .string draft.sourceChannel), ("content_text", .string draft.contentText),
    ("content", .object draft.content),
    ("occurred_at", .string (codec.isoformat draft.occurredAt)),
    ("trust_tier", .string draft.trustTier), ("kind", .string draft.kind),
    ("source_actor_ref", optionalString draft.sourceActorRef),
    ("external_id", optionalString draft.externalId),
    ("entities_hint", .array (draft.entitiesHint.map Json.object)),
    ("normalized_at", .string (codec.isoformat normalizedAt)),
    ("ingress_metadata", .object raw.ingressMetadata),
    ("idem_hints", .object (raw.idemHints.map fun hint => (hint.1, .string hint.2)))]

section

variable (fields : Fields) (key : String)

def nonEmptyAt : Option String :=
  (stringAt fields key).filter (· ≠ "")

def optionalAt : Option (Option String) :=
  match fields.lookup key with
  | none | some .null => some none
  | some (.string text) => some (some text)
  | some _ => none

def dictAt : Option Fields :=
  match fields.lookup key with
  | none => some []
  | some (.object value) => some value
  | some _ => none

end

def asDict : Json → Option Fields
  | .object fields => some fields
  | _ => none

def dictsAt (fields : Fields) (key : String) : Option (List Fields) :=
  match fields.lookup key with
  | none => some []
  | some (.array items) => items.mapM asDict
  | some _ => none

def isText : Json → Bool
  | .string _ => true
  | _ => false

def isVersion : Option Json → Bool
  | none | some (.number _) => true
  | _ => false

/-- `NormalizedEnvelope.model_validate`; a datetime and a UUID come as texts. -/
def readEnvelope (codec : Codec Bytes) : Json → Option NormalizedEnvelope
  | .object fields => do
    guard (fields.all fun field => envelopeFields.contains field.1)
    guard (isVersion (fields.lookup "envelope_version"))
    let source ← (stringAt fields "source").filter ingestionSources.contains
    let ingressKind ← (stringAt fields "ingress_kind").filter ingressKinds.contains
    let tenantId ← (stringAt fields "tenant_id").bind codec.uuid
    let rawS3Key ← nonEmptyAt fields "raw_s3_key"
    let _ ← nonEmptyAt fields "content_hash"
    let _ ← (stringAt fields "raw_ingested_at").bind codec.datetime
    let sourceChannel ← nonEmptyAt fields "source_channel"
    let contentText ← stringAt fields "content_text"
    let content ← dictAt fields "content"
    let occurredAt ← (stringAt fields "occurred_at").bind codec.datetime
    let trustTier ← nonEmptyAt fields "trust_tier"
    let kind ← if (fields.lookup "kind").isNone then some "signal" else stringAt fields "kind"
    let sourceActorRef ← optionalAt fields "source_actor_ref"
    let externalId ← optionalAt fields "external_id"
    let entitiesHint ← dictsAt fields "entities_hint"
    let _ ← (stringAt fields "normalized_at").bind codec.datetime
    let _ ← dictAt fields "ingress_metadata"
    let hints ← dictAt fields "idem_hints"
    guard (hints.all fun hint => isText hint.2)
    return {
      source := source, ingressKind, tenantId, rawS3Key, sourceChannel, contentText, content,
      occurredAt, trustTier, kind, sourceActorRef, externalId, entitiesHint }
  | _ => none

def normalizedEnvelope (raw : IngressEnvelope) (draft : ObservationDraft) : NormalizedEnvelope where
  source := raw.source
  ingressKind := raw.ingressKind
  tenantId := raw.tenantId
  rawS3Key := raw.rawS3Key
  sourceChannel := draft.sourceChannel
  contentText := draft.contentText
  content := draft.content
  occurredAt := draft.occurredAt
  trustTier := draft.trustTier
  kind := draft.kind
  sourceActorRef := draft.sourceActorRef
  externalId := draft.externalId
  entitiesHint := draft.entitiesHint

def Nameable (draft : ObservationDraft) : Prop :=
  draft.sourceChannel ≠ "" ∧ draft.trustTier ≠ ""

structure Validated (raw : IngressEnvelope) : Prop where
  source : raw.source ∈ ingestionSources
  ingressKind : raw.ingressKind ∈ ingressKinds
  rawS3Key : raw.rawS3Key ≠ ""
  contentHash : raw.contentHash ≠ ""

/-- The codec gives back the texts it wrote for these values, and the whole document:
what is JSON-representable. -/
structure Carries (codec : Codec Bytes) (raw : IngressEnvelope) (normalizedAt : Int)
    (draft : ObservationDraft) : Prop where
  tenantId : codec.uuid (codec.uuidText raw.tenantId) = some raw.tenantId
  ingested : codec.datetime (codec.isoformat raw.ingestedAt) = some (raw.ingestedAt : Int)
  occurred : codec.datetime (codec.isoformat draft.occurredAt) = some draft.occurredAt
  normalized : codec.datetime (codec.isoformat normalizedAt) = some normalizedAt
  document : (codec.dumps (.object (envelopeDict codec raw normalizedAt draft))).bind codec.loads =
    some (.object (envelopeDict codec raw normalizedAt draft))

theorem mapM_asDict (dicts : List Fields) : (dicts.map Json.object).mapM asDict = some dicts := by
  induction dicts with
  | nil => rfl
  | cons dict rest ih =>
    rw [List.map_cons, List.mapM_cons, ih]
    rfl

theorem optionalAt_of_lookup (hl : fields.lookup key = some (optionalString text)) :
    optionalAt fields key = some text := by
  cases text <;> simp [optionalAt, hl, optionalString]

theorem dictsAt_of_lookup (hl : fields.lookup key = some (.array (dicts.map Json.object))) :
    dictsAt fields key = some dicts := by
  simp only [dictsAt, hl]
  exact mapM_asDict dicts

theorem readEnvelope_envelopeDict (hr : Validated raw)
    (hcr : Carries codec raw normalizedAt draft) (hname : Nameable draft) :
    readEnvelope codec (.object (envelopeDict codec raw normalizedAt draft)) =
      some (normalizedEnvelope raw draft) := by
  obtain ⟨hs, hk, hky, hhs⟩ := hr
  obtain ⟨hc, ht⟩ := hname
  have ha : optionalAt (envelopeDict codec raw normalizedAt draft) "source_actor_ref" =
      some draft.sourceActorRef := optionalAt_of_lookup rfl
  have he : optionalAt (envelopeDict codec raw normalizedAt draft) "external_id" =
      some draft.externalId := optionalAt_of_lookup rfl
  have hh : dictsAt (envelopeDict codec raw normalizedAt draft) "entities_hint" =
      some draft.entitiesHint := dictsAt_of_lookup rfl
  have hn : ((envelopeDict codec raw normalizedAt draft).all fun field =>
      envelopeFields.contains field.1) := by
    simp [envelopeDict, envelopeFields]
  simp only [readEnvelope, ha, he, hh, hn]
  simp [envelopeDict, stringAt, nonEmptyAt, dictAt, isVersion, isText, Option.filter, List.lookup_cons,
    hs, hk, hky, hhs, hc, ht, hcr.tenantId, hcr.ingested,
    hcr.occurred, hcr.normalized, normalizedEnvelope, guard]

end FyralisCore.Ingestion.Drafts
