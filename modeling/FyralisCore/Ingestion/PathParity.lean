import FyralisCore.Ingestion.Wire

/-! The inline path and the Kafka path of a draft. On the way over the wire a draft
loses its unresolved phrases and its raw payload: the rows agree when the core finds
the same phrases by itself and no enricher needed the payload. -/
namespace FyralisCore.Ingestion.Drafts

open List EntityResolution

open Acts (Json)

variable {Bytes V : Type}

instance (draft : ObservationDraft) : Decidable (Nameable draft) :=
  inferInstanceAs (Decidable (_ ∧ _))

def normalizedBytes (codec : Codec Bytes) (raw : IngressEnvelope) (normalizedAt : Int)
    (draft : ObservationDraft) : Option Bytes :=
  if Nameable draft then codec.dumps (.object (envelopeDict codec raw normalizedAt draft)) else none

def inlineRow (surroundings : Surroundings V) (tenantId : Nat) (draft : ObservationDraft) :
    Option (Observation Json V) :=
  (ingestCall { surroundings with summaries := none } tenantId draft.sourceChannel draft none none
    false).map fun called => called.2.observation

def kafkaRow (codec : Codec Bytes) (surroundings : Surroundings V) (raw : IngressEnvelope)
    (normalizedAt : Int) (draft : ObservationDraft) : Option (Observation Json V) := do
  let bytes ← normalizedBytes codec raw normalizedAt draft
  let env ← (codec.loads bytes).bind (readEnvelope codec)
  let read ← (draftFromEnvelope env).toOption
  let called ← ingestCall { surroundings with summaries := none } env.tenantId env.sourceChannel
    read (some env.rawS3Key) (some env.ingressKind) false
  return called.2.observation

def contentAt (row : Observation Json V) (key : String) : Option Json :=
  (Summaries.decodeJsonContent row.content).lookup key

structure SameColumns (row other : Observation Json V) : Prop where
  tenantId : row.tenantId = other.tenantId
  occurredAt : row.occurredAt = other.occurredAt
  kind : row.kind = other.kind
  sourceChannel : row.sourceChannel = other.sourceChannel
  sourceActorRef : row.sourceActorRef = other.sourceActorRef
  actorId : row.actorId = other.actorId
  content : ∀ key, contentAt row key = contentAt other key
  contentText : row.contentText = other.contentText
  trustTier : row.trustTier = other.trustTier
  externalId : row.externalId = other.externalId
  causeId : row.causeId = other.causeId
  entitiesMentioned : row.entitiesMentioned = other.entitiesMentioned

def derivedPhrases (repositories : Repositories) (tenantId : Nat) (contentText : String) :
    List String :=
  match repositories.aliases with
  | some aliases =>
    if contentText = "" then []
    else (candidatePhrases contentText).filter fun phrase =>
      (aliases tenantId (normalizePhrase phrase)).isNone && looksLikeEntity phrase
  | none => []

def ObservationDraft.overWire (draft : ObservationDraft) : ObservationDraft :=
  { draft with unresolvedPhrases := [], rawPayload := none }

/-- The phrases that are stored: the derived ones, or what the content has. The draft's
own come first; they are lost unless the derived ones begin with them. -/
def PhrasesSurvive (derived own : List String) (content other : Fields) : Prop :=
  (own <+: derived ∧ (derived = [] →
    content.lookup "_unresolved_phrases" = other.lookup "_unresolved_phrases")) ∨
  (¬ own <+: derived ∧ derived = [] ∧
    other.lookup "_unresolved_phrases" = some (.array (own.map Json.string)))

/-- The enrichers do the same without the raw payload, but for keys that the core
takes out or writes over, and the draft's own phrases survive. -/
structure SurvivesWire (surroundings : Surroundings V) (tenantId : Nat)
    (draft : ObservationDraft) : Prop where
  text : (draft.enriched surroundings draft.sourceChannel).contentText =
    (draft.overWire.enriched surroundings draft.sourceChannel).contentText
  content : ∀ key, key ≠ "_cause_event_id" → key ≠ "_unresolved_actor_ref" →
    key ≠ "_unresolved_phrases" →
      (draft.enriched surroundings draft.sourceChannel).content.lookup key =
        (draft.overWire.enriched surroundings draft.sourceChannel).content.lookup key
  cause : causeIdOf (draft.enriched surroundings draft.sourceChannel).content =
    causeIdOf (draft.overWire.enriched surroundings draft.sourceChannel).content
  actorRef : (resolveActor surroundings.repositories draft).unresolvedActorRef = none →
    (draft.enriched surroundings draft.sourceChannel).content.lookup "_unresolved_actor_ref" =
      (draft.overWire.enriched surroundings draft.sourceChannel).content.lookup
        "_unresolved_actor_ref"
  phrases : PhrasesSurvive
    (derivedPhrases surroundings.repositories tenantId
      (draft.enriched surroundings draft.sourceChannel).contentText)
    draft.unresolvedPhrases (draft.enriched surroundings draft.sourceChannel).content
    (draft.overWire.enriched surroundings draft.sourceChannel).content

def WriterAccepts (draft : ObservationDraft) : Prop :=
  draft.sourceChannel ≠ "" ∧ validateIngestJsonPayload draft.content = .ok ()

theorem nodup_collectPhrases {maxPhrases : Nat} {grams : List String}
    (hnd : (phrases.map normalizePhrase).Nodup) :
    ((collectPhrases maxPhrases phrases grams).map normalizePhrase).Nodup := by
  induction grams generalizing phrases with
  | nil => exact hnd
  | cons gram rest ih =>
    rw [collectPhrases]
    split
    · exact ih hnd
    · next hn =>
      have hg : ((phrases ++ [gram]).map normalizePhrase).Nodup := by
        rw [map_append, map_singleton, nodup_append_comm, singleton_append, nodup_cons]
        exact ⟨fun hs => hn (.inr hs), hnd⟩
      split
      · exact hg
      · exact ih hg

theorem nodup_candidatePhrases (text : String) : (candidatePhrases text).Nodup := by
  apply List.Nodup.of_map normalizePhrase
  exact nodup_collectPhrases nodup_nil

section

variable {aliases : String → Option Fields} {phrases : List String} {found other : EntityResolution}

theorem unresolvedPhrases_foldl (hnd : phrases.Nodup) :
    (phrases.foldl (add aliases) found).unresolvedPhrases =
      found.unresolvedPhrases ++ phrases.filter fun phrase =>
        ((aliases (normalizePhrase phrase)).isNone && looksLikeEntity phrase) &&
          !found.unresolvedPhrases.contains phrase := by
  induction phrases generalizing found with
  | nil => simp
  | cons phrase rest ih =>
    obtain ⟨hf, ht⟩ := nodup_cons.mp hnd
    rw [foldl_cons, ih ht]
    unfold add
    split
    · next ref hr =>
      split <;> simp [hr]
    · next hn =>
      split
      · next ha =>
        rw [filter_cons, if_pos (by simpa [hn] using ha), append_assoc, singleton_append]
        congr 2
        apply filter_congr
        intro u hl
        have hne : u ≠ phrase := by
          rintro rfl
          exact hf hl
        simp [hne]
      · next hs =>
        rw [filter_cons, if_neg (by simpa [hn] using hs)]

theorem entitiesMentioned_add (phrase : String) : (found.add aliases phrase).entitiesMentioned =
      match aliases (normalizePhrase phrase) with
      | some ref =>
        if refKey ref ∈ found.entitiesMentioned.map refKey then found.entitiesMentioned
        else found.entitiesMentioned ++ [ref]
      | none => found.entitiesMentioned := by
  unfold add
  cases aliases (normalizePhrase phrase) <;> dsimp only <;> split <;> rfl

theorem entitiesMentioned_foldl (hs : found.entitiesMentioned = other.entitiesMentioned) :
    (phrases.foldl (add aliases) found).entitiesMentioned =
      (phrases.foldl (add aliases) other).entitiesMentioned := by
  induction phrases generalizing found other with
  | nil => exact hs
  | cons phrase rest ih =>
    apply ih
    rw [entitiesMentioned_add, entitiesMentioned_add, hs]

end

theorem unresolvedPhrases_resolveEntities (repositories : Repositories) (tenantId : Nat)
    (draft : ObservationDraft) : (resolveEntities repositories tenantId draft).unresolvedPhrases =
      draft.unresolvedPhrases ++
        (derivedPhrases repositories tenantId draft.contentText).filter fun phrase =>
          !draft.unresolvedPhrases.contains phrase := by
  unfold resolveEntities derivedPhrases
  cases repositories.aliases with
  | none => simp
  | some aliases =>
    dsimp only
    split
    · simp
    · rw [unresolvedPhrases_foldl (nodup_candidatePhrases _), filter_filter]
      simp [Bool.and_comm]

variable {tenantId : Nat} {draft : ObservationDraft} {surroundings : Surroundings V}
  {row : Observation Json V}

theorem entitiesMentioned_resolveEntities (hh : draft.entitiesHint = other.entitiesHint)
    (ht : draft.contentText = other.contentText) :
    (resolveEntities repositories tenantId draft).entitiesMentioned =
      (resolveEntities repositories tenantId other).entitiesMentioned := by
  unfold resolveEntities
  rw [ht]
  split
  · split
    · exact hh
    · exact entitiesMentioned_foldl hh
  · exact hh

theorem nodup_derivedPhrases (repositories : Repositories) (tenantId : Nat) (contentText : String) :
    (derivedPhrases repositories tenantId contentText).Nodup := by
  unfold derivedPhrases
  split
  · split
    · exact nodup_nil
    · exact (nodup_candidatePhrases contentText).filter _
  · exact nodup_nil

/-- Phrases that are put before the derived ones, and taken out of them, are noticed
unless the derived ones begin with them. -/
theorem append_filter_eq_iff {own : List String} (hn : derived.Nodup) :
    own ++ derived.filter (fun phrase => !own.contains phrase) = derived ↔ own <+: derived := by
  constructor
  · intro he
    exact ⟨_, he⟩
  · rintro ⟨rest, rfl⟩
    have hd := (nodup_append.mp hn).2.2
    rw [filter_append, filter_eq_nil_iff.mpr, nil_append, filter_eq_self.mpr]
    · intro phrase hp
      simpa using fun ho => hd phrase ho phrase hp rfl
    · intro phrase hp
      simpa using hp

def draftRow (surroundings : Surroundings V) (tenantId : Nat) (draft : ObservationDraft) :
    Option (Observation Json V) :=
  let seen := draft.enriched surroundings draft.sourceChannel
  buildObservationCreate tenantId seen (resolveActor surroundings.repositories seen)
    (resolveEntities surroundings.repositories tenantId seen)
    (computeEmbedding surroundings.embedder seen.contentText)

theorem row_ingestCall (surroundings : Surroundings V) (tenantId : Nat) (draft : ObservationDraft)
    (rawS3Key ingressKind : Option String) :
    (ingestCall { surroundings with summaries := none } tenantId draft.sourceChannel draft rawS3Key
      ingressKind false).map (fun called => called.2.observation) =
        draftRow surroundings tenantId draft := by
  unfold ingestCall
  rw [if_neg (not_not.mpr rfl), Option.map_map]
  exact Option.map_id'

theorem kafkaRow_of_accepts (hr : Validated raw) (hc : Carries codec raw normalizedAt draft)
    (ht : draft.trustTier ≠ "") (ha : WriterAccepts draft) :
    kafkaRow codec surroundings raw normalizedAt draft =
      draftRow surroundings raw.tenantId draft.overWire := by
  have hn : Nameable draft := ⟨ha.1, ht⟩
  have hrd : draftFromEnvelope (normalizedEnvelope raw draft) = .ok draft.overWire := by
    simp only [draftFromEnvelope, normalizedEnvelope, ha.2]
    rfl
  obtain ⟨bytes, hb, hl⟩ := Option.bind_eq_some_iff.mp hc.document
  rw [← row_ingestCall surroundings raw.tenantId draft.overWire (some raw.rawS3Key)
    (some raw.ingressKind)]
  simp only [kafkaRow, normalizedBytes, if_pos hn, hb, Option.bind_eq_bind,
    Option.bind_some, hl, readEnvelope_envelopeDict hr hc hn, hrd,
    Except.toOption, Option.pure_def, Option.map_eq_bind]
  rfl

theorem accepts_of_kafkaRow (hrw : Validated raw) (hc : Carries codec raw normalizedAt draft)
    (hr : kafkaRow codec surroundings raw normalizedAt draft = some row) : WriterAccepts draft := by
  obtain ⟨bytes, hb, hr⟩ := Option.bind_eq_some_iff.mp hr
  obtain ⟨hn, hdm⟩ := Option.ite_none_right_eq_some.mp hb
  obtain ⟨env, he, hr⟩ := Option.bind_eq_some_iff.mp hr
  obtain ⟨read, hrd, -⟩ := Option.bind_eq_some_iff.mp hr
  have hd := hc.document
  rw [hdm, Option.bind_some] at hd
  rw [hd, Option.bind_some, readEnvelope_envelopeDict hrw hc hn] at he
  cases he
  refine ⟨hn.1, ?_⟩
  unfold draftFromEnvelope at hrd
  cases hv : validateIngestJsonPayload draft.content with
  | ok => rfl
  | error =>
    rw [show (normalizedEnvelope raw draft).content = draft.content from rfl, hv] at hrd
    cases hrd

theorem contentAt_of_build
    (hb : buildObservationCreate tenantId draft actor entities embedding = some row)
    (key : String) : contentAt row key =
      if key = "_cause_event_id" then none
      else (notedContent draft.content actor.unresolvedActorRef entities.unresolvedPhrases).lookup
        key := by
  obtain ⟨-, he⟩ := Option.ite_none_right_eq_some.mp hb
  cases he
  exact Dict.lookup_pop _ _ _

theorem causeIdOf_notedContent (content : Fields) (ref : Option String) (phrases : List String) :
    causeIdOf (notedContent content ref phrases) = causeIdOf content := by
  simp [causeIdOf, lookup_notedContent]

theorem storedPhrases_eq_iff {ref : Option String} (hnd : derived.Nodup) : (notedContent content ref
      (own ++ derived.filter fun phrase => !own.contains phrase)).lookup "_unresolved_phrases" =
        (notedContent other ref derived).lookup "_unresolved_phrases" ↔
          PhrasesSurvive derived own content other := by
  have h1 : own ++ derived.filter (fun phrase => !own.contains phrase) = derived ↔
      own <+: derived := append_filter_eq_iff hnd
  simp only [lookup_notedContent]
  by_cases hp : own <+: derived
  · rw [h1.mpr hp]
    by_cases hn : derived = []
    · subst hn
      simp [PhrasesSurvive, prefix_nil.mp hp]
    · simp [PhrasesSurvive, hp, hn]
  · have ho : own ≠ [] := by
      rintro rfl
      exact hp nil_prefix
    by_cases hn : derived = []
    · subst hn
      simp [PhrasesSurvive, ho]
      exact eq_comm
    · have hs : Function.Injective (List.map Json.string) :=
        map_injective_iff.mpr fun _ _ he => Json.string.inj he
      have hd := fun he => hp (h1.mp (hs (Json.array.inj (Option.some.inj he))))
      simp only [PhrasesSurvive, hp, hn, false_and, and_false, or_false, iff_false]
      simpa [ho, hn] using hd

section

variable {surroundings : Surroundings V} {embedder : Option (String → Option V)} {tenantId : Nat}
  {draft : ObservationDraft} {row other : Observation Json V}

theorem phrases_eq_iff (ht : (draft.enriched surroundings draft.sourceChannel).contentText =
      (draft.overWire.enriched surroundings draft.sourceChannel).contentText) (ref : Option String) :
    (notedContent (draft.enriched surroundings draft.sourceChannel).content ref
      (resolveEntities surroundings.repositories tenantId
        (draft.enriched surroundings draft.sourceChannel)).unresolvedPhrases).lookup
          "_unresolved_phrases" =
    (notedContent (draft.overWire.enriched surroundings draft.sourceChannel).content ref
      (resolveEntities surroundings.repositories tenantId
        (draft.overWire.enriched surroundings draft.sourceChannel)).unresolvedPhrases).lookup
          "_unresolved_phrases" ↔ PhrasesSurvive (derivedPhrases surroundings.repositories tenantId
        (draft.enriched surroundings draft.sourceChannel).contentText)
      draft.unresolvedPhrases (draft.enriched surroundings draft.sourceChannel).content
      (draft.overWire.enriched surroundings draft.sourceChannel).content := by
  rw [unresolvedPhrases_resolveEntities, unresolvedPhrases_resolveEntities, ← ht]
  have hn : (draft.overWire.enriched surroundings draft.sourceChannel).unresolvedPhrases = [] :=
    rfl
  simp only [hn, contains_nil, Bool.not_false, filter_true, nil_append]
  exact storedPhrases_eq_iff (nodup_derivedPhrases _ _ _)

theorem notedContent_eq_iff :
    (∀ key, key ≠ "_cause_event_id" → (notedContent content ref phrases).lookup key =
      (notedContent wire ref derived).lookup key) ↔
    (∀ key, key ≠ "_cause_event_id" → key ≠ "_unresolved_actor_ref" → key ≠ "_unresolved_phrases" →
      content.lookup key = wire.lookup key) ∧ (ref = none →
      content.lookup "_unresolved_actor_ref" = wire.lookup "_unresolved_actor_ref") ∧
    (notedContent content ref phrases).lookup "_unresolved_phrases" =
      (notedContent wire ref derived).lookup "_unresolved_phrases" := by
  constructor
  · intro ha
    refine ⟨fun key hcs hr hp => ?_, fun hn => ?_, ha _ (by decide)⟩
    · simpa [lookup_notedContent, hr, hp] using ha key hcs
    · simpa [lookup_notedContent, hn] using ha "_unresolved_actor_ref" (by decide)
  · rintro ⟨hc, hac, hp⟩ key hcs
    by_cases hs : key = "_unresolved_phrases"
    · rw [hs]
      exact hp
    · by_cases hr : key = "_unresolved_actor_ref"
      · subst hr
        cases ref with
        | none => simpa [lookup_notedContent] using hac rfl
        | some => simp [lookup_notedContent]
      · simpa [lookup_notedContent, hs, hr] using hc key hcs hr hs

theorem sameColumns_of_builds {read : ObservationDraft}
    {others : EntityResolution} {wireEmbedding : Option V}
    (hr : buildObservationCreate tenantId seen actor entities embedding = some row)
    (ho : buildObservationCreate tenantId read actor others wireEmbedding = some other)
    (hrd : read.occurredAt = seen.occurredAt ∧ read.kind = seen.kind ∧
      read.sourceChannel = seen.sourceChannel ∧ read.sourceActorRef = seen.sourceActorRef ∧
        read.trustTier = seen.trustTier ∧ read.externalId = seen.externalId) :
    SameColumns row other ↔
      seen.contentText = read.contentText ∧ causeIdOf seen.content = causeIdOf read.content ∧
        (∀ key, key ≠ "_cause_event_id" →
          (notedContent seen.content actor.unresolvedActorRef entities.unresolvedPhrases).lookup key =
            (notedContent read.content actor.unresolvedActorRef others.unresolvedPhrases).lookup
              key) ∧
        entities.entitiesMentioned.map Json.object = others.entitiesMentioned.map Json.object := by
  have hc := contentAt_of_build hr
  have hw := contentAt_of_build ho
  obtain ⟨-, heq⟩ := Option.ite_none_right_eq_some.mp hr
  obtain ⟨-, heqt⟩ := Option.ite_none_right_eq_some.mp ho
  cases heq
  cases heqt
  constructor
  · intro hs
    have hcs := hs.causeId
    simp only [causeIdOf_notedContent] at hcs
    refine ⟨hs.contentText, hcs, fun key hke => ?_, hs.entitiesMentioned⟩
    have ha := hs.content key
    rwa [hc, hw, if_neg hke, if_neg hke] at ha
  · rintro ⟨htx, hcs, hky, hen⟩
    obtain ⟨hoc, hk, hch, hrf, ht, he⟩ := hrd
    refine ⟨rfl, hoc.symm, hk.symm, hch.symm, hrf.symm, rfl, fun key => ?_, htx,
      ht.symm, he.symm, ?_, hen⟩
    · rw [hc, hw]
      split
      · rfl
      · next hke => exact hky key hke
    · simpa only [causeIdOf_notedContent] using hcs

theorem sameColumns_iff (hr : draftRow surroundings tenantId draft = some row)
    (ho : draftRow { surroundings with embedder } tenantId draft.overWire = some other) :
    SameColumns row other ↔ SurvivesWire surroundings tenantId draft := by
  rw [sameColumns_of_builds hr ho ⟨rfl, rfl, rfl, rfl, rfl, rfl⟩, notedContent_eq_iff]
  constructor
  · rintro ⟨ht, hcs, ⟨hc, ha, hp⟩, -⟩
    exact ⟨ht, hc, hcs, ha, (phrases_eq_iff ht _).mp hp⟩
  · intro hs
    have he : (resolveEntities surroundings.repositories tenantId
        (draft.enriched surroundings draft.sourceChannel)).entitiesMentioned =
          (resolveEntities surroundings.repositories tenantId
            (draft.overWire.enriched surroundings draft.sourceChannel)).entitiesMentioned :=
      entitiesMentioned_resolveEntities rfl hs.text
    exact ⟨hs.text, hs.cause, ⟨hs.content, hs.actorRef,
      (phrases_eq_iff hs.text _).mpr hs.phrases⟩, congrArg _ he⟩

end

theorem valid_of_draftRow (hr : draftRow surroundings tenantId draft = some row) :
    draft.kind ∈ observationKinds ∧ draft.trustTier ∈ validTrustTiers :=
  (Option.ite_none_right_eq_some.mp hr).1

/-- The Kafka path writes the row of the inline path exactly when the writer lets the
draft through and what the wire drops makes no difference. -/
theorem path_parity_iff {codec : Codec Bytes} {surroundings : Surroundings V}
    {embedder : Option (String → Option V)} {raw : IngressEnvelope} {normalizedAt : Int}
    {draft : ObservationDraft} {row : Observation Json V} (hraw : Validated raw)
    (hcarries : Carries codec raw normalizedAt draft)
    (hinline : inlineRow surroundings raw.tenantId draft = some row) :
    (∃ other, kafkaRow codec { surroundings with embedder } raw normalizedAt draft = some other ∧
      SameColumns row other) ↔
    WriterAccepts draft ∧ SurvivesWire surroundings raw.tenantId draft := by
  have hrow : draftRow surroundings raw.tenantId draft = some row := by
    rw [← hinline, ← row_ingestCall surroundings raw.tenantId draft none none]
    rfl
  have hvalid := valid_of_draftRow hrow
  have htier : draft.trustTier ≠ "" := by
    rintro hempty
    rw [hempty] at hvalid
    exact absurd hvalid.2 (by decide)
  constructor
  · rintro ⟨other, hkafka, hsame⟩
    have haccepts := accepts_of_kafkaRow hraw hcarries hkafka
    rw [kafkaRow_of_accepts hraw hcarries htier haccepts] at hkafka
    exact ⟨haccepts, (sameColumns_iff hrow hkafka).mp hsame⟩
  · rintro ⟨haccepts, hsurvives⟩
    rw [kafkaRow_of_accepts hraw hcarries htier haccepts]
    obtain ⟨other, hother⟩ : ∃ other,
        draftRow { surroundings with embedder } raw.tenantId draft.overWire = some other :=
      ⟨_, if_pos hvalid⟩
    exact ⟨other, hother, (sameColumns_iff hrow hother).mpr hsurvives⟩

def plainCodec : Codec Json where
  dumps := some
  loads := some
  isoformat _ := "1970-01-01T00:00:00Z"
  datetime _ := some 0
  uuidText _ := "00000000-0000-0000-0000-000000000007"
  uuid _ := some 7

def slackRaw : IngressEnvelope where
  source := "slack"
  tenantId := 7
  rawS3Key := "raw/slack"
  contentHash := "0000000000000000000000000000000000000000"
  ingestedAt := 0
  ingressKind := "webhook"
  ingressMetadata := []
  idemHints := []

def plainSurroundings : Surroundings Unit where
  repositories := { actors := none, aliases := some fun _ _ => none }
  enrich _ content contentText _ _ := (content, contentText)
  embedder := none
  summaries := none

def slackDraft (unresolvedPhrases : List String) : ObservationDraft where
  sourceChannel := "slack:message"
  contentText := "Acme-Corp"
  content := []
  occurredAt := 0
  trustTier := "reputable"
  unresolvedPhrases

theorem validated_slackRaw : Validated slackRaw :=
  ⟨by decide, by decide, by decide, by decide⟩

theorem carries_slackDraft (unresolvedPhrases : List String) :
    Carries plainCodec slackRaw 0 (slackDraft unresolvedPhrases) :=
  ⟨rfl, rfl, rfl, rfl, rfl⟩

theorem derivedPhrases_acme :
    derivedPhrases plainSurroundings.repositories 7 "Acme-Corp" = ["Acme-Corp"] := by
  decide +kernel

theorem path_parity_slack : ∃ row,
    inlineRow plainSurroundings 7 (slackDraft ["Acme-Corp"]) = some row ∧ ∃ other,
      kafkaRow plainCodec plainSurroundings slackRaw 0 (slackDraft ["Acme-Corp"]) = some other ∧
        SameColumns row other := by
  obtain ⟨row, hrow⟩ : ∃ row, inlineRow plainSurroundings 7 (slackDraft ["Acme-Corp"]) = some row :=
    ⟨_, rfl⟩
  have haccepts : WriterAccepts (slackDraft ["Acme-Corp"]) := ⟨by decide, by decide +kernel⟩
  have hsurvives : SurvivesWire plainSurroundings slackRaw.tenantId (slackDraft ["Acme-Corp"]) := by
    refine ⟨rfl, fun _ _ _ _ => rfl, rfl, fun _ => rfl, .inl ⟨?_, fun _ => rfl⟩⟩
    exact derivedPhrases_acme ▸ prefix_rfl
  exact ⟨row, hrow, (path_parity_iff validated_slackRaw (carries_slackDraft _) hrow).mpr
    ⟨haccepts, hsurvives⟩⟩

/-- A phrase of the handler's own, which the core does not find in the text, is lost. -/
theorem own_phrase_lost : ¬ ∀ (codec : Codec Json) (surroundings : Surroundings Unit)
    (raw : IngressEnvelope) (normalizedAt : Int) (draft : ObservationDraft)
    (row : Observation Json Unit), Validated raw → Carries codec raw normalizedAt draft →
      inlineRow surroundings raw.tenantId draft = some row →
        ∃ other, kafkaRow codec surroundings raw normalizedAt draft = some other ∧
          SameColumns row other := by
  intro hall
  obtain ⟨row, hrow⟩ : ∃ row, draftRow plainSurroundings 7 (slackDraft ["Globex"]) = some row :=
    ⟨_, rfl⟩
  obtain ⟨other, hkafka, hsame⟩ := hall plainCodec plainSurroundings slackRaw 0
    (slackDraft ["Globex"]) row validated_slackRaw (carries_slackDraft _) hrow
  have hphrases := ((sameColumns_iff hrow hkafka).mp hsame).phrases
  rcases hphrases with ⟨hpresent, -⟩ | ⟨-, hnone, -⟩
  · exact absurd hpresent (by decide)
  · cases hnone

end FyralisCore.Ingestion.Drafts
