import FyralisCore.Observations.StateChange
import FyralisCore.Substrate.Plans

/-! Promotion and resolution of candidates (`substrate_promotion.py`): the canonical rows
that a plan asks for, and the scopes and links that follow them. -/
namespace FyralisCore.Substrate

open Relational Transaction ReadCommitted Tx
open Acts (Json Clock strip)

section

variable (rules : SubstrateRules)

def uuidFromRef (ref : Fields) : Option Nat :=
  (((ref.lookup "id").filter Models.notNull).or
    ((ref.lookup "resource_id").filter Models.notNull)).bind fun raw => rules.uuid (text rules raw)

def refType (ref : Fields) : String :=
  textOr rules (ref.lookup "type") ""

def customerResourceIdFromRef (ref : Fields) (kind : SubstrateKind) : Option Nat :=
  if refType rules ref = "customer" ∨ (refType rules ref = "resource" ∧ kind = .customer) then
    uuidFromRef rules ref
  else none

def commitmentIdFromRef (ref : Fields) : Option Nat :=
  if refType rules ref = "commitment" then uuidFromRef rules ref else none

def markedBy (key : String) (id : Nat) (metadata : Fields) : Bool :=
  match metadata.lookup key with
  | some (.string marker) => marker == toString id
  | _ => false

def objects (values : List Json) : List Fields :=
  values.filterMap fun
    | .object fields => some fields
    | _ => none

/-- `scope_entities @> [ref]`, for a reference of two texts. -/
def holdsRef (entities : List Json) (type id : String) : Bool :=
  (objects entities).any fun fields =>
    match fields.lookup "type", fields.lookup "id" with
    | some (.string found), some (.string named) => found == type && named == id
    | _, _ => false

def appendUniqueScopeRef (entities : List Fields) (ref : Fields) : List Fields :=
  let key := fun (item : Fields) =>
    (refType rules item, text rules ((item.lookup "id").getD .null))
  if refType rules ref = "" ∨ ((ref.lookup "id").filter Models.notNull).isNone then entities
  else if entities.any fun item => key item = key ref then entities
  else entities ++ [ref]

def noLock (_ : SubstrateDb) : Option CandidateKey := none

def execute (write : SubstrateWrite) : SubstrateTx Unit :=
  constrained noLock (fun _ => []) write

def onActs {α : Type} (body : Acts.ActTx α) : SubstrateTx α :=
  body.within SubstrateDb.acts .act .act

def SubstrateCandidate.holdsModel (candidate : SubstrateCandidate) (row : Models.ModelRow) : Bool :=
  row.tenantId = candidate.tenantId ∧ row.status = .active ∧
    holdsRef row.scopeEntities ("candidate_" ++ candidate.kind.text) (toString candidate.id)

def scopedModels (candidate : SubstrateCandidate) (db : SubstrateDb) :
    List (Nat × Models.ModelRow) :=
  db.models.rows.filter fun entry => candidate.holdsModel entry.2

def scopeRow (clock : Clock) (candidate : SubstrateCandidate) : Models.ScopeRow where
  tenantId := candidate.tenantId
  source := "substrate_promotion"
  confidence := candidate.confidence
  createdAt := clock.transactionNow

/-- An INSERT into one of the two scope tables, whose CHECK bounds the confidence. -/
def upsertScope (table : String) (candidate : SubstrateCandidate) (write : SubstrateWrite) :
    SubstrateTx Unit :=
  constrained noLock
    (fun _ => [(decide (0 ≤ candidate.confidence ∧ candidate.confidence ≤ 1), .check table)]) write

def entityOfRef (ref : Fields) : Option (String × Nat) :=
  if refType rules ref = "" then none
  else (uuidFromRef rules ref).map fun id => (refType rules ref, id)

/-- The body of the loop of `backfill_promoted_candidate_scopes`. -/
def backfillModel (clock : Clock) (candidate : SubstrateCandidate) (canonicalRefs : List Fields)
    (actorId : Option Nat) (modelId : Nat) (row : Models.ModelRow) : SubstrateTx Unit := do
  let scopeActors := row.scopeActors.eraseDups
  execute (.setModelScopes candidate.tenantId modelId
    (scopeActors ++ (actorId.filter (· ∉ scopeActors)).toList)
    ((canonicalRefs.foldl (appendUniqueScopeRef rules) (objects row.scopeEntities)).map
      Json.object))
  forSome actorId fun actorId =>
    upsertScope "model_scope_actors" candidate
      (.upsertScopeActor modelId actorId (scopeRow clock candidate))
  forEach (canonicalRefs.filterMap (entityOfRef rules)) fun (entityType, entityId) =>
    upsertScope "model_scope_entities" candidate
      (.upsertScopeEntity modelId entityType entityId (scopeRow clock candidate))

def backfillPromotedCandidateScopes (clock : Clock) (candidate : SubstrateCandidate)
    (canonicalRefs : List Fields) (actorId : Option Nat) : SubstrateTx Nat :=
  let refs := canonicalRefs.filter (!·.isEmpty)
  if actorId = none ∧ refs.isEmpty then .done 0
  else do
    let rows ← read (scopedModels candidate)
    forEach rows fun (modelId, row) =>
      backfillModel rules clock candidate refs actorId modelId row
    return rows.length

def backfillCanonicalRefForCandidate (clock : Clock) (candidate : SubstrateCandidate)
    (canonicalRef : Option Fields) : SubstrateTx Nat :=
  match canonicalRef.filter (!·.isEmpty) with
  | none => .done 0
  | some ref =>
    match (if refType rules ref = "actor" then uuidFromRef rules ref else none) with
    | some actorId =>
      backfillPromotedCandidateScopes rules clock candidate [] (some actorId)
    | none =>
      if refType rules ref ∈ ["customer", "resource", "commitment", "goal", "decision"] then
        backfillPromotedCandidateScopes rules clock candidate [ref] none
      else .done 0

def distinctPhrases (mappings : List AliasMapping) : List (String × ℚ) :=
  distinct (fun first second => rules.casefold first.1 == rules.casefold second.1)
    (mappings.filterMap fun
      | .entity phrase _ confidence =>
        if strip phrase = "" then none else some (strip phrase, confidence)
      | .actor _ _ _ => none)

end

/-- The INSERT of `_insert_entity_aliases`, unless the alias is there. -/
def insertEntityAlias (rules : SubstrateRules) (row : EntityAliasRow) : SubstrateTx Unit := do
  let aliasId ← newId
  query noLock fun db =>
    if db.entityAliases.any fun _ found =>
        found.tenantId = row.tenantId ∧ found.aliasText = row.aliasText ∧ found.actorId = none ∧
        rules.jsonbEq (.object found.resolvedEntityRef) (.object row.resolvedEntityRef) then
      .ok ([], ())
    else if (tenantExists "entity_aliases" row.tenantId db).1 then
      .ok ([.insertEntityAlias aliasId row], ())
    else .error (.database (tenantExists "entity_aliases" row.tenantId db).2)

def insertEntityAliases (rules : SubstrateRules) (candidate : SubstrateCandidate)
    (canonicalRef : Fields) (mappings : List AliasMapping) (sourceEventId : Nat) :
    SubstrateTx Unit :=
  forEach (distinctPhrases rules mappings) fun (phrase, confidence) =>
    insertEntityAlias rules
      { tenantId := candidate.tenantId
        aliasText := phrase
        resolvedEntityRef := canonicalRef
        isCanonical := rules.casefold phrase == rules.casefold candidate.label
        entityMetadata :=
          [("source", .string "resolver_worker"),
            ("promoted_from_candidate_id", idText candidate.id),
            ("candidate_kind", .string candidate.kind.text)]
        confidence := confidence
        sourceEventId := some sourceEventId }

/-! ### Links between customers and commitments -/

def linkResourceError (tenantId resourceId : Nat) : Option ResourceRow → Option SubstrateError
  | none =>
    some (.validationError "customer_resource_id does not reference any resource"
      [("customer_resource_id", idText resourceId)])
  | some row =>
    if row.kind ≠ .relational then
      some (.validationError ("customer_commitments.customer_resource_id must point " ++
          "to a kind='relational' resource")
        [("customer_resource_id", idText resourceId),
          ("actual_kind", .string (Resources.kindText row.kind))])
    else if row.tenantId ≠ tenantId then
      some (.validationError "customer_resource tenant mismatch"
        [("customer_resource_id", idText resourceId), ("expected_tenant", idText tenantId),
          ("actual_tenant", idText row.tenantId)])
    else none

def linkCommitmentError (tenantId commitmentId : Nat) : Option Nat → Option SubstrateError
  | none =>
    some (.validationError "commitment does not exist" [("commitment_id", idText commitmentId)])
  | some found =>
    if found ≠ tenantId then
      some (.validationError "commitment tenant mismatch"
        [("commitment_id", idText commitmentId), ("expected_tenant", idText tenantId),
          ("actual_tenant", idText found)])
    else none

def linkCommitment (tenantId resourceId commitmentId : Nat) (servedDescription : String) :
    SubstrateTx Unit := do
  require fun db => linkResourceError tenantId resourceId (db.resources.get resourceId)
  require fun db =>
    linkCommitmentError tenantId commitmentId (db.acts.commitmentTenant commitmentId)
  let id ← newId
  execute (.upsertLink resourceId commitmentId
    { id, tenantId, servedDescription := some servedDescription })

def resolvedRelated (candidate : SubstrateCandidate) (db : SubstrateDb) : List CandidateRow :=
  (db.candidates.rows.filter fun entry =>
    entry.2.tenantId = candidate.tenantId ∧ entry.1 ∈ candidate.relatedCandidateIds ∧
      (entry.2.status = .promoted ∨ entry.2.status = .merged)).map Prod.snd

def CandidateRow.linkRef (row : CandidateRow) : Option Fields :=
  row.promotionRef.or row.proposedCanonicalRef

section

variable (rules : SubstrateRules)

/-- The resource and the commitment that a related candidate is to be linked by. -/
def linkedPair (customerResourceId commitmentId : Option Nat) (row : CandidateRow) : Option
    (Nat × Nat) :=
  row.linkRef.bind fun ref =>
    match customerResourceId, commitmentId, row.kind with
    | some resourceId, _, .commitment =>
      (commitmentIdFromRef rules ref).map fun related => (resourceId, related)
    | _, some commitmentId, .customer =>
      (customerResourceIdFromRef rules ref row.kind).map fun related => (related, commitmentId)
    | _, _, _ => none

def customerCommitmentDescription (candidate : SubstrateCandidate) (relatedLabel : String) :
    String :=
  let labels := [candidate.label] ++
    (if relatedLabel ≠ "" ∧ relatedLabel ≠ candidate.label then [relatedLabel] else [])
  "Linked from shared substrate evidence: " ++ " / ".intercalate labels

def plannedLinks (customerResourceId commitmentId : Option Nat) (rows : List CandidateRow) : List
    ((Nat × Nat) × String) :=
  distinct (fun first second => first.1 = second.1) (rows.filterMap fun row =>
      (linkedPair rules customerResourceId commitmentId row).map fun pair => (pair, row.label))

def linkRelatedCustomerCommitmentsForCandidate (candidate : SubstrateCandidate)
    (canonicalRef : Option Fields) : SubstrateTx Nat :=
  match canonicalRef.filter (!·.isEmpty) with
  | none => .done 0
  | some ref =>
    let customerResourceId := customerResourceIdFromRef rules ref candidate.kind
    let commitmentId := commitmentIdFromRef rules ref
    if candidate.relatedCandidateIds = [] ∨ (customerResourceId = none ∧ commitmentId = none) then
      .done 0
    else do
      let rows ← read (resolvedRelated candidate)
      let links := plannedLinks rules customerResourceId commitmentId rows
      forEach links fun ((resourceId, commitmentId), relatedLabel) =>
        linkCommitment candidate.tenantId resourceId commitmentId
          (customerCommitmentDescription candidate relatedLabel)
      return links.length

structure PromotionResult where
  canonicalRef : Fields
  entityId : Nat

def entityRef (type : String) (id : Nat) : Fields :=
  [("type", .string type), ("id", idText id)]

def promotedTo (canonicalRef metadataPatch : Fields) : Resolution where
  status := .promoted
  promotionRef := some canonicalRef
  proposedCanonicalRef := some canonicalRef
  metadataPatch := metadataPatch

def givenPlan (candidate : SubstrateCandidate) (plan : Option CandidatePromotionPlan) : SubstrateTx
    CandidatePromotionPlan :=
  match plan with
  | some plan => .done plan
  | none => ofExcept (planCandidatePromotion rules candidate none)

def notPromotable (article : String) (kind : SubstrateKind) : SubstrateError :=
  .validationError ("candidate is not promotable as " ++ article)
    [("field", .string "candidate.kind"), ("value", .string kind.text)]

def AliasMapping.identity : AliasMapping → Option (IdentityKey × ℚ)
  | .actor sourceChannel sourceActorRef confidence =>
    if sourceChannel = "" ∨ sourceActorRef = "" then none
    else some ({ sourceChannel, sourceActorRef }, confidence)
  | .entity _ _ _ => none

/-- The INSERT into `actor_identity_mappings`, ON CONFLICT on source channel and actor
reference alone. -/
def upsertIdentity (actorId : Nat) (key : IdentityKey) (confidence : ℚ) : SubstrateTx Unit :=
  constrained noLock (fun db => [((db.acts.actors.get actorId).isSome,
      .foreignKey "actor_identity_mappings" "actor_id")])
    (.upsertIdentity key { actorId, confidence })

def insertActor (actorId tenantId : Nat) (actor : ActorPayload) : SubstrateTx Unit :=
  constrained noLock (fun db => [((db.acts.actors.get actorId).isNone, .unique "actors"),
      tenantExists "actors" tenantId db])
    (.insertActor actorId { tenantId }
      { type := actor.type
        displayName := actor.displayName
        email := actor.email
        metadata := actor.metadata })

def promoteActorCandidate (clock : Clock) (candidate : SubstrateCandidate)
    (plan : Option CandidatePromotionPlan) : SubstrateTx PromotionResult := do
  let plan ← givenPlan rules candidate plan
  let actor ← orRaise (if plan.action = .promoteActor then plan.actor else none)
    (notPromotable "an actor" candidate.kind)
  let actorId ← newId
  insertActor actorId candidate.tenantId actor
  let identities := plan.aliasMappings.filterMap AliasMapping.identity
  forEach identities fun (key, confidence) => upsertIdentity actorId key confidence
  let canonicalRef := entityRef "actor" actorId
  markCandidateResolution candidate (promotedTo canonicalRef [("promotion", .string "actor"),
      ("actor_alias_mapping_count", .number (toString identities.length))])
  let _ ← backfillPromotedCandidateScopes rules clock candidate [] (some actorId)
  return { canonicalRef, entityId := actorId }

def candidateCauseEventId (candidate : SubstrateCandidate) : Except SubstrateError Nat :=
  match candidate.evidenceObservationIds with
  | observationId :: _ => .ok observationId
  | [] =>
    .error (.validationError "candidate promotion requires at least one evidence observation"
      [("field", .string "candidate.evidence_observation_ids")])

def ResourcePayload.row (resource : ResourcePayload) (tenantId causeEventId : Nat) :
    ResourceRow where
  tenantId := tenantId
  kind := resource.kind
  identity := resource.identity
  description := some resource.description
  currentValue := resource.currentValue
  valuationConfidence := resource.valuationConfidence
  metadata := some resource.metadata
  lastUpdatedByEventId := some causeEventId

def createResource (clock : Clock) (tenantId causeEventId : Nat) (resource : ResourcePayload) :
    SubstrateTx Nat := do
  ensure (!Acts.isBlank resource.identity)
    (.validationError "identity is required" [("field", .string "identity")])
  let resourceId ← newId
  constrained noLock (fun db => [((db.resources.get resourceId).isNone, .unique "resources"),
      tenantExists "resources" tenantId db])
    (.insertResource resourceId (resource.row tenantId causeEventId))
  let _ ← onActs (Observations.emitStateChange clock
    { kind := "resource_created"
      entityId := resourceId
      tenantId := tenantId
      causeEventId := some causeEventId
      metadata := some [("resource_kind", .text (Resources.kindText resource.kind)),
        ("identity", .text resource.identity), ("utilization_state", .text "available")]
      entityKind := some "resource" })
  return resourceId

def resourceCanonicalRef (kind : SubstrateKind) (resourceId : Nat) : Fields :=
  if kind = .customer then
    [("type", .string "customer"), ("id", idText resourceId), ("resource_id", idText resourceId)]
  else
    [("type", .string "resource"), ("id", idText resourceId), ("semantic_kind", .string kind.text)]

def scopeRefsForResourceCandidate (kind : SubstrateKind) (resourceId : Nat) : List Fields :=
  entityRef "resource" resourceId ::
    if kind = .customer then [entityRef "customer" resourceId] else []

def existingResource (candidate : SubstrateCandidate) (db : SubstrateDb) : Option Nat :=
  (db.resources.rows.find? fun entry =>
    entry.2.tenantId = candidate.tenantId ∧ entry.2.archivedAt = none ∧
      entry.2.metadata.any (markedBy "promoted_from_candidate_id" candidate.id)).map Prod.fst

def foundOr (found : Option Nat) (create : SubstrateTx Nat) : SubstrateTx Nat :=
  match found with
  | some id => .done id
  | none => create

def promoteResourceCandidate (clock : Clock) (candidate : SubstrateCandidate)
    (plan : Option CandidatePromotionPlan) : SubstrateTx PromotionResult := do
  let plan ← givenPlan rules candidate plan
  let resource ← orRaise (if plan.action = .promoteResource then plan.resource else none)
    (notPromotable "a resource" candidate.kind)
  let causeEventId ← ofExcept (candidateCauseEventId candidate)
  let existing ← read (existingResource candidate)
  let resourceId ← foundOr existing (createResource clock candidate.tenantId causeEventId resource)
  let canonicalRef := resourceCanonicalRef candidate.kind resourceId
  insertEntityAliases rules candidate canonicalRef plan.aliasMappings causeEventId
  markCandidateResolution candidate (promotedTo canonicalRef
    [("promotion", .string "resource"), ("resource_id", idText resourceId),
      ("resource_alias_mapping_count", .number (toString plan.aliasMappings.length))])
  let _ ← backfillPromotedCandidateScopes rules clock candidate
    (scopeRefsForResourceCandidate candidate.kind resourceId) none
  let _ ← linkRelatedCustomerCommitmentsForCandidate rules candidate (some canonicalRef)
  return { canonicalRef, entityId := resourceId }

def commitmentPriority (candidate : SubstrateCandidate) : Int :=
  if 9 / 10 ≤ candidate.confidence then 3
  else if 82 / 100 ≤ candidate.confidence then 4
  else 5

def commitmentCapacity (candidate : SubstrateCandidate) : Fields :=
  [("maintenance", .bool true), ("promoted_from_candidate_id", idText candidate.id),
    ("candidate_fingerprint", .string candidate.fingerprint),
    ("candidate_scope_ref", .object candidate.scopeRef)]

def commitmentArgs (candidate : SubstrateCandidate) (causeEventId : Nat) :
    Acts.CommitmentCreate where
  title := candidate.label
  description := some "Proposed commitment inferred from company signals."
  priority := commitmentPriority candidate
  successCriteria := some (.object
    [("source", .string "substrate_candidate"), ("candidate_kind", .string candidate.kind.text),
      ("candidate_confidence", rules.number candidate.confidence),
      ("evidence_observation_ids", .array (candidate.evidenceObservationIds.map idText)),
      ("aliases", aliasesJson candidate)])
  estimatedCapacity := some (.object (commitmentCapacity candidate))
  isMaintenance := some true
  createdByEventId := causeEventId
  tenantId := candidate.tenantId

end

def fieldsOf : Json → Option Fields
  | .object fields => some fields
  | _ => none

def isCommitmentOf (candidateId : Nat) (row : Acts.CommitmentRow) : Bool :=
  (row.estimatedCapacity.bind fieldsOf).any (markedBy "promoted_from_candidate_id" candidateId)

def existingCommitment (candidate : SubstrateCandidate) (db : SubstrateDb) : Option Nat :=
  (db.acts.commitments.rows.find? fun entry =>
    entry.2.tenantId = candidate.tenantId ∧ isCommitmentOf candidate.id entry.2).map Prod.fst

def createCommitment (rules : SubstrateRules) (clock : Clock) (candidate : SubstrateCandidate)
    (causeEventId : Nat) : SubstrateTx Nat := do
  let created ← onActs (Acts.createCommitment clock (commitmentArgs rules candidate causeEventId))
  return created.1

section

variable (rules : SubstrateRules)

def promoteCommitmentCandidate (clock : Clock) (candidate : SubstrateCandidate)
    (confidenceFloor : ℚ) : SubstrateTx PromotionResult := do
  ensure (candidate.kind = .commitment) (notPromotable "a commitment" candidate.kind)
  ensure (confidenceFloor ≤ candidate.confidence)
    (.validationError "commitment candidate confidence is below promotion floor"
      [("field", .string "candidate.confidence"), ("value", rules.number candidate.confidence)])
  let causeEventId ← ofExcept (candidateCauseEventId candidate)
  let existing ← read (existingCommitment candidate)
  let commitmentId ← foundOr existing (createCommitment rules clock candidate causeEventId)
  let canonicalRef := entityRef "commitment" commitmentId
  markCandidateResolution candidate (promotedTo canonicalRef
    [("promotion", .string "commitment"), ("commitment_id", idText commitmentId)])
  let _ ← backfillPromotedCandidateScopes rules clock candidate [canonicalRef] none
  let _ ← linkRelatedCustomerCommitmentsForCandidate rules candidate (some canonicalRef)
  return { canonicalRef, entityId := commitmentId }

def patternConstituentModelIds (candidate : SubstrateCandidate) (db : SubstrateDb) : List Nat :=
  ((db.models.rows.filter fun entry =>
    entry.2.tenantId = candidate.tenantId ∧ entry.2.status = .active ∧
      (holdsRef entry.2.scopeEntities ("candidate_" ++ candidate.kind.text)
          (toString candidate.id) ∨
        entry.1 ∈ candidate.evidenceModelIds)).mergeSort fun entry other =>
          entry.2.createdAt < other.2.createdAt ∨
            (entry.2.createdAt = other.2.createdAt ∧ entry.1 ≤ other.1)).map Prod.fst

def patternSignature (candidate : SubstrateCandidate) : Fields :=
  [("kind", .string "substrate_recurrence"), ("substrate_candidate_id", idText candidate.id),
    ("fingerprint", .string candidate.fingerprint), ("label", .string candidate.label),
    ("signature", (candidate.metadata.lookup "signature").getD .null),
    ("basis", ((candidate.metadata.lookup "basis").filter Models.truthy).getD
      (.string "substrate_candidate"))]

def patternObservedTendency (candidate : SubstrateCandidate) (constituentCount : Nat) (density : ℚ)
    : Fields :=
  [("summary", .string candidate.label), ("exemplars", .array [.string candidate.label]),
    ("candidate_confidence", rules.number candidate.confidence),
    ("cluster_size", .number (toString constituentCount)),
    ("cluster_density", rules.number density),
    ("count_in_context", (candidate.metadata.lookup "count_in_context").getD .null),
    ("actor_fingerprints",
      ((candidate.metadata.lookup "actor_fingerprints").filter Models.truthy).getD (.array [])),
    ("evidence_observation_ids", .array (candidate.evidenceObservationIds.map idText))]

def existingPattern (candidate : SubstrateCandidate) (db : SubstrateDb) : Option Nat :=
  (db.patternCandidates.rows.find? fun entry =>
    entry.2.tenantId = candidate.tenantId ∧
      markedBy "substrate_candidate_id" candidate.id entry.2.proposedSignature).map Prod.fst

def createPattern (candidate : SubstrateCandidate) (constituentIds : List Nat) : SubstrateTx Nat := do
  let patternId ← newId
  let density := max (1 / 2) (min 1 candidate.confidence)
  constrained noLock
    (fun db => [((db.patternCandidates.get patternId).isNone, .unique "pattern_candidates"),
      tenantExists "pattern_candidates" candidate.tenantId db,
      (decide (3 ≤ constituentIds.length), .check "pattern_candidates")])
    (.insertPattern patternId
      { tenantId := candidate.tenantId
        proposedSignature := patternSignature candidate
        observedTendency :=
          patternObservedTendency rules candidate constituentIds.length density
        constituentModelIds := constituentIds
        clusterSize := constituentIds.length
        density })
  return patternId

/-- `_enqueue_pattern_review_if_possible`; the queue is there. -/
def enqueuePatternReview (candidate : SubstrateCandidate) (patternId : Nat) :
    SubstrateTx Unit := do
  let triggerId ← newId
  constrained noLock
    (fun db => [((db.triggerQueue.get triggerId).isNone, .unique "think_trigger_queue"),
      tenantExists "think_trigger_queue" candidate.tenantId db])
    (.insertTrigger triggerId
      { tenantId := candidate.tenantId
        triggerKind := "T4"
        triggerSubkind := some "pattern_review"
        observationId := candidate.evidenceObservationIds.head?
        payload := [("pattern_candidate_id", idText patternId)] })

def promotePatternSubstrateCandidate (candidate : SubstrateCandidate) (requireConstituents : Bool)
    (minConstituents : Nat := 3) : SubstrateTx (Option PromotionResult) := do
  ensure (candidate.kind = .pattern) (notPromotable "a pattern candidate" candidate.kind)
  let constituentIds ← read (patternConstituentModelIds candidate)
  if constituentIds.length < minConstituents then
    if requireConstituents then
      .raise (.validationError
        "pattern candidate promotion requires at least three active model constituents"
        [("field", .string "candidate.evidence_model_ids"),
          ("value", .array (constituentIds.map idText))])
    else return none
  else
    let existing ← read (existingPattern candidate)
    let patternId ← foundOr existing (createPattern rules candidate constituentIds)
    let canonicalRef := entityRef "pattern_candidate" patternId
    markCandidateResolution candidate (promotedTo canonicalRef
      [("promotion", .string "pattern_candidate"), ("pattern_candidate_id", idText patternId),
        ("pattern_constituent_model_count", .number (toString constituentIds.length))])
    enqueuePatternReview candidate patternId
    return some { canonicalRef, entityId := patternId }

def autoPromoteCandidate (clock : Clock) (candidate : SubstrateCandidate)
    (confidenceFloor commitmentConfidenceFloor : ℚ) : SubstrateTx (Option PromotionResult) := do
  if candidate.status ≠ .proposed ∨ candidate.evidenceObservationIds = [] then return none
  else
    let plan ← ofExcept (planCandidatePromotion rules candidate none confidenceFloor)
    match plan.action with
    | .promoteActor => do
      let result ← promoteActorCandidate rules clock candidate (some plan)
      return some result
    | .promoteResource => do
      let result ← promoteResourceCandidate rules clock candidate (some plan)
      return some result
    | .promoteCommitment => do
      let result ← promoteCommitmentCandidate rules clock candidate commitmentConfidenceFloor
      return some result
    | .promotePatternCandidate => promotePatternSubstrateCandidate rules candidate false
    | _ => return none

def markAnswered (candidate : SubstrateCandidate) (answer : Fields) (plan : CandidatePromotionPlan)
    (canonicalRef : Fields) : SubstrateTx CandidatePromotionPlan := do
  let answered := { plan with canonicalRef := some canonicalRef }
  markCandidateResolution candidate (promotedTo canonicalRef
    [("resolution_answer", .object answer), ("resolution", .string plan.action.text),
      ("promotion_plan", answered.toJson rules)])
  return answered

def uuidOrNone (value : Option Json) : Except SubstrateError (Option Nat) :=
  match value with
  | none | some .null | some (.string "") => .ok none
  | some value =>
    match rules.uuid (text rules value) with
    | some id => .ok (some id)
    | none =>
      .error (.validationError "value must be a UUID" [("field", .string "uuid"), ("value", value)])

def applyMerge (clock : Clock) (candidate : SubstrateCandidate) (answer : Fields)
    (plan : CandidatePromotionPlan) : SubstrateTx CandidatePromotionPlan := do
  let mergeTargetId ← ofExcept (uuidOrNone rules (answer.lookup "merge_target_id"))
  ensure (mergeTargetId.isSome || plan.canonicalRef.any (!·.isEmpty))
    (.validationError "merge resolution requires merge_target_id or canonical_ref"
      [("field", .string "answer.merge_target_id")])
  markCandidateResolution candidate
    { status := .merged
      promotionRef := plan.canonicalRef
      mergeTargetId := mergeTargetId
      metadataPatch :=
        [("resolution_answer", .object answer), ("resolution", .string "merge")] }
  let _ ← backfillCanonicalRefForCandidate rules clock candidate plan.canonicalRef
  return plan

def applyLinkExisting (clock : Clock) (candidate : SubstrateCandidate) (answer : Fields)
    (plan : CandidatePromotionPlan) : SubstrateTx CandidatePromotionPlan := do
  ensure (plan.canonicalRef.any (!·.isEmpty))
    (.validationError "link_existing resolution requires canonical_ref"
      [("field", .string "answer.canonical_ref")])
  markCandidateResolution candidate
    { status := .promoted
      promotionRef := plan.canonicalRef
      proposedCanonicalRef := plan.canonicalRef
      metadataPatch :=
        [("resolution_answer", .object answer), ("resolution", .string plan.action.text),
          ("promotion_plan", plan.toJson rules)] }
  let _ ← backfillCanonicalRefForCandidate rules clock candidate plan.canonicalRef
  let _ ← linkRelatedCustomerCommitmentsForCandidate rules candidate plan.canonicalRef
  return plan

def applyPlan (clock : Clock) (candidate : SubstrateCandidate) (answer : Fields)
    (plan : CandidatePromotionPlan) : SubstrateTx CandidatePromotionPlan :=
  match plan.action with
  | .reject => do
    markCandidateResolution candidate
      { status := .rejected
        metadataPatch :=
          [("resolution_answer", .object answer), ("resolution", .string "reject")] }
    return plan
  | .merge => applyMerge rules clock candidate answer plan
  | .promoteActor => do
    let result ← promoteActorCandidate rules clock candidate (some plan)
    markAnswered rules candidate answer plan result.canonicalRef
  | .promoteResource => do
    let result ← promoteResourceCandidate rules clock candidate (some plan)
    markAnswered rules candidate answer plan result.canonicalRef
  | .promoteCommitment => do
    let result ← promoteCommitmentCandidate rules clock candidate 0
    markAnswered rules candidate answer plan result.canonicalRef
  | .promotePatternCandidate => do
    let result ← promotePatternSubstrateCandidate rules candidate true
    let result ← orRaise result (.validationError
      "pattern candidate promotion requires at least three active model constituents"
      [("field", .string "candidate.evidence_model_ids")])
    markAnswered rules candidate answer plan result.canonicalRef
  | .linkExisting => applyLinkExisting rules clock candidate answer plan
  | .askUser => do
    markCandidateResolution candidate
      { status := .needsClarification
        metadataPatch :=
          [("resolution_answer", .object answer), ("resolution", .string "ask_user")] }
    return plan
  | .noop | .keepProvisional => return plan

def applyCandidateResolutionAnswer (clock : Clock) (candidate : SubstrateCandidate)
    (answer : Fields) : SubstrateTx CandidatePromotionPlan := do
  let plan ← ofExcept (planCandidatePromotion rules candidate (some answer))
  applyPlan rules clock candidate answer plan

/-- What is done with a candidate: a discovery, and the two ways to resolve it, on the
snapshot that its transaction has read. -/
inductive SubstrateCall where
  | upsert (args : CandidateUpsert)
  | autoPromote (clock : Clock) (tenantId candidateId : Nat)
    (confidenceFloor commitmentConfidenceFloor : ℚ)
  | answer (clock : Clock) (tenantId candidateId : Nat) (answer : Fields)

def onCandidate (tenantId candidateId : Nat) (body : SubstrateCandidate → SubstrateTx Unit) :
    SubstrateTx Unit := do
  let candidate ← getSubstrateCandidate tenantId candidateId
  forSome candidate body

def substrateProgram : SubstrateCall → SubstrateTx Unit
  | .upsert args => (upsertSubstrateCandidate rules args).bind fun _ => .done ()
  | .autoPromote clock tenantId candidateId confidenceFloor commitmentConfidenceFloor =>
    onCandidate tenantId candidateId fun candidate =>
      (autoPromoteCandidate rules clock candidate confidenceFloor
        commitmentConfidenceFloor).bind fun _ => .done ()
  | .answer clock tenantId candidateId answer =>
    onCandidate tenantId candidateId fun candidate =>
      (applyCandidateResolutionAnswer rules clock candidate answer).bind fun _ => .done ()

def substrateSchema :
    Schema SubstrateDb SubstrateWrite CandidateKey SubstrateError SubstrateCall where
  apply := SubstrateDb.apply rules
  program := substrateProgram rules

end

end FyralisCore.Substrate
