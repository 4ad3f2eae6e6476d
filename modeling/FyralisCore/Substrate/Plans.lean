import FyralisCore.Substrate.Candidates

/-! The plan of what is to become of a candidate (`plan_candidate_promotion`), of its
own evidence or by an answer, with the payloads it carries. -/
namespace FyralisCore.Substrate

open Relational Transaction ReadCommitted
open Acts (Json strip)
open Models (isTruthyAt)

section

variable (rules : SubstrateRules)

def text : Json → String
  | .string value => value
  | value => rules.str value

def textOr (value : Option Json) (fallback : String) : String :=
  ((value.filter Models.truthy).map (text rules)).getD fallback

def floatAt (fields : Fields) (key : String) (fallback : ℚ) : Except SubstrateError ℚ :=
  match fields.lookup key with
  | none => .ok fallback
  | some value =>
    match rules.float value with
    | some number => .ok number
    | none => .error (.python "could not convert to float")

def contains (text part : String) : Bool :=
  text.toList.tails.any fun rest => part.toList.isPrefixOf rest

def items : Json → Except SubstrateError (List Json)
  | .array values => .ok values
  | .object fields => .ok (fields.map fun field => .string field.1)
  | .string value => .ok (value.toList.map fun char => .string (String.singleton char))
  | _ => .error (.python "object is not iterable")

def firstNonEmpty (values : List (Option Json)) : Option String :=
  values.findSome? fun value =>
    ((value.filter Models.notNull).map fun value => strip (text rules value)).filter (· ≠ "")

def idText (id : Nat) : Json := .string (toString id)

def textOrNull (value : Option String) : Json := (value.map Json.string).getD .null

def SubstrateCandidate.scopeRef (candidate : SubstrateCandidate) : Fields :=
  [("type", .string ("candidate_" ++ candidate.kind.text)), ("id", idText candidate.id)]

/-- An entry of `alias_mappings`: of an actor, or of an entity. -/
inductive AliasMapping where
  | actor (sourceChannel sourceActorRef : String) (confidence : ℚ)
  | entity (phrase identity : String) (confidence : ℚ)

def AliasMapping.toJson : AliasMapping → Json
  | .actor sourceChannel sourceActorRef confidence =>
    .object [("source_channel", .string sourceChannel),
      ("source_actor_ref", .string sourceActorRef), ("confidence", rules.number confidence)]
  | .entity phrase identity confidence =>
    .object [("phrase", .string phrase), ("resolved_entity_ref",
        .object [("type", .string "resource"), ("identity", .string identity)]),
      ("source", .string "resolver_worker"), ("confidence", rules.number confidence)]

structure ActorPayload where
  displayName : String
  email : Option String
  type : ActorType
  metadata : Fields

def ActorPayload.toJson (actor : ActorPayload) : Json :=
  .object [("display_name", .string actor.displayName), ("email", textOrNull actor.email),
    ("type", .string actor.type.text), ("metadata", .object actor.metadata)]

structure ResourcePayload where
  kind : Acts.ResourceKind
  identity : String
  description : String
  currentValue : Fields
  metadata : Fields
  valuationConfidence : ℚ

def ResourcePayload.toJson (resource : ResourcePayload) : Json :=
  .object [("kind", .string (Resources.kindText resource.kind)),
    ("identity", .string resource.identity), ("description", .string resource.description),
    ("current_value", .object resource.currentValue), ("metadata", .object resource.metadata),
    ("valuation_confidence", rules.number resource.valuationConfidence)]

def aliasesJson (candidate : SubstrateCandidate) : Json :=
  .array (candidate.aliases.map Json.object)

def actorTypeOfText (text : String) : Option ActorType :=
  [.humanInternal, .humanExternal, .aiAgent].find? fun type => type.text == text

/-- What the domain of an address tells: it is none of the company's. -/
def isForeignAddress (email : String) (companyDomains : List String) : Bool :=
  '@' ∈ email.toList ∧ companyDomains ≠ [] ∧
    rules.casefold (String.ofList (email.toList.reverse.takeWhile (· ≠ '@')).reverse) ∉
      companyDomains

def inferActorType (candidate : SubstrateCandidate) (email : Option String) : Except SubstrateError
    ActorType := do
  let metadata := candidate.metadata
  match actorTypeOfText (strip (textOr rules (metadata.lookup "actor_type") "")) with
  | some explicit => return explicit
  | none =>
    let label := rules.casefold candidate.label
    if contains label "bot" || contains label "agent" || isTruthyAt metadata "is_ai" then
      return .aiAgent
    else
      let values ← match (metadata.lookup "company_domains").filter Models.truthy with
        | none => pure []
        | some domains => items domains
      let companyDomains := values.map fun value =>
        String.ofList ((rules.casefold (text rules value)).toList.dropWhile (· = '@'))
      let address := (email.filter (· ≠ "")).getD (textOr rules (metadata.lookup "email") "")
      let context := rules.casefold (textOr rules (metadata.lookup "source_context") "")
      return if isTruthyAt metadata "external" || isTruthyAt metadata "customer" ||
          isTruthyAt metadata "vendor" || contains context "external" ||
          isForeignAddress rules address companyDomains then .humanExternal
        else .humanInternal

def actorPayloadForCandidate (candidate : SubstrateCandidate) (answer : Fields) : Except
    SubstrateError ActorPayload := do
  let email := firstNonEmpty rules (answer.lookup "email" :: candidate.metadata.lookup "email" ::
      candidate.aliases.map (·.lookup "email"))
  let type ← match actorTypeOfText (strip (textOr rules (answer.lookup "actor_type") "")) with
    | some type => pure type
    | none => inferActorType rules candidate email
  return {
    displayName := strip (textOr rules (answer.lookup "display_name") candidate.label)
    email
    type
    metadata :=
      [("promoted_from_candidate_id", idText candidate.id),
        ("candidate_kind", .string candidate.kind.text),
        ("candidate_fingerprint", .string candidate.fingerprint),
        ("candidate_confidence", rules.number candidate.confidence),
        ("candidate_aliases", aliasesJson candidate)] }

def resourceKindByCandidateKind : SubstrateKind → Option Acts.ResourceKind
  | .customer => some .relational
  | .vendor => some .relational
  | .system => some .infrastructure
  | .workstream => some .capacity
  | _ => none

def resourceKindOfText (text : String) : Option Acts.ResourceKind :=
  [.financial, .ip, .relational, .capacity, .infrastructure, .regulatory].find? fun kind =>
    Resources.kindText kind == text

def resourcePayloadForCandidate (candidate : SubstrateCandidate) (answer : Fields) : Except
    SubstrateError ResourcePayload := do
  let kindText := textOr rules (answer.lookup "resource_kind")
    (textOr rules (candidate.metadata.lookup "resource_kind")
      (Resources.kindText ((resourceKindByCandidateKind candidate.kind).getD .relational)))
  match resourceKindOfText kindText with
  | none =>
    .error (.validationError "candidate resource kind is invalid"
      [("field", .string "resource_kind"), ("value", .string kindText)])
  | some kind =>
    return {
      kind
      identity := strip (textOr rules (answer.lookup "identity") candidate.label)
      description := textOr rules (answer.lookup "description")
        ("Canonical " ++ candidate.kind.text ++ " inferred from company signals.")
      currentValue :=
        [("semantic_kind", .string candidate.kind.text), ("label", .string candidate.label),
          ("candidate_confidence", rules.number candidate.confidence),
          ("aliases", aliasesJson candidate)]
      metadata :=
        [("promoted_from_candidate_id", idText candidate.id),
          ("candidate_kind", .string candidate.kind.text),
          ("candidate_fingerprint", .string candidate.fingerprint),
          ("candidate_scope_ref", .object candidate.scopeRef)]
      valuationConfidence := min 1 (max (5 / 100) candidate.confidence) }

end

def actorAliasMappingsFrom (rules : SubstrateRules) (confidence : ℚ) :
    List (String × String) → List Fields → Except SubstrateError (List AliasMapping)
  | _, [] => .ok []
  | seen, fields :: rest =>
    let sourceChannel := strip (textOr rules (fields.lookup "source_channel") "")
    let sourceActorRef := strip (textOr rules (fields.lookup "source_actor_ref") "")
    if sourceChannel = "" ∨ sourceActorRef = "" ∨
        seen.contains (sourceChannel, sourceActorRef) then
      actorAliasMappingsFrom rules confidence seen rest
    else do
      let own ← floatAt rules fields "confidence" confidence
      let others ← actorAliasMappingsFrom rules confidence
        ((sourceChannel, sourceActorRef) :: seen) rest
      return .actor sourceChannel sourceActorRef own :: others

def actorAliasMappings (rules : SubstrateRules) (candidate : SubstrateCandidate) :
    Except SubstrateError (List AliasMapping) :=
  actorAliasMappingsFrom rules candidate.confidence [] candidate.aliases

def aliasPhrase (fields : Fields) : Option Json :=
  ["alias_text", "phrase", "name"].findSome? fun key =>
    (fields.lookup key).filter Models.truthy

def entityAliasMappingsFrom (rules : SubstrateRules) (identity : String) (confidence : ℚ) :
    List Fields → Except SubstrateError (List AliasMapping)
  | [] => .ok []
  | fields :: rest =>
    match aliasPhrase fields with
    | none => entityAliasMappingsFrom rules identity confidence rest
    | some phrase => do
      let own ← floatAt rules fields "confidence" confidence
      let others ← entityAliasMappingsFrom rules identity confidence rest
      return .entity (text rules phrase) identity own :: others

def entityAliasMappings (rules : SubstrateRules) (candidate : SubstrateCandidate)
    (resource : ResourcePayload) : Except SubstrateError (List AliasMapping) := do
  let others ← entityAliasMappingsFrom rules resource.identity candidate.confidence
    candidate.aliases
  return .entity candidate.label resource.identity candidate.confidence :: others

inductive PlanAction where
  | noop
  | askUser
  | promoteActor
  | promoteResource
  | promoteCommitment
  | promotePatternCandidate
  | keepProvisional
  | reject
  | merge
  | linkExisting
  deriving DecidableEq

def PlanAction.text : PlanAction → String
  | .noop => "noop"
  | .askUser => "ask_user"
  | .promoteActor => "promote_actor"
  | .promoteResource => "promote_resource"
  | .promoteCommitment => "promote_commitment"
  | .promotePatternCandidate => "promote_pattern_candidate"
  | .keepProvisional => "keep_provisional"
  | .reject => "reject"
  | .merge => "merge"
  | .linkExisting => "link_existing"

structure CandidatePromotionPlan where
  candidateId : Nat
  candidateKind : SubstrateKind
  action : PlanAction
  confidence : ℚ
  reason : String
  needsUser : Bool := false
  canonicalKind : Option String := none
  canonicalRef : Option Fields := none
  actor : Option ActorPayload := none
  resource : Option ResourcePayload := none
  aliasMappings : List AliasMapping := []

def CandidatePromotionPlan.toJson (rules : SubstrateRules) (plan : CandidatePromotionPlan) : Json :=
  .object [("candidate_id", idText plan.candidateId),
    ("candidate_kind", .string plan.candidateKind.text), ("action", .string plan.action.text),
    ("confidence", rules.number plan.confidence), ("reason", .string plan.reason),
    ("needs_user", .bool plan.needsUser), ("canonical_kind", textOrNull plan.canonicalKind),
    ("canonical_ref", (plan.canonicalRef.map Json.object).getD .null),
    ("actor", (plan.actor.map ActorPayload.toJson).getD .null),
    ("resource", (plan.resource.map (ResourcePayload.toJson rules)).getD .null),
    ("alias_mappings", .array (plan.aliasMappings.map (AliasMapping.toJson rules))),
    ("clarification", .null)]

def ambiguityKeys : List String :=
  ["ambiguous", "ambiguous_aliases", "candidate_conflict", "merge_candidates",
    "possible_matches", "same_label_candidate_ids"]

def SubstrateKind.isActor (kind : SubstrateKind) : Bool :=
  kind = .actor ∨ kind = .actorAlias

section

variable (rules : SubstrateRules)

def needsClarification (candidate : SubstrateCandidate) (confidenceFloor : ℚ) : Except
    SubstrateError Bool := do
  if candidate.confidence < confidenceFloor then return true
  else if ambiguityKeys.any (isTruthyAt candidate.metadata) then return true
  else
    let withoutAlias ← if candidate.kind.isActor then
        (actorAliasMappings rules candidate).map List.isEmpty
      else pure false
    return withoutAlias ||
      (candidate.proposedCanonicalRef.any (!·.isEmpty) ∧ candidate.confidence < 9 / 10)

def clarificationReason (candidate : SubstrateCandidate) (confidenceFloor : ℚ) : String :=
  if candidate.confidence < confidenceFloor then "candidate_confidence_below_promotion_floor"
  else
    match ambiguityKeys.find? (isTruthyAt candidate.metadata) with
    | some key => "candidate_metadata_" ++ key
    | none =>
      if candidate.kind.isActor then "actor_candidate_without_source_alias"
      else "candidate_needs_user_resolution"

/-- `clarification_payload_for_candidate`, as far as it may raise. -/
def clarificationPayloadForCandidate (candidate : SubstrateCandidate) :
    Except SubstrateError Unit :=
  if candidate.kind.isActor then (inferActorType rules candidate none).map fun _ => ()
  else if (resourceKindByCandidateKind candidate.kind).isSome then
    (resourcePayloadForCandidate rules candidate []).map fun _ => ()
  else .ok ()

def canonicalRefFromAnswer (answer : Fields) : Except SubstrateError (Option Fields) :=
  let raw := ((answer.lookup "canonical_ref").filter Models.truthy).or
    (answer.lookup "promotion_ref")
  match raw with
  | none | some .null => .ok none
  | some (.object fields) =>
    if isTruthyAt fields "type" then .ok (some fields)
    else .error (.validationError "canonical_ref.type is required"
      [("field", .string "answer.canonical_ref.type")])
  | some _ =>
    .error (.validationError "canonical_ref must be an object"
      [("field", .string "answer.canonical_ref")])

def canonicalKindOf (canonicalRef : Option Fields) : Option String :=
  canonicalRef.bind fun ref => (some (textOr rules (ref.lookup "type") "")).filter (· ≠ "")

def actionOfWord (word : String) : Option PlanAction :=
  if word ∈ ["reject", "rejected"] then some .reject
  else if word ∈ ["merge", "merged"] then some .merge
  else if word ∈ ["link_existing", "link", "existing"] then some .linkExisting
  else if word ∈ ["promote_actor", "create_actor"] then some .promoteActor
  else if word ∈ ["promote_resource", "create_resource"] then some .promoteResource
  else if word ∈ ["promote_commitment", "create_commitment"] then some .promoteCommitment
  else if word ∈ ["promote_pattern_candidate", "create_pattern_candidate"] then
    some .promotePatternCandidate
  else if word ∈ ["ask_user", "needs_clarification"] then some .askUser
  else none

def answerWord (answer : Fields) : String :=
  rules.lower (strip (textOr rules (answer.lookup "action") ""))

def answerAction (answer : Fields) : Option PlanAction :=
  actionOfWord (answerWord rules answer)

def referencePlan (candidate : SubstrateCandidate) (action : PlanAction) (reason : String)
    (canonicalKind : Option String) (canonicalRef : Option Fields) : CandidatePromotionPlan where
  candidateId := candidate.id
  candidateKind := candidate.kind
  action := action
  confidence := 1
  reason := reason
  canonicalKind := canonicalKind
  canonicalRef := canonicalRef

def planFromAnswer (candidate : SubstrateCandidate) (answer : Fields) : Except SubstrateError
    CandidatePromotionPlan :=
  match answerAction rules answer with
  | some .reject =>
    .ok (referencePlan candidate .reject "answer_rejected_candidate" none none)
  | some .merge => do
    let canonicalRef ← canonicalRefFromAnswer answer
    return referencePlan candidate .merge "answer_merged_candidate"
      (canonicalKindOf rules canonicalRef) canonicalRef
  | some .linkExisting => do
    let canonicalRef ← canonicalRefFromAnswer answer
    return referencePlan candidate .linkExisting "answer_linked_existing_canonical"
      (canonicalKindOf rules canonicalRef) canonicalRef
  | some .promoteActor => do
    let canonicalRef ← canonicalRefFromAnswer answer
    let actor ← actorPayloadForCandidate rules candidate answer
    let mappings ← actorAliasMappings rules candidate
    return { referencePlan candidate .promoteActor "answer_promoted_actor" (some "actor")
        canonicalRef with
      actor := some actor
      aliasMappings := mappings }
  | some .promoteResource => do
    let canonicalRef ← canonicalRefFromAnswer answer
    let resource ← resourcePayloadForCandidate rules candidate answer
    let mappings ← entityAliasMappings rules candidate resource
    return { referencePlan candidate .promoteResource "answer_promoted_resource" (some "resource")
        canonicalRef with
      resource := some resource
      aliasMappings := mappings }
  | some .promoteCommitment => do
    let canonicalRef ← canonicalRefFromAnswer answer
    return referencePlan candidate .promoteCommitment "answer_promoted_commitment"
      (some "commitment") canonicalRef
  | some .promotePatternCandidate => do
    let canonicalRef ← canonicalRefFromAnswer answer
    return referencePlan candidate .promotePatternCandidate "answer_promoted_pattern_candidate"
      (some "pattern_candidate") canonicalRef
  | some .askUser => do
    let _ ← canonicalRefFromAnswer answer
    clarificationPayloadForCandidate rules candidate
    return { referencePlan candidate .askUser "answer_kept_ambiguous" none none with
      confidence := candidate.confidence
      needsUser := true }
  | _ => do
    let _ ← canonicalRefFromAnswer answer
    .error (.validationError "candidate resolution answer action is invalid"
      [("field", .string "answer.action"), ("value", .string (answerWord rules answer))])

theorem actionOfWord_ne
    (ha : actionOfWord word = some action) : action ≠ .noop ∧ action ≠ .keepProvisional := by
  unfold actionOfWord at ha
  repeat' split at ha
  all_goals cases ha
  all_goals decide

def planByKind (candidate : SubstrateCandidate) : Except SubstrateError CandidatePromotionPlan :=
  let plan : CandidatePromotionPlan :=
    { candidateId := candidate.id
      candidateKind := candidate.kind
      action := .keepProvisional
      confidence := candidate.confidence
      reason := candidate.kind.text ++ "_promotion_requires_domain_workflow"
      canonicalKind := some ("candidate_" ++ candidate.kind.text)
      canonicalRef := some candidate.scopeRef }
  match candidate.kind with
  | .actor => do
    let actor ← actorPayloadForCandidate rules candidate []
    let mappings ← actorAliasMappings rules candidate
    return { plan with
      action := .promoteActor
      reason := "high_confidence_actor_candidate"
      canonicalKind := some "actor"
      canonicalRef := none
      actor := some actor
      aliasMappings := mappings }
  | .customer | .vendor | .system | .workstream => do
    let resource ← resourcePayloadForCandidate rules candidate []
    let mappings ← entityAliasMappings rules candidate resource
    return { plan with
      action := .promoteResource
      reason := "high_confidence_" ++ candidate.kind.text ++ "_candidate"
      canonicalKind := some "resource"
      canonicalRef := none
      resource := some resource
      aliasMappings := mappings }
  | .commitment =>
    if 78 / 100 ≤ candidate.confidence then
      .ok { plan with
        action := .promoteCommitment
        reason := "high_confidence_commitment_candidate"
        canonicalKind := some "commitment"
        canonicalRef := none }
    else .ok { plan with reason := "commitment_confidence_below_promotion_floor" }
  | .pattern =>
    if 58 / 100 ≤ candidate.confidence then
      .ok { plan with
        action := .promotePatternCandidate
        reason := "recurring_pattern_candidate_ready_for_review"
        canonicalKind := some "pattern_candidate"
        canonicalRef := none }
    else .ok { plan with reason := "pattern_confidence_below_review_floor" }
  | .actorAlias => do
    clarificationPayloadForCandidate rules candidate
    return { plan with
      action := .askUser
      reason := "alias_candidates_must_resolve_to_actor"
      needsUser := true
      canonicalKind := none
      canonicalRef := none }

def planWithoutAnswer (candidate : SubstrateCandidate) (confidenceFloor : ℚ) : Except SubstrateError
    CandidatePromotionPlan :=
  if candidate.status.isFinal then
    .ok {
      candidateId := candidate.id
      candidateKind := candidate.kind
      action := .noop
      confidence := candidate.confidence
      reason := "candidate_already_" ++ candidate.status.text
      canonicalRef := (candidate.promotionRef.filter (!·.isEmpty)).or candidate.proposedCanonicalRef }
  else do
    let unclear ← needsClarification rules candidate confidenceFloor
    if unclear then
      clarificationPayloadForCandidate rules candidate
      return {
        candidateId := candidate.id
        candidateKind := candidate.kind
        action := .askUser
        confidence := candidate.confidence
        reason := clarificationReason candidate confidenceFloor
        needsUser := true }
    else planByKind rules candidate

def planCandidatePromotion (candidate : SubstrateCandidate) (answer : Option Fields)
    (confidenceFloor : ℚ := 72 / 100) : Except SubstrateError CandidatePromotionPlan :=
  match answer with
  | some answer => planFromAnswer rules candidate answer
  | none => planWithoutAnswer rules candidate confidenceFloor

end

structure CandidatePromotionPlan.Names (plan : CandidatePromotionPlan) (candidateId : Nat) :
    Prop where
  actor : ∀ actor, plan.actor = some actor →
    actor.metadata.lookup "promoted_from_candidate_id" = some (idText candidateId)
  resource : ∀ resource, plan.resource = some resource →
    resource.metadata.lookup "promoted_from_candidate_id" = some (idText candidateId)

section Names

variable {rules : SubstrateRules} {candidate : SubstrateCandidate} {answer : Fields}
  {plan : CandidatePromotionPlan}

theorem actorPayload_names (ha : actorPayloadForCandidate rules candidate answer = .ok actor) :
    actor.metadata.lookup "promoted_from_candidate_id" = some (idText candidate.id) := by
  unfold actorPayloadForCandidate at ha
  split at ha
  · cases ha
    rfl
  · obtain ⟨_, _, hd⟩ := bind_eq_ok_iff.mp ha
    cases hd
    rfl

theorem resourcePayload_names
    (hr : resourcePayloadForCandidate rules candidate answer = .ok resource) :
    resource.metadata.lookup "promoted_from_candidate_id" = some (idText candidate.id) := by
  unfold resourcePayloadForCandidate at hr
  dsimp only at hr
  split at hr
  · cases hr
  · cases hr
    rfl

theorem names_of_none (ha : plan.actor = none) (hr : plan.resource = none) :
    plan.Names candidate.id where
  actor actor hs := by
    rw [ha] at hs
    cases hs
  resource resource hs := by
    rw [hr] at hs
    cases hs

theorem names_of_actor (hp : actorPayloadForCandidate rules candidate answer = .ok actor)
    (ha : plan.actor = some actor) (hr : plan.resource = none) : plan.Names candidate.id where
  actor other hs := by
    cases ha.symm.trans hs
    exact actorPayload_names hp
  resource resource hs := by
    rw [hr] at hs
    cases hs

theorem names_of_resource (hp : resourcePayloadForCandidate rules candidate answer = .ok resource)
    (ha : plan.actor = none) (hr : plan.resource = some resource) :
    plan.Names candidate.id where
  actor actor hs := by
    rw [ha] at hs
    cases hs
  resource other hs := by
    cases hr.symm.trans hs
    exact resourcePayload_names hp

theorem planFromAnswer_spec (hp : planFromAnswer rules candidate answer = .ok plan) :
    answerAction rules answer = some plan.action ∧ plan.Names candidate.id := by
  unfold planFromAnswer at hp
  split at hp
  · next ha =>
    cases hp
    exact ⟨ha, names_of_none rfl rfl⟩
  iterate 2
    next ha =>
      obtain ⟨_, _, hd⟩ := bind_eq_ok_iff.mp hp
      cases hd
      exact ⟨ha, names_of_none rfl rfl⟩
  · next ha =>
    simp only [bind_eq_ok_iff] at hp
    obtain ⟨_, _, actor, hac, _, _, hd⟩ := hp
    cases hd
    exact ⟨ha, names_of_actor hac rfl rfl⟩
  · next ha =>
    simp only [bind_eq_ok_iff] at hp
    obtain ⟨_, _, resource, hrs, _, _, hd⟩ := hp
    cases hd
    exact ⟨ha, names_of_resource hrs rfl rfl⟩
  iterate 2
    next ha =>
      obtain ⟨_, _, hd⟩ := bind_eq_ok_iff.mp hp
      cases hd
      exact ⟨ha, names_of_none rfl rfl⟩
  · next ha =>
    simp only [bind_eq_ok_iff] at hp
    obtain ⟨_, _, _, _, hd⟩ := hp
    cases hd
    exact ⟨ha, names_of_none rfl rfl⟩
  · obtain ⟨_, _, hr⟩ := bind_eq_ok_iff.mp hp
    cases hr

def autoAction : SubstrateKind → PlanAction
  | .actor => .promoteActor
  | .customer | .vendor | .system | .workstream => .promoteResource
  | .commitment => .promoteCommitment
  | .pattern => .promotePatternCandidate
  | .actorAlias => .askUser

def PlanAction.promotes : PlanAction → Bool
  | .promoteActor | .promoteResource | .promoteCommitment | .promotePatternCandidate => true
  | _ => false

theorem planByKind_names (hpl : planByKind rules candidate = .ok plan) : plan.Names candidate.id ∧
      (plan.action.promotes → plan.action = autoAction candidate.kind) := by
  unfold planByKind at hpl
  split at hpl
  · next hk =>
    simp only [bind_eq_ok_iff] at hpl
    obtain ⟨actor, ha, _, _, hd⟩ := hpl
    cases hd
    exact ⟨names_of_actor ha rfl rfl, fun _ => by rw [hk]; rfl⟩
  iterate 4
    next hk =>
      simp only [bind_eq_ok_iff] at hpl
      obtain ⟨resource, hr, _, _, hd⟩ := hpl
      cases hd
      exact ⟨names_of_resource hr rfl rfl, fun _ => by rw [hk]; rfl⟩
  iterate 2
    next hk =>
      split at hpl
      · cases hpl
        exact ⟨names_of_none rfl rfl, fun _ => by rw [hk]; rfl⟩
      · cases hpl
        exact ⟨names_of_none rfl rfl, fun hp => by cases hp⟩
  · obtain ⟨_, _, hd⟩ := bind_eq_ok_iff.mp hpl
    cases hd
    exact ⟨names_of_none rfl rfl, fun hp => by cases hp⟩

theorem planWithoutAnswer_names
    (hpl : planWithoutAnswer rules candidate confidenceFloor = .ok plan) : plan.Names candidate.id ∧
      (plan.action.promotes → plan.action = autoAction candidate.kind) := by
  unfold planWithoutAnswer at hpl
  split at hpl
  · cases hpl
    exact ⟨names_of_none rfl rfl, fun hp => by cases hp⟩
  · obtain ⟨unclear, _, ht⟩ := bind_eq_ok_iff.mp hpl
    split at ht
    · obtain ⟨_, _, hd⟩ := bind_eq_ok_iff.mp ht
      cases hd
      exact ⟨names_of_none rfl rfl, fun hp => by cases hp⟩
    · exact planByKind_names ht

end Names

end FyralisCore.Substrate
