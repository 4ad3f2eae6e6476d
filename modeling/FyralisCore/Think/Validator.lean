import FyralisCore.Think.ClaimPhase
import FyralisCore.Think.MemoryRuns

/-! The operations of a diff as they are proposed (`diff_schema.py`), and the checks of one
operation (`validator.py`): claims, lifecycle decisions, acts and resources. Entities, entries and
changes are dictionaries still; the operations on edges and on relation claims are those that are
applied. What a check computes from texts alone is a parameter. -/
namespace FyralisCore.Think.Validator

open Relational
open Acts (Json Machine strip)
open Models (truthy)
open Applier (Entry EdgeOp RelationClaimOp UuidRules ApplyContext BeliefRow DomainDb DomainError
  LifecycleProposal clipConfidence)

inductive ClaimOpKind where
  | insert
  | update
  | archive
  deriving DecidableEq, Repr

def ClaimOpKind.text : ClaimOpKind → String
  | .insert => "insert"
  | .update => "update"
  | .archive => "archive"

structure ClaimOp where
  op : ClaimOpKind
  entry : Option Entry := none
  modelId : Option Nat := none
  changes : Option Entry := none
  reason : Option String := none

structure RelationFrameParticipantOp where
  modelId : Nat
  role : String
  bindingConfidence : Rat := 1 / 2

inductive FrameWritePolicy where
  | projectEdges
  | candidate
  | needsReview
  | noProjection
  deriving DecidableEq, Repr

inductive FrameStatus where
  | active
  | candidate
  | accepted
  | needsReview
  | disputed
  | rejected
  | retired
  deriving DecidableEq, Repr

structure RelationFrameOp where
  relationKind : String
  participants : List RelationFrameParticipantOp := []
  participantBindingStatus : Applier.EndpointBindingStatus := .unbound
  writePolicy : FrameWritePolicy := .candidate
  status : FrameStatus := .candidate
  confidence : Rat := 1 / 2
  evidenceEventIds : List Nat := []
  evidenceModelIds : List Nat := []

/-- The scores of an ontology gap with their labels are in `OntologyGapOp.scores`. -/
structure OntologyGapOp where
  sourceModelId : Nat
  targetModelId : Nat
  proposedEdgeKind : String
  description : String
  relationshipSummary : String
  parentKind : Option String := none
  nearestExistingKind : Option String := none
  droppedDimensions : List String := []
  evidenceEventIds : List Nat := []
  evidenceModelIds : List Nat := []
  confidence : Rat := 3 / 5
  impact : Rat := 3 / 4
  actionability : Rat := 13 / 20
  urgency : Rat := 1 / 2
  uncertainty : Rat := 7 / 10
  authorityRequired : Rat := 1 / 2
  novelty : Rat := 1

def OntologyGapOp.scores (op : OntologyGapOp) : List (String × Rat) :=
  [("confidence", op.confidence), ("impact", op.impact), ("actionability", op.actionability),
    ("urgency", op.urgency), ("uncertainty", op.uncertainty),
    ("authority_required", op.authorityRequired), ("novelty", op.novelty)]

inductive ActOpKind where
  | createGoal
  | updateGoal
  | transitionGoal
  | createCommitment
  | transitionCommitment
  | createDecision
  | transitionDecision
  | addEdgeContributesTo
  | addEdgeDependsOn
  | addEdgeConstrainedBy
  deriving DecidableEq, Repr

def ActOpKind.text : ActOpKind → String
  | .createGoal => "create_goal"
  | .updateGoal => "update_goal"
  | .transitionGoal => "transition_goal"
  | .createCommitment => "create_commitment"
  | .transitionCommitment => "transition_commitment"
  | .createDecision => "create_decision"
  | .transitionDecision => "transition_decision"
  | .addEdgeContributesTo => "add_edge_contributes_to"
  | .addEdgeDependsOn => "add_edge_depends_on"
  | .addEdgeConstrainedBy => "add_edge_constrained_by"

structure ActOp where
  op : ActOpKind
  confidenceBasis : Option Nat := none
  entity : Entry := []

inductive ResourceOpKind where
  | create
  | transaction
  | deploy
  | release
  | update
  deriving DecidableEq, Repr

def ResourceOpKind.text : ResourceOpKind → String
  | .create => "create"
  | .transaction => "transaction"
  | .deploy => "deploy"
  | .release => "release"
  | .update => "update"

/-- `kind` is one of the transaction types. -/
structure ResourceOp where
  op : ResourceOpKind
  resourceId : Option Nat := none
  commitmentId : Option Nat := none
  payload : Option Entry := none
  patch : Option Resources.Dict := none
  kind : Option Resources.TransactionType := none
  delta : Option Resources.Dict := none
  quantity : Option Resources.Dict := none
  actualQuantity : Option Resources.Dict := none

structure RawDiff where
  triggerRef : Nat
  tenantId : Nat
  claimOps : List ClaimOp := []
  memoryLifecycleOps : List LifecycleProposal := []
  relationClaimOps : List RelationClaimOp := []
  relationFrameOps : List RelationFrameOp := []
  edgeOps : List EdgeOp := []
  ontologyGapOps : List OntologyGapOp := []
  actOps : List ActOp := []
  resourceOps : List ResourceOp := []
  newPredictions : List ClaimOp := []

structure ValidatedDiff extends RawDiff where
  droppedOpCount : Nat := 0
  droppedOpErrors : List String := []

inductive ValidatorError where
  | validationError (message : String)
  | falsifierInadequate (message : String)
  | malformedFalsifier (message : String)
  | edgeRegistryError (error : Models.ModelError)
  | invariantViolation (invariant message : String)
  | trustTierError (message : String)
  /-- What no handler of the validator catches. -/
  | python (message : String)
  /-- `ValidationFailure` -/
  | everyOpFailed (errors : List String) (total : Nat)
  /-- `OutOfRegionError` -/
  | outOfRegion (missing : List (String × String)) (touched allowedSize : Nat)

inductive ErrorKind where
  | validation
  | falsifier
  | registry
  | invariant
  | trustTier
  | uncaught
  deriving DecidableEq, Repr

def ValidatorError.kind : ValidatorError → ErrorKind
  | .validationError _ => .validation
  | .falsifierInadequate _ | .malformedFalsifier _ => .falsifier
  | .edgeRegistryError _ => .registry
  | .invariantViolation _ _ => .invariant
  | .trustTierError _ => .trustTier
  | .python _ | .everyOpFailed _ _ | .outOfRegion _ _ _ => .uncaught

def ValidatorError.message (decimal : Rat → String) : ValidatorError → String
  | .validationError message | .falsifierInadequate message | .malformedFalsifier message
  | .invariantViolation _ message | .trustTierError message | .python message => message
  | .edgeRegistryError error => error.message decimal
  | .everyOpFailed _ _ | .outOfRegion _ _ _ => ""

/-! ### What the checks take from the rest of the program -/

/-- The basis of an act: a stored model, or an insert of the same diff. -/
structure Basis where
  confidence : Rat
  row : Option (Models.ModelRow × BeliefRow) := none

structure EdgeRefinement where
  edgeKind : Models.RegistryKind
  weight : Option Rat
  reason : String

structure EdgeSpecificity where
  needsReview : Bool
  score : Json
  reasons : List String

structure ValidatorRules where
  uuid : UuidRules
  falsifier : Models.FalsifierRules
  /-- `float(value)` -/
  float : Json → Option Rat
  number : Rat → Json
  /-- `apply_calibration` for the actors and the kind of the entry. -/
  calibrate : Rat → Entry → Rat
  /-- `_confidence_cap_for_linguistic_uncertainty` -/
  uncertaintyCap : Entry → Option Rat
  /-- The three repairs of a proposition. -/
  repair : Entry → Entry
  /-- `validate_proposition`: the message of a refusal. -/
  validateProposition : Option Json → Option String
  computeThreshold : ActOp → Option Basis → Rat
  /-- The patterns of `canonicalize_edge_semantics`. -/
  refine : DomainDb → EdgeOp → Option EdgeRefinement
  /-- `assess_edge_specificity` -/
  assessSpecificity : DomainDb → EdgeOp → EdgeSpecificity
  /-- `str.lower` -/
  lower : String → String

variable (rules : ValidatorRules)

def iterate : Option Json → Except ValidatorError (List Json)
  | none => .ok []
  | some value =>
    if !truthy value then .ok []
    else
      match value with
      | .array items => .ok items
      | .object fields => .ok (fields.map fun field => .string field.1)
      | .string text => .ok (text.toList.map fun letter => .string (String.singleton letter))
      | _ => .error (.python "object is not iterable")

def ValidatorRules.floatOf (value : Json) : Except ValidatorError Rat :=
  match rules.float value with
  | some number => .ok number
  | none => .error (.python "could not convert to float")

def ValidatorRules.queryId (value : Json) : Except ValidatorError Nat :=
  match rules.uuid.parse (rules.uuid.str value) with
  | some id => .ok id
  | none => .error (.python "invalid input for query argument")

def ValidatorRules.confidence (entry : Entry) (raw : Rat) : Rat :=
  let calibrated := clipConfidence (rules.calibrate (clipConfidence raw) entry)
  (rules.uncertaintyCap entry).elim calibrated (min calibrated)

def ValidatorRules.checkFalsifier (now : Nat) (falsifier : Option Json) :
    Except ValidatorError Unit :=
  match Models.isAdequateFalsifier rules.falsifier now falsifier with
  | .ok none => .ok ()
  | .ok (some reason) => .error (.falsifierInadequate reason)
  | .error (.malformed message) => .error (.malformedFalsifier message)
  | .error .overflow => .error (.python "date value out of range")
  | .error .unhashable => .error (.python "unhashable type")
  | .error .key => .error (.python "key error")

def ValidatorRules.checkScopeActors (actors : List Json) : Except ValidatorError Unit :=
  match actors.find? fun actor => (rules.uuid.parse (rules.uuid.str actor)).isNone with
  | some actor =>
    .error (.validationError
      ("claim_op insert: scope_actor " ++ rules.uuid.str actor ++ " is not a UUID"))
  | none => .ok ()

def validateClaimInsert (now : Nat) (given : Entry) : Except ValidatorError Entry := do
  let raw ← ((given.get "confidence").elim (.ok (1 / 2)) rules.floatOf)
  let confidence := rules.confidence given raw
  if Models.falsifierRequiredAbove < confidence then
    rules.checkFalsifier now (given.get "falsifier")
  let entry := rules.repair (given.set "confidence" (rules.number confidence))
  match rules.validateProposition (entry.get "proposition") with
  | some message => .error (.validationError message)
  | none =>
    let entry := entry.setDefault "confidence_at_assertion" (rules.number (clipConfidence raw))
    let actors ← iterate (entry.get "scope_actors")
    rules.checkScopeActors actors
    return entry

def validateClaimUpdate (op : ClaimOp) : Except ValidatorError ClaimOp :=
  match op.modelId, op.changes with
  | none, _ => .error (.validationError "claim_op update requires model_id")
  | some _, none | some _, some [] =>
    .error (.validationError "claim_op update requires non-empty changes")
  | some _, some changes =>
    if (changes.get "confidence_at_assertion").isSome then
      .error (.validationError "confidence_at_assertion is immutable (Q3)")
    else
      match changes.get "confidence" with
      | none => .ok op
      | some value => do
        let confidence ← rules.floatOf value
        return { op with
          changes := some (changes.set "confidence" (rules.number (clipConfidence confidence))) }

def archiveReasons : List String :=
  [Models.ModelArchiveReason.decay, .falsifierTriggered, .contestedIncorrect,
    .contestedReadingIncorrect, .superseded, .manual, .resolvedConfirmed, .resolvedViolated,
    .severeDrift, .deprecated, .actedUpon, .dismissedByUser, .situationResolved,
    .hypothesisDismissedByUser, .hypothesisUserApproved, .hypothesisUserCorrected,
    .hypothesisUserOther].map Applier.archiveReasonText

def validateClaimArchive (op : ClaimOp) : Except ValidatorError ClaimOp :=
  match op.modelId, op.reason with
  | none, _ => .error (.validationError "claim_op archive requires model_id")
  | some _, none | some _, some "" => .error (.validationError "claim_op archive requires reason")
  | some _, some reason =>
    if strip reason ∈ archiveReasons then .ok { op with reason := some (strip reason) }
    else
      .error (.validationError "claim_op archive reason must be a registered lifecycle reason")

def validateClaimOp (now : Nat) (op : ClaimOp) : Except ValidatorError ClaimOp :=
  match op.op with
  | .insert =>
    match op.entry with
    | none => .error (.validationError "claim_op insert missing entry dict")
    | some entry => (validateClaimInsert rules now entry).map fun entry =>
      { op := .insert, entry := some entry }
  | .update => validateClaimUpdate rules op
  | .archive => validateClaimArchive op

def claimTargetMissing (db : DomainDb) (op : ClaimOp) : Bool :=
  op.op ≠ .insert && op.modelId.any fun modelId => (db.models.models.get modelId).isNone

def acceptClaimOp (now : Nat) (db : DomainDb) (given : ClaimOp) :
    Except ValidatorError (Option ClaimOp) := do
  let op ← validateClaimOp rules now given
  if claimTargetMissing db op then
    .error (.validationError ("model " ++ op.modelId.elim "None" rules.uuid.text ++ " not found"))
  else return some op

def ClaimOp.placeholders (uuid : UuidRules) (op : ClaimOp) : List Nat :=
  match op.op, op.entry with
  | .insert, some entry => uuid.placeholders entry
  | _, _ => []

def ValidatorRules.claimConfidence (op : ClaimOp) : Rat :=
  let value := (op.entry.bind fun entry => entry.get "confidence").filter truthy
  (value.bind rules.float).getD 0

def pendingClaimBasisConfidence (validated : List ClaimOp) : Table Nat Rat :=
  validated.foldl (fun pending op =>
    (op.placeholders rules.uuid).foldl
      (fun pending placeholder => pending.put placeholder (rules.claimConfidence op)) pending) ∅

def errorOfDomain : DomainError → ValidatorError
  | .validationError message => .validationError message
  | _ => .python ""

def validateMemoryLifecycleOp (ctx : ApplyContext) (db : DomainDb) (proposal : LifecycleProposal) :
    Except ValidatorError (Option LifecycleProposal) :=
  match proposal.validate ctx db with
  | .ok op => .ok (some { proposal with op, rationale := strip proposal.rationale })
  | .error error => .error (errorOfDomain error)

/-- `_load_basis_model`, or else the insert of the same diff. -/
def loadBasis (pending : Table Nat Rat) (db : DomainDb) (basisId : Option Nat) : Option Basis :=
  basisId.bind fun basisId =>
    ((db.model basisId).map fun found => { confidence := found.2.confidence, row := some found }).or
      ((pending.get basisId).map fun confidence => { confidence })

def ActOpKind.basisExempt : ActOpKind → Bool
  | .updateGoal | .createGoal => true
  | _ => false

def isNonBlank : Option Json → Bool
  | some (.string text) => strip text ≠ ""
  | _ => false

def orElse (value : Option Json) (default : Option Json) : Option Json :=
  (value.filter truthy).or default

def validateCreateDecision (op : ActOp) : Except ValidatorError ActOp :=
  if !isNonBlank (op.entity.get "title") then
    .error (.validationError "create_decision requires entity.title")
  else if isNonBlank (op.entity.get "decision_text") then .ok op
  else
    let fallback := (orElse (op.entity.get "rationale") (op.entity.get "title")).getD .null
    .ok { op with
      entity := (op.entity.set "decision_text" (.string (strip (rules.uuid.str fallback)))).set
        "canonicalized_missing_decision_text" (.bool true) }

def isText (value : Json) (text : String) : Bool :=
  match value with
  | .string other => other == text
  | _ => false

/-- `can_transition` for a new state that may be none; a list is in no set. -/
def checkTransition {S : Type} [DecidableEq S] (machine : Machine S) (invariant : String)
    (current : S) (newState : Json) : Except ValidatorError Unit :=
  if machine.isTerminal current then
    .error (.invariantViolation invariant ("cannot transition out of terminal " ++ machine.kind ++
      " state " ++ Acts.quoted (machine.text current)))
  else
    match newState with
    | .array _ | .object _ => .error (.python "unhashable type")
    | _ =>
      if (machine.transitions current).any fun state => isText newState (machine.text state) then
        .ok ()
      else
        .error (.invariantViolation invariant ("illegal " ++ machine.kind ++ " transition: " ++
          Acts.quoted (machine.text current) ++ "→" ++ Acts.quoted (rules.uuid.str newState) ++
          " (allowed: " ++ machine.allowedText (machine.transitions current) ++ ")"))

def transitionArgs (op : ActOp) : Except ValidatorError (Json × Json) :=
  match (op.entity.get "id").filter Models.notNull,
      (op.entity.get "new_state").filter Models.notNull with
  | some id, some newState => .ok (id, newState)
  | _, _ => .error (.validationError
    (op.op.text ++ " requires entity.id and entity.new_state"))

def ActOp.canonicalized (op : ActOp) (newState given reason : String) : ActOp :=
  { op with
    entity := ((op.entity.set "new_state" (.string newState)).set "canonicalized_from_state"
      (.string given)).set "canonicalization_reason" (.string reason) }

def trustTiers : List String :=
  ["authoritative", "attested_agent", "authoritative_external", "reputable", "inferential",
    "inferential_external", "unvetted"]

/-- `_verify_doneverified_evidence`; no tier but the first is at least the first. -/
def verifyDoneverifiedEvidence (db : DomainDb) (eventIds : List Nat) : Except ValidatorError Unit :=
  if eventIds = [] then
    .error (.invariantViolation "C3" "doneverified requires >=1 resolved_by_event_id")
  else
    let missing := eventIds.filter fun eventId => (db.acts.observations.get eventId).isNone
    if missing ≠ [] then
      .error (.validationError ("doneverified references " ++ toString missing.length ++
        " non-existent observation(s)"))
    else
      let tiers := eventIds.filterMap fun eventId =>
        (db.acts.observations.get eventId).map fun row => (eventId, row.trustTier)
      match tiers.find? fun entry => entry.2 ≠ "authoritative" with
      | none => .ok ()
      | some (eventId, tier) =>
        if tier ∈ trustTiers then
          .error (.trustTierError ("doneverified requires authoritative evidence; observation " ++
            rules.uuid.text eventId ++ " is " ++ tier))
        else
          .error (.validationError ("observation " ++ rules.uuid.text eventId ++
            " has invalid trust_tier " ++ Acts.quoted tier))

def ValidatorRules.resolvedEvents (op : ActOp) : Except ValidatorError (List Nat) := do
  let values ← iterate (op.entity.get "resolved_by_event_ids")
  values.mapM fun value =>
    match rules.uuid.parse (rules.uuid.str value) with
    | some id => .ok id
    | none => .error (.validationError
      ("resolved_by_event_ids contains non-UUID: " ++ rules.uuid.str value))

section

variable (db : DomainDb) (op : ActOp)

def validateTransitionCommitment : Except ValidatorError (Option ActOp) := do
  let (id, newState) ← transitionArgs op
  let commitmentId ← rules.queryId id
  match db.acts.commitments.get commitmentId with
  | none =>
    .error (.validationError
      ("transition_commitment: commitment " ++ rules.uuid.str id ++ " not found"))
  | some row =>
    if isText newState row.state.text then return none
    else if row.state = .proposed ∧ (isText newState "paused" ∨ isText newState "blocked") then
      return none
    else if isText newState "blocked" ∧ db.acts.unsatisfiedDependencies commitmentId = 0 ∧
        db.acts.revisitedConstrainingDecisions commitmentId = 0 then
      -- Nothing blocks it: it is paused instead.
      if row.state = .paused then return none
      else
        checkTransition rules Acts.commitmentMachine "C_STATE" row.state (.string "paused")
        return some (op.canonicalized "paused" "blocked"
          "blocked_without_dependency_or_revisited_decision")
    else
      checkTransition rules Acts.commitmentMachine "C_STATE" row.state newState
      if isText newState "doneverified" then
        let eventIds ← rules.resolvedEvents op
        verifyDoneverifiedEvidence rules db eventIds
      return some op

def validateTransitionGoal : Except ValidatorError (Option ActOp) := do
  let (id, newState) ← transitionArgs op
  let goalId ← rules.queryId id
  match db.acts.goals.get goalId with
  | none => .error (.validationError ("goal " ++ rules.uuid.str id ++ " not found"))
  | some row =>
    if isText newState row.state.text then return none
    else
      checkTransition rules Acts.goalMachine "G_STATE" row.state newState
      return some op

def validateTransitionDecision : Except ValidatorError (Option ActOp) := do
  let (id, newState) ← transitionArgs op
  let decisionId ← rules.queryId id
  match db.acts.decisions.get decisionId with
  | none => .error (.validationError ("decision " ++ rules.uuid.str id ++ " not found"))
  | some row =>
    if isText newState row.state.text then return none
    else if row.state = .drafted ∧ isText newState "revisited" then
      -- A draft is activated where its revisit is asked for.
      checkTransition rules Acts.decisionMachine "D_STATE" row.state (.string "active")
      return some (op.canonicalized "active" "revisited" "drafted_decision_cannot_be_revisited")
    else
      checkTransition rules Acts.decisionMachine "D_STATE" row.state newState
      return some op

def validateActEntity : Except ValidatorError (Option ActOp) :=
  match op.op with
  | .createDecision => (validateCreateDecision rules op).map some
  | .transitionCommitment => validateTransitionCommitment rules db op
  | .transitionGoal => validateTransitionGoal rules db op
  | .transitionDecision => validateTransitionDecision rules db op
  | _ => .ok (some op)

end

def validateActOp (pending : Table Nat Rat) (db : DomainDb) (op : ActOp) :
    Except ValidatorError (Option ActOp) :=
  let basis := loadBasis pending db op.confidenceBasis
  if basis.isNone && !op.op.basisExempt then
    .error (.validationError ("act_op " ++ op.op.text ++ " requires confidence_basis model_id"))
  else if basis.any fun basis => decide (basis.confidence < rules.computeThreshold op (some basis)) then
    .ok none
  else validateActEntity rules db op

def validateResourceOpShape (op : ResourceOp) : Except ValidatorError (Option ResourceOp) :=
  match op.op with
  | .create =>
    if op.payload.all List.isEmpty then
      .error (.validationError "resource_op create requires non-empty payload dict")
    else .ok (some op)
  | .update =>
    if op.resourceId.isNone then
      .error (.validationError "resource_op update requires resource_id")
    else if op.patch.isNone && op.payload.isNone then
      .error (.validationError "resource_op update requires patch or payload")
    else .ok (some op)
  | .transaction =>
    if op.resourceId.isNone || op.kind.isNone || op.delta.isNone then
      .error (.validationError "resource_op transaction requires resource_id, kind, delta")
    else .ok (some op)
  | .deploy =>
    if op.resourceId.isNone || op.commitmentId.isNone then
      .error (.validationError "resource_op deploy requires resource_id and commitment_id")
    else if op.quantity.isNone then
      .error (.validationError "resource_op deploy requires quantity dict")
    else .ok (some op)
  | .release =>
    if op.resourceId.isNone || op.commitmentId.isNone then
      .error (.validationError "resource_op release requires resource_id and commitment_id")
    else .ok (some op)

end FyralisCore.Think.Validator
