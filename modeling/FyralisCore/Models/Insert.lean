import FyralisCore.Models.Relations

/-! The insertion of one model (`ModelsRepo.insert` of `repo.py`, from the
draft that `construct_model` returns) with its scope sidecars, composition
members and relations. -/
namespace FyralisCore.Models

open Relational Transaction
open Acts (Json)

def isZeroLiteral (literal : String) : Bool :=
  (literal.toList.takeWhile fun character => character ≠ 'e' ∧ character ≠ 'E').all fun character =>
    character = '0' ∨ character = '.' ∨ character = '-'

def truthy : Json → Bool
  | .null => false
  | .bool value => value
  | .number literal => !isZeroLiteral literal
  | .string value => value ≠ ""
  | .array items => !items.isEmpty
  | .object fields => !fields.isEmpty

def notNull : Json → Bool
  | .null => false
  | _ => true

def isTruthyAt (fields : List (String × Json)) (key : String) : Bool :=
  (fields.lookup key).any truthy

def field (key : String) : Json → Option Json
  | .object fields => fields.lookup key
  | _ => none

def textField (key : String) (value : Json) : Option String :=
  match field key value with
  | some (.string text) => some text
  | _ => none

inductive ClaimRole where
  | fact
  | concern
  | hypothesis
  | prediction
  | pattern
  | situation
  | capability
  | relation
  | recommendation
  deriving DecidableEq, Repr

def ClaimRole.text : ClaimRole → String
  | .fact => "fact"
  | .concern => "concern"
  | .hypothesis => "hypothesis"
  | .prediction => "prediction"
  | .pattern => "pattern"
  | .situation => "situation"
  | .capability => "capability"
  | .relation => "relation"
  | .recommendation => "recommendation"

def ClaimRole.ofText (text : String) : Option ClaimRole :=
  [ClaimRole.fact, .concern, .hypothesis, .prediction, .pattern, .situation, .capability,
    .relation, .recommendation].find? (·.text == text)

def stanceRole (kind : String) : Option ClaimRole :=
  [("observation", ClaimRole.fact), ("belief", .fact), ("prediction", .prediction),
    ("norm", .recommendation)].lookup kind

def legacyKindRole (kind : String) : Option ClaimRole :=
  [("state", ClaimRole.fact), ("relation", .relation), ("pattern", .pattern),
    ("pattern_instance", .pattern), ("capability_assessment", .capability),
    ("hypothesis", .hypothesis), ("concern", .concern), ("market_assessment", .fact),
    ("environmental_trend", .pattern), ("situation", .situation),
    ("recommendation", .recommendation)].lookup kind

def claimRole (proposition : Json) : ClaimRole :=
  let kind := (textField "kind" proposition).getD ""
  let legacyKind := (textField "legacy_kind" proposition).getD ""
  let derived := ((legacyKindRole legacyKind).or
    ((stanceRole kind).or (legacyKindRole kind))).getD .fact
  ((textField "claim_role" proposition).bind ClaimRole.ofText).getD derived

/-- What the insert takes from the rest of the program: `str` and `UUID` of the
standard library, the falsifier's and the recommendation's own validation. -/
structure InsertRules where
  str : Json → String
  parseUuid : String → Option Nat
  /-- `is_adequate_falsifier`: the reason of a refusal. -/
  isAdequateFalsifier : Option Json → Option String
  /-- `validate_recommendation`: the message of a refusal. -/
  validateRecommendation : Json → Nat → ModelDb → Option String

/-- The fields of `ModelCreate` that the insert checks or relates; the
proposition is the canonical one. -/
structure ModelCreate where
  id : Option Nat := none
  tenantId : Nat
  bornFromEventId : Nat
  proposition : Json
  scopeActors : List Nat := []
  scopeEntities : List Json := []
  confidence : Rat
  falsifier : Option Json := none
  supportingModelIds : List Nat := []
  contributingModels : List Nat := []

def falsifierRequiredAbove : Rat := 7 / 10

variable (rules : InsertRules)

def checkFalsifier (proposed : ModelCreate) : Except ModelError Unit :=
  if falsifierRequiredAbove < proposed.confidence then
    match rules.isAdequateFalsifier proposed.falsifier with
    | some reason => .error (.falsifierInadequate reason proposed.confidence)
    | none => .ok ()
  else .ok ()

def missingActors (db : ModelDb) (tenantId : Nat) (scopeActors : List Nat) : List Nat :=
  scopeActors.filter fun actor =>
    !(db.actors.get actor).any fun row => row.tenantId = tenantId

def validateScopeActors (tenantId : Nat) (scopeActors : List Nat) : ModelTx Unit :=
  .require fun db =>
    let missing := missingActors db tenantId scopeActors
    if missing = [] then none else some (.scopeActorsMissing missing)

def scopeEntityKeys (scopeEntities : List Json) : List (String × Nat) :=
  (scopeEntities.filterMap fun raw => do
    let entityType ← (field "type" raw).filter truthy
    let entityId ← (field "id" raw).filter notNull
    let entityUuid ← rules.parseUuid (rules.str entityId)
    return (rules.str entityType, entityUuid)).eraseDups

def upsertScope {K : Type} [DecidableEq K] (table : Table K ScopeRow) (key : K)
    (row : ScopeRow) : Table K ScopeRow :=
  match table.get key with
  | some existing =>
    table.put key { existing with source := row.source, confidence := row.confidence }
  | none => table.put key row

def syncModelScopeSidecars (now modelId tenantId : Nat) (scopeActors : List Nat)
    (scopeEntities : List Json) : ModelTx Unit := do
  let row : ScopeRow := { tenantId, createdAt := now }
  change fun db =>
    { db with
      scopeActors := db.scopeActors.deleteWhere fun key row =>
        row.tenantId = tenantId && key.1 = modelId }
  change fun db =>
    { db with
      scopeEntities := db.scopeEntities.deleteWhere fun key row =>
        row.tenantId = tenantId && key.1 = modelId }
  Tx.forEach scopeActors.eraseDups fun actor =>
    change fun db => { db with scopeActors := upsertScope db.scopeActors (modelId, actor) row }
  Tx.forEach (scopeEntityKeys rules scopeEntities) fun entity =>
    change fun db =>
      { db with scopeEntities := upsertScope db.scopeEntities (modelId, entity) row }

def uuidListFromJson (value : Option Json) : List Nat :=
  match value with
  | some (.array items) =>
    (items.filterMap fun raw => rules.parseUuid (rules.str raw)).eraseDups
  | _ => []

/-- The members a situation lists besides itself, when there are two or more. -/
def compositionMemberIds (modelId : Nat) (proposition : Json) : List Nat :=
  if claimRole proposition = .situation then
    let memberIds := (uuidListFromJson rules (field "member_model_ids" proposition)).filter
      (· ≠ modelId)
    if memberIds.length < 2 then [] else memberIds
  else []

def compositionRow (now tenantId : Nat) (proposition : Json) : CompositionRow where
  tenantId := tenantId
  evidenceEventIds := uuidListFromJson rules (field "evidence_event_ids" proposition)
  createdAt := now

def upsertMember (table : Table (Nat × Nat) CompositionRow) (key : Nat × Nat)
    (row : CompositionRow) : Table (Nat × Nat) CompositionRow :=
  match table.get key with
  | some existing =>
    table.put key
      { existing with evidenceEventIds := row.evidenceEventIds, source := row.source }
  | none => table.put key row

def syncModelCompositionMembers (now modelId tenantId : Nat) (proposition : Json) :
    ModelTx Unit := do
  change fun db =>
    { db with
      compositionMembers := db.compositionMembers.deleteWhere fun key row =>
        row.tenantId = tenantId && key.1 = modelId }
  Tx.forEach (compositionMemberIds rules modelId proposition) fun member =>
    change fun db =>
      { db with
        compositionMembers := upsertMember db.compositionMembers (modelId, member)
          (compositionRow rules now tenantId proposition) }

def ModelCreate.row (proposed : ModelCreate) (now : Nat) : ModelRow where
  tenantId := proposed.tenantId
  bornFromEventId := proposed.bornFromEventId
  proposition := proposed.proposition
  scopeActors := proposed.scopeActors
  scopeEntities := proposed.scopeEntities
  supportingModelIds := proposed.supportingModelIds
  contributingModels := proposed.contributingModels
  createdAt := now

def insertModelRow (now modelId : Nat) (proposed : ModelCreate) : ModelTx Unit :=
  execute fun db =>
    if (db.models.get modelId).isSome then .error (.uniqueViolation "models_pkey")
    else .ok (fun db => { db with models := db.models.put modelId (proposed.row now) }, ())

def ModelCreate.relations (proposed : ModelCreate) (modelId : Nat) : RelationArgs where
  modelId := modelId
  tenantId := proposed.tenantId
  detectedBy := "llm_explicit"
  supports := some proposed.supportingModelIds
  contributesTo := some proposed.contributingModels
  createdByEventId := some proposed.bornFromEventId
  updateArrays := false

def syncInsertSidecarsAndRelations (now modelId : Nat) (proposed : ModelCreate) :
    ModelTx Unit := do
  syncModelScopeSidecars rules now modelId proposed.tenantId proposed.scopeActors
    proposed.scopeEntities
  syncModelCompositionMembers rules now modelId proposed.tenantId proposed.proposition
  Tx.when (proposed.supportingModelIds ≠ [] ∨ proposed.contributingModels ≠ [])
    (setModelRelations now (proposed.relations modelId))

def prepareInsertPayload (modelId : Nat) (proposed : ModelCreate) : ModelTx Unit := do
  checkNoSupportCycle modelId proposed.supportingModelIds
  Tx.when (claimRole proposed.proposition = .recommendation) (.require fun db =>
    (rules.validateRecommendation proposed.proposition proposed.tenantId db).map
      .recommendationInvalid)
  validateScopeActors proposed.tenantId proposed.scopeActors

def idOrNew (given : Option Nat) : ModelTx Nat :=
  match given with
  | some id => .done id
  | none => Tx.newId

def insertConstructed (now : Nat) (proposed : ModelCreate) : ModelTx Nat := do
  Tx.ofExcept (checkFalsifier rules proposed)
  let modelId ← idOrNew proposed.id
  prepareInsertPayload rules modelId proposed
  insertModelRow now modelId proposed
  syncInsertSidecarsAndRelations rules now modelId proposed
  return modelId

end FyralisCore.Models
