import FyralisCore.Acts.Commitments
import FyralisCore.Lib.Dict
import FyralisCore.Lib.Part
import FyralisCore.Lib.ReadCommitted
import FyralisCore.Models.Falsifier
import FyralisCore.Resources.Values

/-! Provisional candidates of the company substrate (`substrate_candidates.py`,
migration 0153) and the tables that their promotion writes. -/
namespace FyralisCore.Substrate

open Relational Transaction ReadCommitted
open Acts (Json ConstraintViolation strip)

abbrev Fields := List (String × Json)

inductive SubstrateKind where
  | actor
  | actorAlias
  | customer
  | workstream
  | system
  | vendor
  | commitment
  | pattern
  deriving DecidableEq

def SubstrateKind.text : SubstrateKind → String
  | .actor => "actor"
  | .actorAlias => "actor_alias"
  | .customer => "customer"
  | .workstream => "workstream"
  | .system => "system"
  | .vendor => "vendor"
  | .commitment => "commitment"
  | .pattern => "pattern"

def substrateKinds : List SubstrateKind :=
  [.actor, .actorAlias, .customer, .workstream, .system, .vendor, .commitment, .pattern]

inductive SubstrateStatus where
  | proposed
  | needsClarification
  | promoted
  | rejected
  | merged
  | stale
  deriving DecidableEq

def SubstrateStatus.text : SubstrateStatus → String
  | .proposed => "proposed"
  | .needsClarification => "needs_clarification"
  | .promoted => "promoted"
  | .rejected => "rejected"
  | .merged => "merged"
  | .stale => "stale"

def substrateStatuses : List SubstrateStatus :=
  [.proposed, .needsClarification, .promoted, .rejected, .merged, .stale]

/-- The statuses from which `plan_candidate_promotion` goes no further. -/
def SubstrateStatus.isFinal : SubstrateStatus → Bool
  | .promoted | .merged | .rejected => true
  | .proposed | .needsClarification | .stale => false

structure CandidateRow where
  tenantId : Nat
  kind : SubstrateKind
  label : String
  status : SubstrateStatus := .proposed
  confidence : ℚ := 1 / 2
  fingerprint : String
  aliases : List Fields := []
  evidenceObservationIds : List Nat := []
  evidenceModelIds : List Nat := []
  relatedCandidateIds : List Nat := []
  proposedCanonicalRef : Option Fields := none
  promotionRef : Option Fields := none
  mergeTargetId : Option Nat := none
  metadata : Fields := []
  createdByRunId : Option Nat := none

structure CandidateKey where
  tenantId : Nat
  kind : SubstrateKind
  fingerprint : String
  deriving DecidableEq

def CandidateRow.key (row : CandidateRow) : CandidateKey where
  tenantId := row.tenantId
  kind := row.kind
  fingerprint := row.fingerprint

structure SubstrateCandidate extends CandidateRow where
  id : Nat

inductive ActorType where
  | humanInternal
  | humanExternal
  | aiAgent
  deriving DecidableEq

def ActorType.text : ActorType → String
  | .humanInternal => "human_internal"
  | .humanExternal => "human_external"
  | .aiAgent => "ai_agent"

structure ActorText where
  type : ActorType
  displayName : String
  email : Option String
  metadata : Fields

structure IdentityKey where
  sourceChannel : String
  sourceActorRef : String
  deriving DecidableEq

structure IdentityRow where
  actorId : Nat
  confidence : ℚ := 1
  deriving DecidableEq

structure ResourceRow where
  tenantId : Nat
  kind : Acts.ResourceKind
  identity : String
  description : Option String := none
  currentValue : Fields
  valuationConfidence : ℚ := 1
  utilizationState : String := "available"
  controllability : String := "owned"
  temporalCharacter : String := "permanent"
  metadata : Option Fields := none
  lastUpdatedByEventId : Option Nat := none
  archivedAt : Option Nat := none

structure EntityAliasRow where
  tenantId : Nat
  aliasText : String
  actorId : Option Nat := none
  resolvedEntityRef : Fields
  isCanonical : Bool := false
  entityMetadata : Fields := []
  confidence : ℚ := 4 / 5
  confirmedCount : Nat := 0
  contestedCount : Nat := 0
  sourceEventId : Option Nat := none

structure PatternRow where
  tenantId : Nat
  proposedSignature : Fields
  observedTendency : Fields
  constituentModelIds : List Nat
  clusterSize : Nat
  density : ℚ

/-- A row of `customer_commitments`; resource and commitment are its key. -/
structure CustomerCommitmentRow where
  id : Nat
  tenantId : Nat
  servedDescription : Option String := none
  relationshipKind : String := "delivers"
  revenueAtRiskUsd : Option ℚ := none
  criticality : String := "medium"

/-- A row of `think_trigger_queue` as it is enqueued. -/
structure TriggerRow where
  tenantId : Nat
  triggerKind : String
  triggerSubkind : Option String := none
  observationId : Option Nat := none
  modelId : Option Nat := none
  payload : Fields := []

/-- The tables that candidates and their promotion touch. `acts` holds tenants, actors,
commitments and observations. -/
structure SubstrateDb where
  acts : Acts.Db := {}
  candidates : Table Nat CandidateRow := ∅
  actorTexts : Table Nat ActorText := ∅
  identityMappings : Table IdentityKey IdentityRow := ∅
  resources : Table Nat ResourceRow := ∅
  entityAliases : Table Nat EntityAliasRow := ∅
  patternCandidates : Table Nat PatternRow := ∅
  models : Table Nat Models.ModelRow := ∅
  /-- By model and actor. -/
  scopeActors : Table (Nat × Nat) Models.ScopeRow := ∅
  /-- By model, entity type and entity. -/
  scopeEntities : Table (Nat × String × Nat) Models.ScopeRow := ∅
  /-- By customer resource and commitment. -/
  customerCommitments : Table (Nat × Nat) CustomerCommitmentRow := ∅
  triggerQueue : Table Nat TriggerRow := ∅

/-- The row that `ON CONFLICT (tenant_id, kind, fingerprint)` finds. -/
def SubstrateDb.candidateAt (db : SubstrateDb) (key : CandidateKey) : Option Nat :=
  (db.candidates.rows.find? fun entry => entry.2.key = key).map Prod.fst

/-- What the code takes from the standard library and from PostgreSQL. -/
structure SubstrateRules where
  /-- `str(value)` of a value that is no text. -/
  str : Json → String
  /-- `float(value)`, if it is one. -/
  float : Json → Option ℚ
  /-- A float as JSON. -/
  number : ℚ → Json
  /-- `str.lower` -/
  lower : String → String
  /-- `str.casefold` -/
  casefold : String → String
  /-- `UUID(text)`, if it is one. -/
  uuid : String → Option Nat
  uuid_text : ∀ id, uuid (toString id) = some id
  /-- `json.dumps(value, sort_keys=True)` -/
  dumps : Json → String
  /-- `=` on `jsonb` -/
  jsonbEq : Json → Json → Bool
  /-- `value::text` of `jsonb` -/
  jsonbText : Json → String

def numberOfText (text : String) : Option Nat :=
  let number := Nat.ofDigitChars 10 text.toList 0
  if toString number = text then some number else none

theorem numberOfText_toString (number : Nat) : numberOfText (toString number) = some number := by
  have hd : Nat.ofDigitChars 10 (toString number).toList 0 = number := by
    rw [show (toString number).toList = Nat.toDigits 10 number from Nat.toList_repr]
    exact Nat.ofDigitChars_ten_toDigits
  simp [numberOfText]

/-- Rules to evaluate a run with: identifiers are numbers, texts are in lower case and no
value is written twice. -/
def plainRules : SubstrateRules where
  str _ := ""
  float _ := none
  number value := .number (toString value)
  lower text := text
  casefold text := text
  uuid := numberOfText
  uuid_text := numberOfText_toString
  dumps _ := ""
  jsonbEq _ _ := false
  jsonbText _ := ""

inductive SubstrateError where
  | validationError (message : String) (context : Fields)
  | act (error : Acts.ActError)
  | python (message : String)
  | database (violation : ConstraintViolation)

structure Resolution where
  status : SubstrateStatus
  promotionRef : Option Fields := none
  proposedCanonicalRef : Option Fields := none
  mergeTargetId : Option Nat := none
  metadataPatch : Fields := []

inductive SubstrateWrite where
  | act (write : Acts.Write)
  | upsertCandidate (id : Nat) (excluded : CandidateRow)
  | resolveCandidate (tenantId id : Nat) (resolution : Resolution)
  | insertActor (id : Nat) (row : Acts.ActorRow) (text : ActorText)
  | upsertIdentity (key : IdentityKey) (excluded : IdentityRow)
  | insertResource (id : Nat) (row : ResourceRow)
  | insertEntityAlias (id : Nat) (row : EntityAliasRow)
  | insertPattern (id : Nat) (row : PatternRow)
  | setModelScopes (tenantId id : Nat) (scopeActors : List Nat) (scopeEntities : List Json)
  | upsertScopeActor (modelId actorId : Nat) (excluded : Models.ScopeRow)
  | upsertScopeEntity (modelId : Nat) (entityType : String) (entityId : Nat)
    (excluded : Models.ScopeRow)
  | upsertLink (resourceId commitmentId : Nat) (excluded : CustomerCommitmentRow)
  | insertTrigger (id : Nat) (row : TriggerRow)

def distinct {α : Type} (same : α → α → Bool) (values : List α) : List α :=
  values.foldl (fun kept value => if kept.any (same value) then kept else kept ++ [value]) []

/-- `SELECT DISTINCT value ... ORDER BY value` of two arrays of identifiers. -/
def distinctIds (ids others : List Nat) : List Nat :=
  (ids ++ others).eraseDups.mergeSort (· ≤ ·)

def distinctAliases (rules : SubstrateRules) (aliases others : List Fields) : List Fields :=
  (distinct (fun first second => rules.jsonbEq (.object first) (.object second))
    (aliases ++ others)).mergeSort
      fun first second => rules.jsonbText (.object first) ≤ rules.jsonbText (.object second)

def SubstrateStatus.mergedWith (status excluded : SubstrateStatus) : SubstrateStatus :=
  if status = .promoted then status
  else if excluded ≠ .proposed then excluded
  else status

def CandidateRow.mergedWith (rules : SubstrateRules) (row excluded : CandidateRow) : CandidateRow :=
  { row with
    label := if row.label.length < excluded.label.length then excluded.label else row.label
    confidence := max row.confidence excluded.confidence
    status := row.status.mergedWith excluded.status
    aliases := distinctAliases rules row.aliases excluded.aliases
    evidenceObservationIds :=
      distinctIds row.evidenceObservationIds excluded.evidenceObservationIds
    evidenceModelIds := distinctIds row.evidenceModelIds excluded.evidenceModelIds
    relatedCandidateIds := distinctIds row.relatedCandidateIds excluded.relatedCandidateIds
    proposedCanonicalRef := row.proposedCanonicalRef.or excluded.proposedCanonicalRef
    metadata := Dict.update row.metadata excluded.metadata
    createdByRunId := row.createdByRunId.or excluded.createdByRunId }

def CandidateRow.resolved (resolution : Resolution) (row : CandidateRow) : CandidateRow :=
  { row with
    status := resolution.status
    promotionRef := resolution.promotionRef.or row.promotionRef
    proposedCanonicalRef := resolution.proposedCanonicalRef.or row.proposedCanonicalRef
    mergeTargetId := resolution.mergeTargetId.or row.mergeTargetId
    metadata := Dict.update row.metadata resolution.metadataPatch }

def upserted {K V : Type} [DecidableEq K] (table : Table K V) (key : K) (excluded : V)
    (merge : V → V) : Table K V :=
  match table.get key with
  | some row => table.put key (merge row)
  | none => table.put key excluded

def SubstrateDb.apply (rules : SubstrateRules) (db : SubstrateDb) : SubstrateWrite → SubstrateDb
  | .act write => { db with acts := db.acts.apply write }
  | .upsertCandidate id excluded =>
    match db.candidateAt excluded.key with
    | some existing =>
      { db with
        candidates := db.candidates.update existing fun row => row.mergedWith rules excluded }
    | none => { db with candidates := db.candidates.insertNew id excluded }
  | .resolveCandidate tenantId id resolution =>
    { db with
      candidates := db.candidates.updateWhere (fun key row => key = id ∧ row.tenantId = tenantId)
        fun _ row => row.resolved resolution }
  | .insertActor id row text =>
    { db with
      acts := { db.acts with actors := db.acts.actors.insertNew id row }
      actorTexts := db.actorTexts.insertNew id text }
  | .upsertIdentity key excluded =>
    { db with
      identityMappings := upserted db.identityMappings key excluded fun row =>
        { actorId := excluded.actorId, confidence := max row.confidence excluded.confidence } }
  | .insertResource id row => { db with resources := db.resources.insertNew id row }
  | .insertEntityAlias id row => { db with entityAliases := db.entityAliases.insertNew id row }
  | .insertPattern id row =>
    { db with patternCandidates := db.patternCandidates.insertNew id row }
  | .setModelScopes tenantId id scopeActors scopeEntities =>
    { db with
      models := db.models.updateWhere (fun key row => key = id ∧ row.tenantId = tenantId)
        fun _ row => { row with scopeActors, scopeEntities } }
  | .upsertScopeActor modelId actorId excluded =>
    { db with
      scopeActors := upserted db.scopeActors (modelId, actorId) excluded fun row =>
        { row with
          source := excluded.source
          confidence := max row.confidence excluded.confidence } }
  | .upsertScopeEntity modelId entityType entityId excluded =>
    { db with
      scopeEntities := upserted db.scopeEntities (modelId, entityType, entityId) excluded
        fun row =>
          { row with
            source := excluded.source
            confidence := max row.confidence excluded.confidence } }
  | .upsertLink resourceId commitmentId excluded =>
    { db with
      customerCommitments :=
        upserted db.customerCommitments (resourceId, commitmentId) excluded fun row =>
          { row with
            servedDescription := excluded.servedDescription
            relationshipKind := excluded.relationshipKind
            revenueAtRiskUsd := excluded.revenueAtRiskUsd
            criticality := excluded.criticality } }
  | .insertTrigger id row => { db with triggerQueue := db.triggerQueue.insertNew id row }

theorem get_resolveCandidate (rules : SubstrateRules) (db : SubstrateDb) (tenantId id other : Nat)
    (resolution : Resolution) :
    (db.apply rules (.resolveCandidate tenantId id resolution)).candidates.get other =
      (db.candidates.get other).map fun row =>
        if other = id ∧ row.tenantId = tenantId then row.resolved resolution else row := by
  simp only [SubstrateDb.apply, Table.get_updateWhere]
  cases db.candidates.get other with
  | none => rfl
  | some row => simp [Table.changed]

theorem get_upsertCandidate (rules : SubstrateRules) (newId : Nat) (excluded : CandidateRow)
    {db : SubstrateDb} {id : Nat} (hr : db.candidates.get id = some row) :
    ∃ u, (db.apply rules (.upsertCandidate newId excluded)).candidates.get id = some u ∧
      (u = row ∨ row.key = excluded.key ∧ u = row.mergedWith rules excluded) := by
  simp only [SubstrateDb.apply]
  split
  · next existing hex =>
    rw [Table.get_update, hr]
    split
    · next hs =>
      refine ⟨_, rfl, .inr ⟨?_, rfl⟩⟩
      obtain ⟨⟨found, other⟩, hf, hi⟩ := Option.map_eq_some_iff.mp hex
      have hg := (Table.mem_rows_iff _ _ _).mp (List.mem_of_find?_eq_some hf)
      obtain rfl : found = id := hi.trans hs.symm
      cases hg.symm.trans hr
      simpa using List.find?_some hf
    · exact ⟨_, rfl, .inl rfl⟩
  · refine ⟨row, ?_, .inl rfl⟩
    rw [Table.get_insertNew, if_neg, hr]
    rintro ⟨rfl, hn⟩
    rw [hr] at hn
    cases hn

/-- A statement that finds a candidate to write holds its row; an INSERT holds the key
that it adds. -/
abbrev SubstrateTx := Tx SubstrateDb SubstrateWrite CandidateKey SubstrateError

def constrained (lock : SubstrateDb → Option CandidateKey)
    (constraints : SubstrateDb → List (Bool × ConstraintViolation)) (write : SubstrateWrite) :
    SubstrateTx Unit :=
  .query lock fun db =>
    match (constraints db).find? fun constraint => !constraint.1 with
    | some constraint => .error (.database constraint.2)
    | none => .ok ([write], ())

def tenantExists (table : String) (tenantId : Nat) (db : SubstrateDb) :
    Bool × ConstraintViolation :=
  (decide (tenantId ∈ db.acts.tenants), .foreignKey table "tenant_id")

/-! ### `substrate_candidates.py` -/

structure CandidateUpsert where
  tenantId : Nat
  kind : String
  label : String
  fingerprint : String
  confidence : ℚ := 1 / 2
  aliases : List Fields := []
  evidenceObservationIds : List Nat := []
  evidenceModelIds : List Nat := []
  relatedCandidateIds : List Nat := []
  proposedCanonicalRef : Option Fields := none
  metadata : Fields := []
  status : String := "proposed"
  createdByRunId : Option Nat := none

section

variable (rules : SubstrateRules) (args : CandidateUpsert)

def validateCandidateInputs : SubstrateTx (SubstrateKind × SubstrateStatus) := do
  let kind ← Tx.orRaise (substrateKinds.find? fun kind => kind.text == args.kind)
    (.validationError ("invalid substrate candidate kind " ++ Acts.quoted args.kind)
      [("field", .string "kind"), ("value", .string args.kind)])
  let status ← Tx.orRaise (substrateStatuses.find? fun status => status.text == args.status)
    (.validationError ("invalid substrate candidate status " ++ Acts.quoted args.status)
      [("field", .string "status"), ("value", .string args.status)])
  Tx.ensure (strip args.label ≠ "")
    (.validationError "label must be non-empty" [("field", .string "label")])
  Tx.ensure (strip args.fingerprint ≠ "")
    (.validationError "fingerprint must be non-empty" [("field", .string "fingerprint")])
  Tx.ensure (0 ≤ args.confidence ∧ args.confidence ≤ 1)
    (.validationError "confidence must be in [0,1]"
      [("field", .string "confidence"), ("value", rules.number args.confidence)])
  return (kind, status)

def CandidateUpsert.row (kind : SubstrateKind) (status : SubstrateStatus) : CandidateRow where
  tenantId := args.tenantId
  kind := kind
  label := strip args.label
  status := status
  confidence := args.confidence
  fingerprint := strip args.fingerprint
  aliases := distinct (fun first second =>
    rules.dumps (.object first) == rules.dumps (.object second)) args.aliases
  evidenceObservationIds := args.evidenceObservationIds.eraseDups
  evidenceModelIds := args.evidenceModelIds.eraseDups
  relatedCandidateIds := args.relatedCandidateIds.eraseDups
  proposedCanonicalRef := args.proposedCanonicalRef
  metadata := args.metadata
  createdByRunId := args.createdByRunId

def getSubstrateCandidate (tenantId candidateId : Nat) : SubstrateTx (Option SubstrateCandidate) :=
  Tx.read fun db =>
    ((db.candidates.get candidateId).filter (·.tenantId = tenantId)).map fun row =>
      { row with id := candidateId }

def upsertSubstrateCandidate : SubstrateTx (Option SubstrateCandidate) := do
  let (kind, status) ← validateCandidateInputs rules args
  let row := args.row rules kind status
  let candidateId ← Tx.newId
  constrained (fun _ => some row.key)
    (fun db => [tenantExists "substrate_candidates" args.tenantId db])
    (.upsertCandidate candidateId row)
  Tx.read fun db =>
    (db.candidateAt row.key).bind fun id => (db.candidates.get id).map fun row =>
      { row with id := id }

end

def markCandidateResolution (candidate : SubstrateCandidate) (resolution : Resolution) :
    SubstrateTx Unit :=
  constrained
    (fun db => ((db.candidates.get candidate.id).filter (·.tenantId = candidate.tenantId)).map
      CandidateRow.key)
    (fun db =>
      [(((db.candidates.get candidate.id).filter (·.tenantId = candidate.tenantId)).isNone ||
          Acts.referenceHolds (fun id => (db.candidates.get id).isSome) resolution.mergeTargetId,
        .foreignKey "substrate_candidates" "merge_target_id")])
    (.resolveCandidate candidate.tenantId candidate.id resolution)

end FyralisCore.Substrate
