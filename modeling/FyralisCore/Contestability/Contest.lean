import FyralisCore.Access.Checks
import FyralisCore.Acts.Goals
import FyralisCore.Lib.Dict
import FyralisCore.Lib.ReadCommitted
import Mathlib.Tactic.Linarith

/-! Contesting a model (`service.py`, `standing.py`): the call takes a snapshot
of the model without a lock, counts itself in place and writes the confidence
and the readings it computes from the snapshot. Confidences are rational. -/
namespace FyralisCore.Contestability

open Relational Transaction
open Acts (Json)

/-- The kind a request names; only the first two are legal. -/
inductive ContestationKind where
  | belief
  | reading
  | other (text : String)
  deriving DecidableEq, Repr

def ContestationKind.text : ContestationKind → String
  | .belief => "belief"
  | .reading => "reading"
  | .other text => text

structure ContestationInput where
  modelId : Nat
  contestorActorId : Nat
  tenantId : Nat
  contestationKind : ContestationKind
  rationale : String
  proposedAlternative : Option Json := none

/-- A call, with what it reads from the clock, in ISO format. -/
structure ContestCall where
  input : ContestationInput
  now : String

structure ModelRow where
  tenantId : Nat
  scopeActors : List Nat := []
  scopeEntities : List Access.ScopeEntity := []
  confidence : Rat
  contestedCount : Nat := 0
  signalReadings : Option Json := some (.array [])

/-- The `contestation` observation: `content` names the model, the kind, the
reason and the alternative. -/
structure ObservationRow where
  id : Nat
  tenantId : Nat
  occurredAt : String
  actorId : Nat
  contestedModelId : Nat
  contestationKind : ContestationKind
  reason : String
  proposedAlternative : Option Json
  contentText : String

def ObservationRow.call (row : ObservationRow) : ContestCall where
  input :=
    { modelId := row.contestedModelId
      contestorActorId := row.actorId
      tenantId := row.tenantId
      contestationKind := row.contestationKind
      rationale := row.reason
      proposedAlternative := row.proposedAlternative }
  now := row.occurredAt

structure NoteRow where
  id : Nat
  modelId : Nat
  note : String
  authoredBy : Nat

structure TriggerRow where
  id : Nat
  tenantId : Nat
  triggerSubkind : String
  observationId : Nat
  modelId : Nat
  contestorActorId : Nat
  contestationKind : ContestationKind

structure ModelSnapshot where
  tenantId : Nat
  previousConfidence : Rat
  scopeActors : List Nat
  signalReadings : Option Json

def ModelRow.snapshot (row : ModelRow) : ModelSnapshot where
  tenantId := row.tenantId
  previousConfidence := row.confidence
  scopeActors := row.scopeActors
  signalReadings := row.signalReadings

/-- `access` holds the tables that standing is decided from. -/
structure Db where
  models : Table Nat ModelRow := ∅
  access : Access.Db := {}
  observations : List ObservationRow := []
  notes : List NoteRow := []
  triggers : List TriggerRow := []

inductive RowRef where
  | model (id : Nat)
  deriving DecidableEq, Repr

/-- `took` changes no row: it keeps in the trail of a session which snapshot it
has read. -/
inductive Write where
  | took (input : ContestationInput) (snapshot : ModelSnapshot)
  | insertObservation (row : ObservationRow)
  | incrementContestedCount (modelId : Nat)
  | setConfidence (modelId : Nat) (confidence : Rat)
  | setSignalReadings (modelId : Nat) (readings : Json)
  | insertNote (row : NoteRow)
  | insertTrigger (row : TriggerRow)

def Write.target : Write → Option Nat
  | .incrementContestedCount modelId => some modelId
  | .setConfidence modelId _ => some modelId
  | .setSignalReadings modelId _ => some modelId
  | _ => none

def Write.onRow : Write → ModelRow → ModelRow
  | .incrementContestedCount _, row => { row with contestedCount := row.contestedCount + 1 }
  | .setConfidence _ confidence, row => { row with confidence }
  | .setSignalReadings _ readings, row => { row with signalReadings := some readings }
  | _, row => row

def Db.updateModel (db : Db) (write : Write) (modelId : Nat) : Db :=
  { db with models := db.models.update modelId write.onRow }

def Db.apply (db : Db) (write : Write) : Db :=
  match write with
  | .took _ _ => db
  | .insertObservation row => { db with observations := db.observations ++ [row] }
  | .incrementContestedCount modelId => db.updateModel write modelId
  | .setConfidence modelId _ => db.updateModel write modelId
  | .setSignalReadings modelId _ => db.updateModel write modelId
  | .insertNote row => { db with notes := db.notes ++ [row] }
  | .insertTrigger row => { db with triggers := db.triggers ++ [row] }

inductive ContestationError where
  | validationError (message : String) (context : List (String × String))
  | noStanding (message : String) (context : List (String × String))
  deriving DecidableEq, Repr

abbrev ContestTx (α : Type) : Type := Tx Db Write RowRef ContestationError α

inductive StandingBasis where
  | scope
  | owner
  | contributor
  | managerChain
  deriving DecidableEq, Repr

def standingByCommitment (db : Access.Db) (tenantId actorId : Nat)
    (scopeEntities : List Access.ScopeEntity) : Option StandingBasis :=
  scopeEntities.findSome? fun entity =>
    if entity.type = some "commitment" then
      entity.id.bind fun commitmentId =>
        ((db.commitments.get commitmentId).filter fun row => row.tenantId = tenantId).bind
          fun row =>
            if row.ownerId = some actorId then some .owner
            else if Access.isContributor db commitmentId actorId then some .contributor
            else none
    else none

def standingByChain (db : Access.Db) (tenantId actorId : Nat) (scopeActors : List Nat) :
    Option StandingBasis :=
  if scopeActors.any fun subject => Access.isInManagerChain db.actors tenantId subject actorId then
    some .managerChain
  else none

def standing (db : Db) (actorId modelId : Nat) : Option StandingBasis :=
  (db.models.get modelId).bind fun row =>
    if actorId ∈ row.scopeActors then some .scope
    else (standingByCommitment db.access row.tenantId actorId row.scopeEntities).or
      (standingByChain db.access row.tenantId actorId row.scopeActors)

def primarySubjectMultiplier : Rat := 3 / 10

def secondarySubjectMultiplier : Rat := 5 / 10

def overrideFloor : Rat := 15 / 100

section

variable (input : ContestationInput)

def ContestationInput.overrides (scopeActors : List Nat) : Bool :=
  input.contestationKind = .belief && input.contestorActorId ∈ scopeActors

def isPrimary (scopeActors : List Nat) : Bool :=
  scopeActors.head? = some input.contestorActorId

def multiplier (scopeActors : List Nat) : Rat :=
  if isPrimary input scopeActors then primarySubjectMultiplier else secondarySubjectMultiplier

def overridden (snapshot : ModelSnapshot) : Rat :=
  min (max overrideFloor
    (snapshot.previousConfidence * multiplier input snapshot.scopeActors)) (95 / 100)

def coerceSignalReadings : Option Json → List Json
  | some (.array entries) => entries
  | _ => []

def isEntryOf : Json → Bool
  | .object fields =>
    match fields.lookup "actor_id" with
    | some (.string actorId) => actorId = toString input.contestorActorId
    | _ => false
  | _ => false

end

def markEntry (call : ContestCall) : Json → Json
  | .object fields =>
    .object (Dict.set "rationale" (.string call.input.rationale)
      (Dict.set "contested_at" (.string call.now) (Dict.set "contested" (.bool true) fields)))
  | entry => entry

def newEntry (call : ContestCall) : Json :=
  .object [("actor_id", .string (toString call.input.contestorActorId)),
    ("contested", .bool true), ("contested_at", .string call.now),
    ("rationale", .string call.input.rationale)]

/-- The first entry of the contestor is marked; without one, an entry is added. -/
def markContested (call : ContestCall) : List Json → List Json
  | [] => [newEntry call]
  | entry :: rest =>
    if isEntryOf call.input entry then markEntry call entry :: rest
    else entry :: markContested call rest

/-! ### contest_model -/

section

variable (input : ContestationInput)

def validateContestationInput : Except ContestationError Unit :=
  match input.contestationKind with
  | .other text =>
    .error (.validationError
      ("contestation_kind must be 'belief' or 'reading'; got '" ++ text ++ "'")
      [("field", "contestation_kind"), ("value", text)])
  | _ =>
    if Acts.isBlank input.rationale then
      .error (.validationError "rationale is required and must be non-empty"
        [("field", "rationale")])
    else .ok ()

def requireStanding : ContestTx StandingBasis := do
  let found ← Tx.read fun db => standing db input.contestorActorId input.modelId
  Tx.orRaise found (.noStanding
    ("actor " ++ toString input.contestorActorId ++ " has no standing on model " ++
      toString input.modelId)
    [("actor_id", toString input.contestorActorId), ("model_id", toString input.modelId)])

def loadModelSnapshot : ContestTx ModelSnapshot :=
  Tx.query (fun _ => none) fun db =>
    match db.models.get input.modelId with
    | none =>
      .error (.validationError ("model " ++ toString input.modelId ++ " does not exist")
        [("model_id", toString input.modelId)])
    | some row =>
      if row.tenantId ≠ input.tenantId then
        .error (.validationError "tenant mismatch: model belongs to a different tenant"
          [("model_tenant_id", toString row.tenantId),
            ("request_tenant_id", toString input.tenantId)])
      else .ok ([.took input row.snapshot], row.snapshot)

def insert (write : Write) : ContestTx Unit :=
  Tx.query (fun _ => none) fun _ => .ok ([write], ())

def updateModel (modelId : Nat) (write : Write) : ContestTx Unit :=
  Tx.query (fun db => (db.models.get modelId).map fun _ => .model modelId) fun _ =>
    .ok ([write], ())

def observationOf (call : ContestCall) (id : Nat) : ObservationRow where
  id
  tenantId := call.input.tenantId
  occurredAt := call.now
  actorId := call.input.contestorActorId
  contestedModelId := call.input.modelId
  contestationKind := call.input.contestationKind
  reason := call.input.rationale
  proposedAlternative := call.input.proposedAlternative
  contentText :=
    "contestation (" ++ call.input.contestationKind.text ++ ") of model " ++
      toString call.input.modelId ++ " by actor " ++ toString call.input.contestorActorId ++
      ": " ++ (call.input.rationale.take 200).toString

def insertContestationObservation (call : ContestCall) : ContestTx Nat := do
  let id ← Tx.newId
  insert (.insertObservation (observationOf call id))
  pure id

def addNote (modelId : Nat) (note : String) (authoredBy : Nat) : ContestTx Unit := do
  let id ← Tx.newId
  insert (.insertNote { id, modelId, note, authoredBy })

structure OverrideResult where
  newConfidence : Rat
  applied : Bool

def applyFirstPersonOverride (snapshot : ModelSnapshot) : ContestTx OverrideResult :=
  if input.overrides snapshot.scopeActors then do
    let newConfidence := overridden input snapshot
    updateModel input.modelId (.setConfidence input.modelId newConfidence)
    let role := if isPrimary input snapshot.scopeActors then "primary" else "secondary"
    addNote input.modelId
      ("first-person override (" ++ role ++ ") by actor " ++ toString input.contestorActorId ++
        ": " ++ (input.rationale.take 200).toString)
      input.contestorActorId
    pure ⟨newConfidence, true⟩
  else pure ⟨snapshot.previousConfidence, false⟩

def markReadingContested (call : ContestCall) (signalReadings : Option Json) :
    ContestTx Unit := do
  updateModel call.input.modelId (.setSignalReadings call.input.modelId
    (.array (markContested call (coerceSignalReadings signalReadings))))
  addNote call.input.modelId
    ("reading contestation by actor " ++ toString call.input.contestorActorId ++ ": " ++
      (call.input.rationale.take 200).toString)
    call.input.contestorActorId

def triggerOf (observationId id : Nat) : TriggerRow where
  id
  tenantId := input.tenantId
  triggerSubkind :=
    if input.contestationKind = .belief then "belief_contestation" else "reading_contestation"
  observationId
  modelId := input.modelId
  contestorActorId := input.contestorActorId
  contestationKind := input.contestationKind

def enqueueContestationTrigger (observationId : Nat) : ContestTx Nat := do
  let id ← Tx.newId
  insert (.insertTrigger (triggerOf input observationId id))
  pure id

end

structure ContestationResult where
  observationId : Nat
  triggerId : Nat
  newConfidence : Rat
  previousConfidence : Rat
  standingBasis : StandingBasis
  overrideApplied : Bool

def contestModel (call : ContestCall) : ContestTx ContestationResult := do
  Tx.ofExcept (validateContestationInput call.input)
  let basis ← requireStanding call.input
  let snapshot ← loadModelSnapshot call.input
  let observationId ← insertContestationObservation call
  updateModel call.input.modelId (.incrementContestedCount call.input.modelId)
  let override ← applyFirstPersonOverride call.input snapshot
  Tx.when (call.input.contestationKind = .reading)
    (markReadingContested call snapshot.signalReadings)
  let triggerId ← enqueueContestationTrigger call.input observationId
  pure
    { observationId
      triggerId
      newConfidence := override.newConfidence
      previousConfidence := snapshot.previousConfidence
      standingBasis := basis
      overrideApplied := override.applied }

def contest (call : ContestCall) : ContestTx Unit := do
  let _ ← contestModel call
  pure ()

def contestSchema : ReadCommitted.Schema Db Write RowRef ContestationError ContestCall where
  apply := Db.apply
  program := contest

/-! ### What a contestation does to its model -/

def contested (call : ContestCall) (row : ModelRow) : ModelRow where
  tenantId := row.tenantId
  scopeActors := row.scopeActors
  scopeEntities := row.scopeEntities
  confidence :=
    if call.input.overrides row.scopeActors then overridden call.input row.snapshot
    else row.confidence
  contestedCount := row.contestedCount + 1
  signalReadings :=
    if call.input.contestationKind = .reading then
      some (.array (markContested call (coerceSignalReadings row.signalReadings)))
    else row.signalReadings

theorem multiplier_lt_one (input : ContestationInput) (scopeActors : List Nat) :
    multiplier input scopeActors < 1 := by
  unfold multiplier primarySubjectMultiplier secondarySubjectMultiplier
  split <;> norm_num

/-- An override lowers every confidence that is not below its floor, and raises
the ones that are. -/
theorem overridden_le_iff (input : ContestationInput) (snapshot : ModelSnapshot) :
    overridden input snapshot ≤ snapshot.previousConfidence ↔
      overrideFloor ≤ snapshot.previousConfidence := by
  have hm := multiplier_lt_one input snapshot.scopeActors
  constructor
  · intro hl
    have hf : overrideFloor ≤ min (max overrideFloor
        (snapshot.previousConfidence * multiplier input snapshot.scopeActors)) (95 / 100) :=
      le_min (le_max_left _ _) (by norm_num [overrideFloor])
    exact hf.trans hl
  · intro hf
    have hp : 0 < snapshot.previousConfidence := lt_of_lt_of_le (by norm_num [overrideFloor]) hf
    refine (min_le_left _ _).trans (max_le hf ?_)
    nlinarith

theorem contested_confidence_le_iff (call : ContestCall) (row : ModelRow) :
    (contested call row).confidence ≤ row.confidence ↔
      (call.input.overrides row.scopeActors → overrideFloor ≤ row.confidence) := by
  unfold contested
  by_cases ho : call.input.overrides row.scopeActors
  · simp only [ho, ↓reduceIte, true_imp_iff]
    exact overridden_le_iff call.input row.snapshot
  · simp [ho]

end FyralisCore.Contestability
