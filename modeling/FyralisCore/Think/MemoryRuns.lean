import FyralisCore.Models.Falsifier
import FyralisCore.Think.ApplyLoops

/-! Runs of the operations that write the confidence of models: the validation of each
(`_validate_claim_op`, `_validate_memory_lifecycle_op` of `validator.py`), the merge that
the reconciler puts in the place of an insert (`_build_auto_merge_replacement` of
`reconciler.py`), and their application. -/
namespace FyralisCore.Think.Applier

open Relational Transaction
open Acts (Json strip)

structure MemoryDb where
  think : ThinkDb := {}
  falsifiers : Table Nat (Option Json) := ∅

def MemoryDb.domain (db : MemoryDb) : DomainDb := db.think.domain

def MemoryDb.falsifier (db : MemoryDb) (modelId : Nat) : Option Json :=
  (db.falsifiers.get modelId).join

abbrev MemoryTx (α : Type) : Type := Tx MemoryDb (MemoryDb → MemoryDb) Empty DomainError α

def thinkPart : Part MemoryDb (change : ThinkDb → (ThinkDb → ThinkDb) → ThinkDb) where
  view := MemoryDb.think
  put db think := { db with think }
  put_view _ := rfl
  put_put _ _ _ := rfl
  view_put _ _ := rfl

def onThink {α : Type} (body : ThinkTx α) : MemoryTx α := body.onPart thinkPart id

structure MemoryRules where
  falsifier : Models.FalsifierRules
  str : Json → String
  parseUuid : String → Option Nat
  validateRecommendation : Json → Nat → Models.ModelDb → Option String

section

variable (rules : MemoryRules)

def MemoryRules.inadequacy (now : Nat) (falsifier : Option Json) : Option String :=
  match Models.isAdequateFalsifier rules.falsifier now falsifier with
  | .ok reason => reason
  | .error _ => some "malformed falsifier"

def MemoryRules.insertRules (now : Nat) : Models.InsertRules where
  str := rules.str
  parseUuid := rules.parseUuid
  isAdequateFalsifier := rules.inadequacy now
  validateRecommendation := rules.validateRecommendation

/-- A claim insert: the draft with the confidence as proposed, what
`apply_calibration` makes of it (times the offset of the calibration row, the one of the kind,
or 1) and the cap of linguistic uncertainty. -/
structure ClaimInsert where
  draft : Models.ModelCreate
  supportingEventIds : List Nat := []
  calibrate : Rat → Rat := id
  uncertaintyCap : Option Rat := none

def ClaimInsert.confidence (insert : ClaimInsert) : Rat :=
  let calibrated := clipConfidence (clipConfidence (insert.calibrate
    (clipConfidence insert.draft.confidence)))
  insert.uncertaintyCap.elim calibrated (min calibrated)

def ClaimInsert.validate (now : Nat) (insert : ClaimInsert) :
    Except DomainError Models.ModelCreate :=
  let draft := { insert.draft with id := none, confidence := insert.confidence }
  match Models.checkFalsifier (rules.insertRules now) draft with
  | .ok () => .ok draft
  | .error error => .error (.model error)

/-- `_insert_model_row`, the columns that the model store does not hold. -/
def insertBelief (insert : ClaimInsert) (draft : Models.ModelCreate) (modelId : Nat)
    (db : MemoryDb) : MemoryDb :=
  { db with
    think :=
      { db.think with
        domain :=
          { db.think.domain with
            beliefs := db.think.domain.beliefs.put modelId
              { confidence := clipConfidence draft.confidence
                supportingEventIds := insert.supportingEventIds
                propositionKind := Models.textField "kind" draft.proposition
                claimRole := some (Models.claimRole draft.proposition).text } } }
    falsifiers := db.falsifiers.put modelId draft.falsifier }

def applyClaimInsert (ctx : ApplyContext) (insert : ClaimInsert) (draft : Models.ModelCreate) :
    MemoryTx Unit := do
  let modelId ← onThink (onDomain (onModels
    (Models.insertConstructed (rules.insertRules ctx.clock.processNow) ctx.clock.transactionNow
      draft)))
  .query (fun _ => none) fun _ => .ok ([insertBelief insert draft modelId], ())

def ModelChanges.validate (changes : ModelChanges) : Except DomainError ModelChanges :=
  if changes = {} then .error (.validationError "claim_op update requires non-empty changes")
  else .ok { changes with confidence := changes.confidence.map clipConfidence }

def autoMergeChanges (now : Nat) (draft : Models.ModelCreate) (belief : BeliefRow) :
    ModelChanges where
  confidence := some (max draft.confidence belief.confidence)
  lastConfirmedAt := some now
  confirmedCount := some (belief.confirmedCount + 1)
  supportingEventIds :=
    some (mergeEventIds [belief.supportingEventIds, [draft.bornFromEventId]])

def matchedModel (ctx : ApplyContext) (modelId : Nat) (db : DomainDb) :
    Option (Models.ModelRow × BeliefRow) :=
  (db.model modelId).filter fun found =>
    found.1.tenantId = ctx.tenantId ∧ found.1.status = .active

structure LifecycleProposal where
  op : MemoryLifecycleOp
  rationale : String
  supersededByModelId : Option Nat := none

def LifecycleProposal.modelIds (proposal : LifecycleProposal) : List Nat :=
  proposal.op.modelId :: proposal.op.evidenceModelIds ++ proposal.supersededByModelId.toList

def LifecycleProposal.hasModels (ctx : ApplyContext) (proposal : LifecycleProposal)
    (db : DomainDb) : Bool :=
  proposal.modelIds.all fun modelId =>
    (db.models.models.get modelId).any fun row => row.tenantId = ctx.tenantId

/-- `_validate_memory_lifecycle_op`; the reason of an archive is a registered one. -/
def LifecycleProposal.validate (ctx : ApplyContext) (proposal : LifecycleProposal)
    (db : DomainDb) : Except DomainError MemoryLifecycleOp :=
  let op := proposal.op
  let judges := op.action = .confirm ∨ op.action = .falsify ∨ op.action = .revise ∨
    op.action = .unchanged
  if strip proposal.rationale = "" then
    .error (.validationError "memory_lifecycle_op requires rationale")
  else if ¬ op.confidence.all fun confidence => 0 ≤ confidence ∧ confidence ≤ 1 then
    .error (.validationError "memory_lifecycle_op confidence must be in [0, 1]")
  else if ¬ op.confidenceDelta.all fun delta => -19 / 20 ≤ delta ∧ delta ≤ 19 / 20 then
    .error (.validationError "memory_lifecycle_op confidence_delta must be in [-0.95, 0.95]")
  else if ¬ proposal.hasModels ctx db then
    .error (.validationError "memory_lifecycle_op references missing model(s)")
  else if ¬ (db.models.models.get op.modelId).any fun row => row.status = .active then
    .error (.validationError "memory_lifecycle_op target model must be active")
  else if op.action = .supersede ∧ proposal.supersededByModelId = none then
    .error (.validationError "memory_lifecycle_op supersede requires superseded_by_model_id")
  else if ¬ op.evidenceEventIds.all fun eventId =>
      (db.acts.observations.get eventId).any fun row => row.tenantId = ctx.tenantId then
    .error (.validationError "memory_lifecycle_op references missing observation(s)")
  else if judges ∧ op.evidenceEventIds = [] ∧ op.evidenceModelIds = [] then
    .error (.validationError "memory_lifecycle_op requires evidence")
  else .ok op

inductive MemoryCall where
  | insert (given : ClaimInsert)
  | update (modelId : Nat) (changes : ModelChanges)
  | lifecycle (proposal : LifecycleProposal)
  /-- An insert that the reconciler merges into a model. -/
  | merge (given : ClaimInsert) (matchedId : Nat)

def MemoryCall.body (ctx : ApplyContext) : MemoryCall → MemoryTx Unit
  | .insert given => do
    let draft ← Tx.ofExcept (given.validate rules ctx.clock.processNow)
    applyClaimInsert rules ctx given draft
  | .update modelId changes => do
    let changes ← Tx.ofExcept changes.validate
    onThink (onDomain (applyClaimUpdate ctx modelId changes))
  | .lifecycle proposal => do
    let validated ← Tx.read fun db => proposal.validate ctx db.domain
    let op ← Tx.ofExcept validated
    (onThink (applyLifecycleStep ctx op)).bind fun _ => .done ()
  | .merge given matchedId => do
    let draft ← Tx.ofExcept (given.validate rules ctx.clock.processNow)
    let found ← Tx.read fun db => matchedModel ctx matchedId db.domain
    let (_, belief) ← Tx.orRaise found (.validationError "no match")
    onThink (onDomain
      (applyClaimUpdate ctx matchedId (autoMergeChanges ctx.clock.processNow draft belief)))

structure MemoryState where
  db : MemoryDb := {}
  now : Nat := 0
  supply : Nat := 0

inductive MemoryAction where
  /-- Time passes. -/
  | tick (later : Nat)
  | call (ctx : ApplyContext) (call : MemoryCall)

def ApplyContext.at (ctx : ApplyContext) (now : Nat) : ApplyContext :=
  { ctx with clock := { ctx.clock with processNow := now } }

def memoryStep (state : MemoryState) : MemoryAction → Option MemoryState
  | .tick later => if state.now ≤ later then some { state with now := later } else none
  | .call ctx call =>
    let outcome := (call.body rules (ctx.at state.now)).exec change state.db state.supply
    match outcome.result with
    | .ok () => some { state with db := outcome.state, supply := outcome.supply }
    -- The transaction is rolled back.
    | .error _ => none

end

def MemoryState.IsEmpty (state : MemoryState) : Prop :=
  state.db.domain.models.models = ∅

end FyralisCore.Think.Applier
