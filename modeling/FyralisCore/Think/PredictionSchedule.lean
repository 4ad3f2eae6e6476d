import FyralisCore.Think.Enqueue

/-! What a validation that returns has let through: the diff is made of what its passes
have kept, and every operation of a pass comes from one that its check has accepted. -/
namespace FyralisCore.Think.Validator

open Relational Transaction PartialAccept
open Applier (EdgeOp RelationClaimOp LifecycleProposal)

structure Passes where
  claims : OpPass ClaimOp
  lifecycle : OpPass LifecycleProposal
  edges : OpPass EdgeOp
  relationClaims : OpPass RelationClaimOp
  frames : OpPass RelationFrameOp
  gaps : OpPass OntologyGapOp
  acts : OpPass ActOp
  resources : OpPass ResourceOp

def Passes.diff (passes : Passes) (raw : RawDiff) : ValidatedDiff :=
  validatedDiff raw passes.claims passes.lifecycle passes.edges passes.relationClaims passes.frames
    passes.gaps passes.acts passes.resources

def Passes.basis (rules : ValidatorRules) (passes : Passes) : Table Nat Rat :=
  pendingClaimBasisConfidence rules passes.claims.kept

variable {rules : ValidatorRules} {vctx : ValidationContext} {raw : RawDiff}
  {validated : ValidatedDiff} {region : Option (List EntityRef)} {strict : Bool}

structure Passes.Hold (rules : ValidatorRules) (vctx : ValidationContext) (raw : RawDiff)
    (passes : Passes) : Prop where
  claims : validateClaimOps rules vctx (raw.claimOps ++ raw.newPredictions) = .ok passes.claims
  lifecycle : validateMemoryLifecycleOps vctx raw = .ok passes.lifecycle
  edges : validateEdgeOps rules vctx raw (passes.basis rules).primaryKeys = .ok passes.edges
  relationClaims : validateRelationClaimOps rules vctx raw (passes.basis rules).primaryKeys =
    .ok passes.relationClaims
  frames : validateRelationFrameOps rules vctx raw (passes.basis rules).primaryKeys =
    .ok passes.frames
  gaps : validateOntologyGapOps vctx raw (passes.basis rules).primaryKeys = .ok passes.gaps
  acts : validateActOps rules vctx raw (passes.basis rules) = .ok passes.acts
  resources : validateResourceOps vctx raw = .ok passes.resources

theorem raiseIfEveryOpFailed_eq_ok {total : Nat}
    (hr : raiseIfEveryOpFailed total neutralized diff = .ok validated) : validated = diff := by
  unfold raiseIfEveryOpFailed at hr
  split at hr
  · cases hr
  · exact (Except.ok.inj hr).symm

section

variable (hv : validate rules vctx raw region strict = .ok validated)

include hv

theorem passes_of_validate : enforceRegionContainment rules raw
    (raw.claimOps ++ raw.newPredictions) region strict = .ok () ∧ ∃ passes : Passes,
    passes.Hold rules vctx raw ∧ validated = passes.diff raw := by
  obtain ⟨⟨⟩, hrg, hv⟩ := bind_eq_ok_iff.mp hv
  obtain ⟨claims, hc, hv⟩ := bind_eq_ok_iff.mp hv
  obtain ⟨lifecycle, hl, hv⟩ := bind_eq_ok_iff.mp hv
  obtain ⟨edges, he, hv⟩ := bind_eq_ok_iff.mp hv
  obtain ⟨relationClaims, hr, hv⟩ := bind_eq_ok_iff.mp hv
  obtain ⟨frames, hf, hv⟩ := bind_eq_ok_iff.mp hv
  obtain ⟨gaps, hg, hv⟩ := bind_eq_ok_iff.mp hv
  obtain ⟨acts, ha, hv⟩ := bind_eq_ok_iff.mp hv
  obtain ⟨resources, hrs, hv⟩ := bind_eq_ok_iff.mp hv
  refine ⟨hrg, ⟨claims, lifecycle, edges, relationClaims, frames, gaps, acts, resources⟩, ?_,
    raiseIfEveryOpFailed_eq_ok hv⟩
  exact ⟨hc, hl, he, hr, hf, hg, ha, hrs⟩

theorem mem_claimOps_iff (op : ClaimOp) : op ∈ validated.claimOps ↔
    ∃ given ∈ raw.claimOps ++ raw.newPredictions,
    acceptClaimOp rules vctx.ctx.clock.processNow vctx.db given = .ok (some op) := by
  obtain ⟨-, passes, hh, rfl⟩ := passes_of_validate hv
  exact mem_kept_iff hh.claims

theorem newPredictions_eq_nil : validated.newPredictions = [] := by
  obtain ⟨-, passes, -, rfl⟩ := passes_of_validate hv
  rfl

theorem tenantId_eq : validated.tenantId = raw.tenantId := by
  obtain ⟨-, passes, -, rfl⟩ := passes_of_validate hv
  rfl

theorem triggerRef_eq : validated.triggerRef = raw.triggerRef := by
  obtain ⟨-, passes, -, rfl⟩ := passes_of_validate hv
  rfl

end

end FyralisCore.Think.Validator

/-! Which predictions of a diff a schedule_predictions action names, from the diff as it is
proposed to the queue after its application. -/
namespace FyralisCore.Think.PostCommit

open Relational Transaction
open Acts (Json)
open Applier (Entry ThinkTx ApplyContext DomainError fieldsOf)
open Validator

section

variable (loads : String → Option Json)

def jsonObj : Option Json → Entry
  | some (.string text) => fieldsOf (loads text)
  | value => fieldsOf value

def isPredictionEntry (entry : Entry) : Bool :=
  let proposition := jsonObj loads (entry.get "proposition")
  proposition.isText "kind" "prediction" || proposition.isText "claim_role" "prediction" ||
    entry.isText "claim_role" "prediction"

def predictionEntry (op : ClaimOp) : Option Entry :=
  match op.op with
  | .insert => op.entry.filter (isPredictionEntry loads)
  | _ => none

def namedEntries (payload : Json) : List Json :=
  match Models.field "predictions" payload with
  | some (.array items) => items.filterMap (Models.field "entry")
  | _ => []

def Scheduled (actions : Table Nat ActionRow) (tenantId triggerId : Nat) (entry : Entry) : Prop :=
  ∃ id row, actions.get id = some row ∧ row.actionKind = .schedulePredictions ∧
    row.tenantId = tenantId ∧ row.triggerId = triggerId ∧
    Json.object entry ∈ namedEntries row.actionPayload

def PredictionsScheduled (diff : ValidatedDiff) (actions : Table Nat ActionRow) : Prop :=
  ∀ op ∈ diff.claimOps, ∀ entry ∈ predictionEntry loads op,
    Scheduled actions diff.tenantId diff.triggerRef entry

end

def SameSchedules (before after : Table Nat ActionRow) : Prop :=
  ∀ id row, row.actionKind = .schedulePredictions →
    (after.get id = some row ↔ before.get id = some row)

theorem SameSchedules.scheduled_iff
    (hs : SameSchedules before after) (tenantId triggerId : Nat) (entry : Entry) :
    Scheduled after tenantId triggerId entry ↔ Scheduled before tenantId triggerId entry := by
  apply exists_congr
  intro id
  apply exists_congr
  intro row
  by_cases hk : row.actionKind = .schedulePredictions
  · rw [hs id row hk]
  · simp [hk]

variable {rules : ValidatorRules} {now : Rat} {tenantId triggerId : Nat}

theorem sameSchedules_enqueueAction
    (hi : action.1 = .schedulePredictions → payloadHasContent action.1 action.2 = false)
    (q : Queue) :
    SameSchedules q.actions (enqueueAction now tenantId triggerId q action).actions := by
  intro id row hk
  unfold enqueueAction
  split
  · rfl
  · next hc =>
    split
    · rfl
    · have ho : action.1 ≠ .schedulePredictions := fun he => by simp [hi he] at hc
      simp only [Table.get_insertNew]
      split
      · next hnw =>
        obtain ⟨rfl, hf⟩ := hnw
        rw [hf]
        constructor
        · rintro ⟨⟩
          exact absurd hk ho
        · intro hn
          cases hn
      · rfl

theorem sameSchedules_foldl {actions : List (ActionKind × Json)}
    (hi : ∀ action ∈ actions, action.1 = .schedulePredictions →
      payloadHasContent action.1 action.2 = false) (q : Queue) : SameSchedules q.actions
      (actions.foldl (enqueueAction now tenantId triggerId) q).actions := by
  induction actions generalizing q with
  | nil => exact fun _ _ _ => Iff.rfl
  | cons action rest ih =>
    intro id row hk
    have h1 : SameSchedules q.actions (enqueueAction now tenantId triggerId q action).actions :=
      sameSchedules_enqueueAction (hi action (by simp)) q
    rw [List.foldl_cons, ih (fun other hm => hi other (by simp [hm])) _ id row hk]
    exact h1 id row hk

theorem sameSchedules_enqueue {diff : ValidatedDiff} (hn : diff.newPredictions = [])
    (hen : enqueuePostCommitActions rules now diff applied q = .ok after) :
    SameSchedules q.actions after.actions := by
  obtain ⟨actions, ha, hq⟩ := bind_eq_ok_iff.mp hen
  obtain ⟨affected, -, heq⟩ := bind_eq_ok_iff.mp ha
  cases heq
  cases hq
  apply sameSchedules_foldl
  intro action hm hk
  have he : payloadHasContent .schedulePredictions (predictionsPayload rules diff) = false := by
    rw [predictionsPayload, hn]
    rfl
  simp only [List.mem_cons, List.not_mem_nil, or_false] at hm
  rcases hm with rfl | rfl | rfl | rfl | rfl
  · cases hk
  · exact he
  · cases hk
  · cases hk
  · cases hk

/-- The tables of the domain, the queue, and the next identifier. -/
structure ThinkStore where
  think : Applier.ThinkDb := {}
  queue : Queue := ⟨∅, 0⟩
  supply : Nat := 0

inductive RunError where
  | validator (error : ValidatorError)
  | domain (error : DomainError)

def ofValidator {α : Type} : Except ValidatorError α → Except RunError α
  | .ok value => .ok value
  | .error error => .error (.validator error)

theorem ofValidator_eq_ok_iff : ofValidator computed = .ok value ↔ computed = .ok value := by
  cases computed <;> simp [ofValidator]

def ThinkStore.validation (store : ThinkStore) (ctx : ApplyContext) : ValidationContext where
  ctx := ctx
  db := store.think.domain

/-- A diff is validated; it is applied and its post-commit actions are enqueued in one
transaction. `apply` works on the other tables. -/
def runDiff (rules : ValidatorRules) (ctx : ApplyContext) (apply : ValidatedDiff → ThinkTx Applied)
    (raw : RawDiff) (region : Option (List EntityRef)) (strict : Bool) (store : ThinkStore) :
    Except RunError (ValidatedDiff × ThinkStore) := do
  let validated ← ofValidator (validate rules (store.validation ctx) raw region strict)
  let outcome := (apply validated).exec change store.think store.supply
  match outcome.result with
  | .error error => .error (.domain error)
  | .ok applied =>
    let queue ← ofValidator (enqueuePostCommitActions rules ctx.clock.transactionNow validated
      applied store.queue)
    return (validated, { think := outcome.state, queue, supply := outcome.supply })

variable {ctx : ApplyContext} {apply : ValidatedDiff → ThinkTx Applied} {raw : RawDiff}
  {region : Option (List EntityRef)} {strict : Bool} {store after : ThinkStore}
  {validated : ValidatedDiff}

theorem steps_of_runDiff
    (hr : runDiff rules ctx apply raw region strict store = .ok (validated, after)) :
    validate rules (store.validation ctx) raw region strict = .ok validated ∧
      ∃ applied, enqueuePostCommitActions rules ctx.clock.transactionNow validated applied
        store.queue = .ok after.queue := by
  obtain ⟨diff, hv, ht⟩ := bind_eq_ok_iff.mp hr
  dsimp only at ht
  split at ht
  · cases ht
  · next applied _ =>
    obtain ⟨q, hq, he⟩ := bind_eq_ok_iff.mp ht
    cases he
    exact ⟨ofValidator_eq_ok_iff.mp hv, applied, ofValidator_eq_ok_iff.mp hq⟩

/-- The predictions of a diff are scheduled after its run exactly when those that its
claims and its predictions propose and that are accepted were scheduled before. -/
theorem predictions_scheduled_iff (loads : String → Option Json)
    (hrun : runDiff rules ctx apply raw region strict store = .ok (validated, after)) :
    PredictionsScheduled loads validated after.queue.actions ↔
      ∀ given ∈ raw.claimOps ++ raw.newPredictions, ∀ op,
        acceptClaimOp rules ctx.clock.processNow store.think.domain given = .ok (some op) →
          ∀ entry ∈ predictionEntry loads op,
            Scheduled store.queue.actions raw.tenantId raw.triggerRef entry := by
  obtain ⟨hvalid, applied, henqueue⟩ := steps_of_runDiff hrun
  have hsame := sameSchedules_enqueue (newPredictions_eq_nil hvalid) henqueue
  have hbefore : PredictionsScheduled loads validated after.queue.actions ↔
      ∀ op ∈ validated.claimOps, ∀ entry ∈ predictionEntry loads op,
        Scheduled store.queue.actions raw.tenantId raw.triggerRef entry := by
    unfold PredictionsScheduled
    simp [hsame.scheduled_iff, tenantId_eq hvalid, triggerRef_eq hvalid]
  rw [hbefore]
  constructor
  · intro hall given hgiven op haccept entry hentry
    exact hall op ((mem_claimOps_iff hvalid op).mpr ⟨given, hgiven, haccept⟩) entry hentry
  · intro hall op hop entry hentry
    obtain ⟨given, hgiven, haccept⟩ := (mem_claimOps_iff hvalid op).mp hop
    exact hall given hgiven op haccept entry hentry

def plainValidator : ValidatorRules where
  uuid :=
    { parse _ := none
      text id := "00000000-0000-0000-0000-00000000000" ++ toString id
      str
        | .string text => text
        | _ => "None" }
  falsifier := Models.asciiRules
  float _ := some (3 / 5)
  number _ := .number "0.6"
  calibrate value _ := value
  uncertaintyCap _ := none
  repair entry := entry
  validateProposition _ := none
  computeThreshold _ _ := 1 / 2
  refine _ _ := none
  assessSpecificity _ _ := ⟨false, .number "0.6", []⟩
  lower text := text

def plainContext : ApplyContext where
  clock := ⟨0, 0⟩
  tenantId := 0
  decimal := fun _ => ""

def slipEntry : Entry :=
  [("natural", .string "The launch will slip."), ("confidence", .number "0.6"),
    ("evaluate_at", .string "2031-01-01T00:00:00Z"),
    ("confidence_at_assertion", .number "0.6"),
    ("proposition", .object
      [("kind", .string "prediction"), ("expected", .string "The launch will slip.")])]

def slipInsert : ClaimOp where
  op := .insert
  entry := some slipEntry

def slipProposal : RawDiff where
  triggerRef := 3
  tenantId := 0
  newPredictions := [slipInsert]

def idleApplication : ValidatedDiff → ThinkTx Applied := fun _ => .done {}

def slipRun (queue : Queue) : Except RunError (ValidatedDiff × ThinkStore) :=
  runDiff plainValidator plainContext idleApplication slipProposal none true { queue }

theorem confidence_plainValidator (e : Entry) : plainValidator.confidence e (3 / 5) = 3 / 5 := by
  have hc : Applier.clipConfidence (3 / 5) = 3 / 5 := by
    norm_num [Applier.clipConfidence]
  simp [ValidatorRules.confidence, plainValidator, hc]

theorem accept_slipInsert :
    acceptClaimOp plainValidator 0 {} slipInsert = .ok (some slipInsert) := by
  have hr : plainValidator.floatOf (.number "0.6") = .ok (3 / 5) := rfl
  have hl : ¬ Models.falsifierRequiredAbove < (3 / 5 : Rat) := by
    norm_num [Models.falsifierRequiredAbove]
  have he : validateClaimInsert plainValidator 0 slipEntry = .ok slipEntry := by
    unfold validateClaimInsert
    change (plainValidator.floatOf (.number "0.6")).bind _ = _
    rw [hr]
    simp only [Except.bind, confidence_plainValidator, if_neg hl]
    rfl
  change ((validateClaimInsert plainValidator 0 slipEntry).map _).bind _ = _
  rw [he]
  rfl

def slipDiff : ValidatedDiff :=
  validatedDiff slipProposal { kept := [slipInsert] } {} {} {} {} {} {} {}

theorem validate_slipProposal :
    validate plainValidator ⟨plainContext, {}⟩ slipProposal none true = .ok slipDiff := by
  have hp : validateClaimOps plainValidator ⟨plainContext, {}⟩ [slipInsert] =
      .ok { kept := [slipInsert] } := by
    unfold validateClaimOps PartialAccept.acceptEach
    rw [List.foldlM_cons, PartialAccept.Pass.step_of_accepts accept_slipInsert]
    rfl
  change (validateClaimOps plainValidator ⟨plainContext, {}⟩ [slipInsert]).bind _ = _
  rw [hp]
  rfl

theorem exists_slipRun (queue : Queue) : ∃ after, slipRun queue = .ok (slipDiff, after) := by
  unfold slipRun runDiff ThinkStore.validation
  rw [validate_slipProposal]
  exact ⟨_, rfl⟩

theorem predictionEntry_slipInsert : predictionEntry (fun _ => none) slipInsert = some slipEntry :=
  rfl

/-- An action of the trigger that names the prediction. -/
def slipScheduled : Queue where
  actions := Table.put ∅ 1
    { tenantId := 0, triggerId := 3, actionKind := .schedulePredictions
      actionPayload := .object
        [("predictions", .array [.object [("entry", .object slipEntry)]])]
      createdAt := 0, scheduledAt := 0 }
  nextId := 2

theorem predictions_scheduled_before : ∃ after, slipRun slipScheduled = .ok (slipDiff, after) ∧
    slipInsert ∈ slipDiff.claimOps ∧ PredictionsScheduled (fun _ => none) slipDiff
      after.queue.actions := by
  obtain ⟨after, hrun⟩ := exists_slipRun slipScheduled
  refine ⟨after, hrun, .head _, (predictions_scheduled_iff (fun _ => none) hrun).mpr ?_⟩
  intro given hgiven op haccept entry hentry
  obtain rfl : given = slipInsert := by simpa [slipProposal] using hgiven
  obtain rfl : slipInsert = op :=
    Option.some.inj (Except.ok.inj (accept_slipInsert.symm.trans haccept))
  obtain rfl : slipEntry = entry := Option.some.inj (predictionEntry_slipInsert.symm.trans hentry)
  exact ⟨1, _, rfl, rfl, rfl, rfl, .head _⟩

/-- The one prediction survives, and no action names it. -/
theorem prediction_not_scheduled : ¬ ∀ (rules : ValidatorRules) (ctx : ApplyContext)
    (apply : ValidatedDiff → ThinkTx Applied) (raw : RawDiff) (region : Option (List EntityRef))
    (strict : Bool) (store after : ThinkStore) (validated : ValidatedDiff)
    (loads : String → Option Json),
    runDiff rules ctx apply raw region strict store = .ok (validated, after) →
      PredictionsScheduled loads validated after.queue.actions := by
  intro hall
  obtain ⟨after, hrun⟩ := exists_slipRun ⟨∅, 0⟩
  have hscheduled := hall _ _ _ _ _ _ _ after _ (fun _ => none) hrun
  obtain ⟨hvalid, applied, henqueue⟩ := steps_of_runDiff hrun
  have hsame := sameSchedules_enqueue (newPredictions_eq_nil hvalid) henqueue
  obtain ⟨id, row, hrow, -⟩ := (hsame.scheduled_iff _ _ _).mp
    (hscheduled slipInsert (.head _) _ predictionEntry_slipInsert)
  cases hrow

end FyralisCore.Think.PostCommit
