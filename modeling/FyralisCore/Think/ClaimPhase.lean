import FyralisCore.Models.Insert
import FyralisCore.Think.ApplyLoops

/-! The claim operations of a diff (`_apply_claim_ops_for_diff` of `applier.py`): each
insert may be split, merged by the reconciler, refused by the quality gate, absorbed by a
near duplicate or coalesced with a situation, and the placeholders under which the other
operations of the diff name it are bound to the model that came of it. -/
namespace FyralisCore.Think.Applier

open Relational Transaction
open Acts (Json)

abbrev Entry : Type := List (String × Json)

section

variable (entry : Entry) (key : String)

def Entry.get : Option Json := entry.lookup key

def Entry.set (value : Json) : Entry :=
  if (entry.get key).isSome then
    entry.map fun field => if field.1 = key then (key, value) else field
  else entry ++ [(key, value)]

def Entry.setDefault (value : Json) : Entry :=
  if (entry.get key).isSome then entry else entry ++ [(key, value)]

def Entry.pop : Entry :=
  entry.filter (·.1 ≠ key)

end

def Entry.isText (entry : Entry) (key text : String) : Bool :=
  match entry.get key with
  | some (.string value) => value == text
  | _ => false

def fieldsOf : Option Json → Entry
  | some (.object fields) => fields
  | _ => []

/-- `UUID` and `str` of the standard library. -/
structure UuidRules where
  parse : String → Option Nat
  text : Nat → String
  str : Json → String

def UuidRules.coerceOrNone (rules : UuidRules) : Option Json → Option Nat
  | none | some .null => none
  | some value => rules.parse (rules.str value)

def UuidRules.coerce (rules : UuidRules) : Option Json → Except DomainError (Option Nat)
  | none | some .null => .ok none
  | some value =>
    match rules.parse (rules.str value) with
    | some id => .ok (some id)
    | none => .error (.validationError ("expected UUID, got " ++ rules.str value))

def UuidRules.group (rules : UuidRules) : Option Json → List Nat
  | some (.array items) => items.filterMap fun item => rules.coerceOrNone (some item)
  | value => (rules.coerceOrNone value).toList

def placeholderKeys : List String := ["born_from_event_id", "model_id", "id"]

def UuidRules.placeholders (rules : UuidRules) (entry : Entry) : List Nat :=
  placeholderKeys.filterMap fun key => rules.coerceOrNone (entry.get key)

inductive ClaimOp where
  | insert (entry : Entry)
  | update (modelId : Nat) (changes : ModelChanges)
  | archive (modelId : Nat) (reason : Models.ModelArchiveReason)

def ClaimOp.entry : ClaimOp → Option Entry
  | .insert entry => some entry
  | _ => none

inductive ReconcileDecision where
  | autoMerge
  | humanReview
  | noMatch
  | skipped
  deriving DecidableEq, Repr

structure ReconcileResult where
  decision : ReconcileDecision
  matchedModelId : Option Nat := none
  /-- `replacement_op`, an update of the matched model. -/
  replacementOp : Option (Nat × ModelChanges) := none

inductive QualityDecision where
  | accept
  | reject
  | downgradeToEvidence
  | needsReview
  deriving DecidableEq, Repr

/-- The rest of the program, as the claim operations call it: the splitter, the
reconciler, the quality gate, and what an insert, an absorption, a coalescence and a
downgrade do to the tables. -/
structure ClaimRules where
  uuid : UuidRules
  splitCompound : Entry → List ClaimOp
  reconcile : Entry → DomainTx ReconcileResult
  scoreQuality : Entry → ReconcileResult → QualityDecision
  /-- The role and the scores of `_should_absorb_near_duplicate`. -/
  isNearDuplicate : Entry → ReconcileResult → Bool
  /-- `_entry_is_situation` -/
  isSituation : Entry → Bool
  /-- `_coalesce_same_event_situation_insert`: the situation it was coalesced with. -/
  coalesce : Entry → DomainTx (Option Nat)
  /-- The writes of `_apply_near_duplicate_absorption`. -/
  confirm : Entry → Nat → DomainTx Unit
  /-- `_apply_evidence_downgrade` -/
  downgrade : Entry → Option Nat → DomainTx Unit
  /-- `_apply_claim_insert` -/
  insert : Entry → DomainTx Nat

variable (rules : ClaimRules) (ctx : ApplyContext)

def listsEvidence (proposition : Entry) : Bool :=
  proposition.isText "claim_role" "situation" || proposition.isText "legacy_kind" "situation" ||
    proposition.isText "kind" "situation" || proposition.isText "claim_role" "hypothesis"

def withEvidenceDefaults (entry : Entry) : Entry :=
  let texts := fun ids : List Nat => Json.array (ids.map fun id => .string (rules.uuid.text id))
  let proposition := fieldsOf (entry.get "proposition")
  let given := rules.uuid.group (proposition.get "evidence_event_ids")
  let eventIds := compactSupportingEventIds ctx.supportingEventIdsMax
    [rules.uuid.group (entry.get "supporting_event_ids"), given,
      rules.uuid.group (entry.get "born_from_event_id"), ctx.causeEventId.toList,
      ctx.triggerEvidenceIds]
  match eventIds with
  | [] => entry
  | first :: _ =>
    let filled := (entry.setDefault "born_from_event_id" (.string (rules.uuid.text first))).set
      "supporting_event_ids" (texts eventIds)
    if listsEvidence proposition then
      let evidence := compactSupportingEventIds ctx.supportingEventIdsMax [given, eventIds]
      filled.set "proposition" (.object (proposition.set "evidence_event_ids" (texts evidence)))
    else filled

/-- An operation to apply, with the one it comes from; `given` is that of the diff. -/
structure ExpandedClaimOp where
  given : ClaimOp
  original : ClaimOp
  expanded : ClaimOp
  splitGroupId : Option Nat

/-- One operation of `_expand_claim_ops_for_splitter`; `nextGid` numbers the groups. -/
def expandClaimOp (nextGid : Nat) : ClaimOp → List ExpandedClaimOp
  | .insert entry =>
    let original := ClaimOp.insert (withEvidenceDefaults rules ctx entry)
    match rules.splitCompound (withEvidenceDefaults rules ctx entry) with
    | [] | [_] => [⟨.insert entry, original, original, none⟩]
    | splits => splits.map fun split => ⟨.insert entry, original, split, some nextGid⟩
  | op => [⟨op, op, op, none⟩]

def expandClaimOps : Nat → List ClaimOp → List ExpandedClaimOp
  | _, [] => []
  | nextGid, op :: rest =>
    let expanded := expandClaimOp rules ctx nextGid op
    let split := expanded.any fun item => item.splitGroupId.isSome
    expanded ++ expandClaimOps (if split then nextGid + 1 else nextGid) rest

inductive ClaimOutcome where
  /-- A situation without enough members. -/
  | skipped
  | rejected
  | downgraded
  /-- Absorbed by the model, if it was still there. -/
  | absorbed (modelId : Option Nat)
  | coalesced (modelId : Nat)
  /-- Applied, perhaps as the update that the reconciler replaced it by. -/
  | applied (op : ClaimOp) (modelId : Option Nat)

def ClaimOutcome.model : ClaimOutcome → Option Nat
  | .skipped | .rejected | .downgraded => none
  | .absorbed modelId => modelId
  | .coalesced modelId => some modelId
  | .applied _ modelId => modelId

def applyClaimOp : ClaimOp → DomainTx (Option Nat)
  | .insert entry => (rules.insert entry).bind fun modelId => .done (some modelId)
  | .update modelId changes => do
    let merged ← Tx.read fun db => changes.mergeSupporting ctx db modelId
    if merged.dropInconsistentResolution changes = {} then return none
    else
      applyClaimUpdate ctx modelId changes
      return some modelId
  | .archive modelId reason =>
    (applyClaimArchive ctx modelId reason).bind fun _ => .done (some modelId)

def isPendingSituation (entry : Entry) : Bool :=
  match entry.get "member_model_pending" with
  | some (.bool pending) => pending
  | _ => false

/-- `_patch_pending_situation_members`, given the members of the group. -/
def patchPendingSituation (members : List Nat) (entry : Entry) : Option Entry :=
  if isPendingSituation entry then
    let members := members.eraseDups
    if members.length < 2 then none
    else
      let proposition := (fieldsOf (entry.get "proposition")).set "member_model_ids"
        (.array (members.map fun member => .string (rules.uuid.text member)))
      some (((entry.set "proposition" (.object proposition)).pop "member_model_pending").pop
        "split_reasons")
  else some entry

/-- `_should_absorb_near_duplicate`, given the verdict. -/
def shouldAbsorb (entry : Entry) (result : ReconcileResult) (verdict : QualityDecision) : Bool :=
  result.decision == .humanReview && result.matchedModelId.isSome &&
    (verdict == .accept || verdict == .needsReview) && rules.isNearDuplicate entry result

def absorb (entry : Entry) (matchedId : Nat) : DomainTx ClaimOutcome := do
  let found ← Tx.read fun db => (db.models.models.get matchedId).any fun row =>
    row.tenantId = ctx.tenantId ∧ row.status = .active
  if found then
    rules.confirm entry matchedId
    return .absorbed (some matchedId)
  else return .absorbed none

def applyAcceptedInsert (entry : Entry) : DomainTx ClaimOutcome := do
  if rules.isSituation entry then
    match ← rules.coalesce entry with
    | some anchor => return .coalesced anchor
    | none => return .applied (.insert entry) (← applyClaimOp rules ctx (.insert entry))
  else return .applied (.insert entry) (← applyClaimOp rules ctx (.insert entry))

/-- The quality gate and what follows it, for an insert that is not merged. -/
def applyScoredInsert (splitGroupId : Option Nat) (entry : Entry) (result : ReconcileResult) :
    DomainTx ClaimOutcome := do
  match rules.scoreQuality entry result with
  | .reject => return .rejected
  | .downgradeToEvidence =>
    rules.downgrade entry result.matchedModelId
    return .downgraded
  | verdict =>
    if splitGroupId.isNone && shouldAbsorb rules entry result verdict then
      absorb rules ctx entry (result.matchedModelId.getD 0)
    else applyAcceptedInsert rules ctx entry

/-- `_apply_one_expanded_claim_op`, given the members of its group. -/
def applyOneExpandedClaimOp (members : List Nat) (item : ExpandedClaimOp) :
    DomainTx ClaimOutcome := do
  match item.expanded with
  | .insert entry =>
    match patchPendingSituation rules members entry with
    | none => return .skipped
    | some entry =>
      let result ← rules.reconcile entry
      match result.replacementOp with
      | some (matchedId, changes) =>
        let op := ClaimOp.update matchedId changes
        return .applied op (← applyClaimOp rules ctx op)
      | none => applyScoredInsert rules ctx item.splitGroupId entry result
  | op => return .applied op (← applyClaimOp rules ctx op)

structure ClaimLoop where
  /-- `pending_model_ids_by_event_id` -/
  pending : PendingIds := ∅
  /-- `group_member_ids` -/
  groupMembers : Table Nat (List Nat) := ∅

def bindEntry (modelId : Nat) (entry : Entry) (pending : PendingIds) :
    Except DomainError PendingIds :=
  placeholderKeys.foldlM (fun pending key => do
    match ← rules.uuid.coerce (entry.get key) with
    | some placeholder => return pending.put placeholder modelId
    | none => return pending) pending

def recordPendingModelIdMappings (original applied : ClaimOp) (modelId : Nat)
    (pending : PendingIds) : Except DomainError PendingIds :=
  match original with
  | .insert entry =>
    (entry :: applied.entry.toList).foldlM (fun pending entry =>
      bindEntry rules modelId entry pending) pending
  | _ => .ok pending

def ClaimLoop.record (loop : ClaimLoop) (item : ExpandedClaimOp) :
    ClaimOutcome → Except DomainError ClaimLoop
  | .applied op (some modelId) => do
    let pending ← recordPendingModelIdMappings rules item.original op modelId loop.pending
    let isSituation := item.expanded.entry.any isPendingSituation
    match item.splitGroupId with
    | some gid =>
      if isSituation then return { loop with pending }
      else
        let members := (loop.groupMembers.get gid).getD []
        return { pending, groupMembers := loop.groupMembers.put gid (members ++ [modelId]) }
    | none => return { loop with pending }
  | _ => .ok loop

def applyExpandedClaimOps : List ExpandedClaimOp → ClaimLoop →
    DomainTx (List ClaimOutcome × ClaimLoop)
  | [], loop => .done ([], loop)
  | item :: rest, loop => do
    let members := (item.splitGroupId.bind loop.groupMembers.get).getD []
    let outcome ← applyOneExpandedClaimOp rules ctx members item
    let recorded ← Tx.ofExcept (loop.record rules item outcome)
    let (outcomes, final) ← applyExpandedClaimOps rest recorded
    return (outcome :: outcomes, final)

def applyClaimOps (claimOps : List ClaimOp) : DomainTx (List ClaimOutcome × ClaimLoop) :=
  applyExpandedClaimOps rules ctx (expandClaimOps rules ctx 0 claimOps) {}

end FyralisCore.Think.Applier
