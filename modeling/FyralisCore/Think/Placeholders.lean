import FyralisCore.Think.ClaimPhase
import FyralisCore.Think.LateRefusals

/-! Which model stands for a placeholder when the operations that name it are applied:
the one of the last insert that was applied under it. Inserts that were absorbed or
coalesced bind nothing. -/
namespace FyralisCore.Think.Applier

open Relational Transaction List DiffOp
open Acts (Json)

def DiffOp.modelRefs : DiffOp → List Nat
  | .edge op => [op.sourceModelId, op.targetModelId]
  | .relationClaim op => op.sourceModelId.toList ++ op.targetModelId.toList
  | .act op => op.confidenceBasis.toList
  | .lifecycle _ | .resource _ | .other _ => []

def DiffOp.resolved (pending : PendingIds) : DiffOp → DiffOp
  | .edge op => .edge (op.resolvePending pending)
  | .relationClaim op => .relationClaim (op.resolvePending pending)
  | .act op => .act (op.resolvePending pending)
  | op => op

/-- The direction of a `superseded_by` edge from a placeholder is turned around. -/
def DiffOp.isTurned (pending : PendingIds) : DiffOp → Bool
  | .edge op =>
    decide (op.edgeKind = .registry .supersededBy ∧ (pending.get op.sourceModelId).isSome ∧
      ¬ (pending.get op.targetModelId).isSome)
  | _ => false

/-- The models that the operation is applied against, in the order of its references. -/
def DiffOp.appliedRefs (pending : PendingIds) (op : DiffOp) : List Nat :=
  if op.isTurned pending then (op.resolved pending).modelRefs.reverse
  else (op.resolved pending).modelRefs

variable {rules : ClaimRules} {ctx : ApplyContext} {pending : PendingIds}

theorem appliedRefs_eq (op : DiffOp) : op.appliedRefs pending = op.modelRefs.map pending.resolve := by
  unfold appliedRefs
  cases op with
  | edge op =>
    unfold isTurned resolved EdgeOp.resolvePending modelRefs
    dsimp only
    by_cases ht : op.edgeKind = .registry .supersededBy ∧
        (pending.get op.sourceModelId).isSome ∧ ¬ (pending.get op.targetModelId).isSome
    · rw [if_pos (decide_eq_true ht), if_pos ht]
      rfl
    · rw [if_neg fun hd => ht (of_decide_eq_true hd), if_neg ht]
      rfl
  | relationClaim op =>
    obtain ⟨source, target⟩ :
        ((op.resolvePending pending).sourceModelId = op.sourceModelId.map pending.resolve) ∧
          (op.resolvePending pending).targetModelId = op.targetModelId.map pending.resolve := by
      unfold RelationClaimOp.resolvePending
      dsimp only
      split <;> exact ⟨rfl, rfl⟩
    simp [isTurned, resolved, modelRefs, source, target, Option.toList_map]
  | act op =>
    simp [isTurned, resolved, modelRefs, ActOp.resolvePending, Option.toList_map]
  | lifecycle op => rfl
  | resource op => rfl
  | other body => rfl

abbrev ClaimStep : Type := ExpandedClaimOp × ClaimOutcome

def ExpandedClaimOp.placeholders (rules : ClaimRules) (item : ExpandedClaimOp) : List Nat :=
  item.given.entry.elim [] rules.uuid.placeholders

/-- The placeholders that the step binds: those of the insert and of what was applied for
it, if a model came of the application. -/
def binds (rules : ClaimRules) (step : ClaimStep) : List Nat :=
  match step.1.original, step.2 with
  | .insert entry, .applied op (some _) =>
    (entry :: op.entry.toList).flatMap rules.uuid.placeholders
  | _, _ => []

theorem coerceOrNone_of_coerce {uuid : UuidRules}
    (hc : uuid.coerce v = .ok found) : uuid.coerceOrNone v = found := by
  unfold UuidRules.coerce UuidRules.coerceOrNone at *
  grind

theorem get_bindKeys {bound : PendingIds} {modelId : Nat} {e : Entry} {keys : List String}
    (hb : keys.foldlM (fun pending key => do
      match ← rules.uuid.coerce (e.get key) with
      | some placeholder => return pending.put placeholder modelId
      | none => return pending) pending = .ok bound) (placeholder : Nat) :
    bound.get placeholder =
      if placeholder ∈ keys.filterMap fun key => rules.uuid.coerceOrNone (e.get key) then
        some modelId else pending.get placeholder := by
  induction keys generalizing pending with
  | nil =>
    cases hb
    simp
  | cons key rest ih =>
    obtain ⟨m, hm, ht⟩ := bind_eq_ok_iff.mp hb
    obtain ⟨found, hf, hp⟩ := bind_eq_ok_iff.mp hm
    rw [ih ht, filterMap_cons, coerceOrNone_of_coerce hf]
    cases found with
    | none =>
      cases hp
      rfl
    | some other =>
      cases hp
      rw [Table.get_put]
      grind

theorem get_bindEntries {modelId : Nat} {entries : List Entry} {bound : PendingIds}
    (hb : entries.foldlM (fun pending e => bindEntry rules modelId e pending) pending =
      .ok bound) (placeholder : Nat) : bound.get placeholder =
      if placeholder ∈ entries.flatMap rules.uuid.placeholders then some modelId
      else pending.get placeholder := by
  induction entries generalizing pending with
  | nil =>
    cases hb
    simp
  | cons e rest ih =>
    obtain ⟨m, hm, ht⟩ := bind_eq_ok_iff.mp hb
    rw [ih ht, get_bindKeys hm, flatMap_cons]
    unfold UuidRules.placeholders
    grind

variable {loop : ClaimLoop}

theorem get_record {recorded : ClaimLoop} {item : ExpandedClaimOp}
    (hr : loop.record rules item outcome = .ok recorded) (placeholder : Nat) :
    recorded.pending.get placeholder =
      if placeholder ∈ binds rules (item, outcome) then outcome.model
      else loop.pending.get placeholder := by
  unfold ClaimLoop.record at hr
  split at hr
  · next op modelId =>
    obtain ⟨bound, hb, ht⟩ := bind_eq_ok_iff.mp hr
    have hp : recorded.pending = bound := by
      dsimp only at ht
      split at ht
      · split at ht <;> cases ht <;> rfl
      · cases ht
        rfl
    rw [hp]
    unfold recordPendingModelIdMappings at hb
    unfold binds
    split at hb
    · next e hor =>
      rw [get_bindEntries hb, hor]
      rfl
    · next ho =>
      cases hb
      cases hor : item.original with
      | insert e => exact absurd hor (ho e)
      | update modelId changes => rfl
      | archive modelId reason => rfl
  · next ho =>
    cases hr
    unfold binds
    split
    · next hs => exact absurd hs (ho _ _)
    · rfl

variable {db after : DomainDb} {supply left : Nat}

variable {outcomes : List ClaimOutcome} {claimOps : List ClaimOp}

theorem returns_applyExpandedClaimOps
    (hrt : Tx.Returns change (applyExpandedClaimOps rules ctx items loop) db supply
      (outcomes, final) after left) (placeholder : Nat) : final.pending.get placeholder =
      lastWrite (fun step => placeholder ∈ binds rules step) (fun step => step.2.model)
        (loop.pending.get placeholder) (items.zip outcomes) := by
  induction items generalizing loop final db supply outcomes after left with
  | nil =>
    obtain ⟨hd, -, -⟩ := hrt.ended
    cases hd
    rfl
  | cons item rest ih =>
    obtain ⟨outcome, _, _, -, hrt⟩ := hrt.parts
    obtain ⟨recorded, _, _, hrc, hrt⟩ := hrt.parts
    obtain ⟨hr, rfl, rfl⟩ := Tx.returns_ofExcept.mp hrc
    obtain ⟨⟨u, last⟩, _, _, ht, hd⟩ := hrt.parts
    obtain ⟨he, -, -⟩ := hd.ended
    cases he
    rw [ih ht, get_record hr placeholder]
    rfl

def claimSteps (rules : ClaimRules) (ctx : ApplyContext) (claimOps : List ClaimOp)
    (outcomes : List ClaimOutcome) : List ClaimStep :=
  (expandClaimOps rules ctx 0 claimOps).zip outcomes

section

variable (rules : ClaimRules) (steps : List ClaimStep)

/-- Every operation that names the placeholder of an insert is applied against the model
that the insert produced, was merged into or was absorbed by. -/
def PlaceholdersBound (pending : PendingIds) (ops : List DiffOp) : Prop :=
  ∀ op ∈ ops, ∀ ref ∈ op.modelRefs.zip (op.appliedRefs pending), ∀ step ∈ steps,
    ref.1 ∈ step.1.placeholders rules → ∀ modelId ∈ step.2.model, ref.2 = modelId

/-- The last step that binds the placeholder binds it to the model; or none binds it, and
it is the model's own identifier. -/
def LastBinds (placeholder modelId : Nat) : Prop :=
  LastWrites (fun step => placeholder ∈ binds rules step) (fun step => step.2.model) steps
      (some modelId) ∨
    ((∀ step ∈ steps, placeholder ∉ binds rules step) ∧ placeholder = modelId)

/-- Where an operation names the placeholder of an insert that came to a model, that model
is the one bound last under it. -/
def NamedLast (ops : List DiffOp) : Prop :=
  ∀ op ∈ ops, ∀ placeholder ∈ op.modelRefs, ∀ step ∈ steps,
    placeholder ∈ step.1.placeholders rules → ∀ modelId ∈ step.2.model,
      LastBinds rules steps placeholder modelId

end

theorem model_isSome_of_binds (hb : placeholder ∈ binds rules step) : step.2.model.isSome := by
  unfold binds at hb
  split at hb
  · next hor ho => simp [ho, ClaimOutcome.model]
  · cases hb

section

variable
  (hr : Tx.Returns change (applyClaimOps rules ctx claimOps) db supply (outcomes, loop) after left)

include hr

theorem get_pending_eq_some_iff (placeholder modelId : Nat) : loop.pending.get placeholder =
    some modelId ↔ LastWrites (fun step => placeholder ∈ binds rules step)
    (fun step => step.2.model) (claimSteps rules ctx claimOps outcomes) (some modelId) := by
  rw [returns_applyExpandedClaimOps hr placeholder, Table.get_empty, lastWrite_eq_iff]
  simp [claimSteps]

theorem get_pending_eq_none_iff (placeholder : Nat) : loop.pending.get placeholder = none ↔
    ∀ step ∈ claimSteps rules ctx claimOps outcomes, placeholder ∉ binds rules step := by
  rw [returns_applyExpandedClaimOps hr placeholder, Table.get_empty, lastWrite_eq_iff]
  constructor
  · rintro (⟨_, step, _, _, hb, hn, _⟩ | ⟨hnv, -⟩)
    · have hs := model_isSome_of_binds hb
      simp [show step.2.model = none from hn] at hs
    · exact hnv
  · exact fun hnv => .inr ⟨hnv, rfl⟩

theorem resolve_eq_iff (placeholder modelId : Nat) : loop.pending.resolve placeholder = modelId ↔
    LastBinds rules (claimSteps rules ctx claimOps outcomes) placeholder modelId := by
  unfold LastBinds
  rw [← get_pending_eq_some_iff hr, ← get_pending_eq_none_iff hr]
  unfold PendingIds.resolve
  cases loop.pending.get placeholder <;> simp

end

def placeholderText : String := "00000000-0000-0000-0000-000000000064"

def plainModel : Models.ModelRow where
  tenantId := 0
  proposition := .null
  createdAt := 0

def plainUuids : UuidRules where
  parse text := if text = placeholderText then some 100 else none
  text _ := placeholderText
  str
    | .string text => text
    | _ => ""

def plainClaims (result : ReconcileResult) : ClaimRules where
  uuid := plainUuids
  splitCompound entry := [.insert entry]
  reconcile _ := .done result
  scoreQuality _ _ := .accept
  isNearDuplicate _ _ := true
  isSituation _ := false
  coalesce _ := .done none
  confirm _ _ := .done ()
  downgrade _ _ := .done ()
  insert _ := Tx.newId.bind fun id =>
    (execute fun db =>
      { db with models := { db.models with models := db.models.models.put id plainModel } }).bind
        fun _ => .done id

def claimContext : ApplyContext where
  clock := ⟨0, 0⟩
  tenantId := 0
  decimal := fun _ => ""

def namedEntry : Entry :=
  [("id", .string placeholderText), ("natural", .string "The launch will slip."),
    ("proposition", .object
      [("kind", .string "belief"), ("assertion", .string "The launch will slip.")])]

def namedClaim : ClaimOp := .insert namedEntry

def supportEight : EdgeOp where
  op := .add
  sourceModelId := 100
  targetModelId := 8
  edgeKind := .registry .supports

def supportDiff : ValidatedDiff where
  edgeOps := [supportEight]

def idlePhases : OtherPhases := ⟨.done ∅, fun _ => .done (), fun _ => .done (), .done ()⟩

def oneModel : DomainDb where
  models := { models := (∅ : Table Nat Models.ModelRow).put 7 plainModel }

def ClaimRun (result : ReconcileResult) (outcome : ClaimOutcome) (loop : ClaimLoop) : Prop :=
  ∃ after left, Tx.Returns change (applyClaimOps (plainClaims result) claimContext [namedClaim])
    oneModel 20 ([outcome], loop) after left

def claimStep (outcome : ClaimOutcome) : ClaimStep := (⟨namedClaim, namedClaim, namedClaim, none⟩, outcome)

theorem placeholders_claimStep (r : ReconcileResult) (outcome : ClaimOutcome) :
    (claimStep outcome).1.placeholders (plainClaims r) = [100] := by
  have he : plainUuids.placeholders namedEntry = [100] := by decide +kernel
  exact he

end FyralisCore.Think.Applier
