import Mathlib.Algebra.Order.Field.Rat

/-! The registry of model-to-model edge kinds (`lib/shared/edge_registry.py`)
and the semantics of a kind at run time (`ontology_runtime.py`): a registry
entry, or one derived from an accepted ontology proposal of the tenant. -/
namespace FyralisCore.Models

inductive RegistryKind where
  | supports
  | contributesToResolution
  | instanceOf
  | supersededBy
  | contradicts
  | weakens
  | causes
  | explains
  | predicts
  | blocks
  | enables
  | sameIssueAs
  | coOccursWith
  | analogousTo
  | alternativeTo
  | earlyWarningFor
  deriving DecidableEq, Repr

def RegistryKind.text : RegistryKind → String
  | .supports => "supports"
  | .contributesToResolution => "contributes_to_resolution"
  | .instanceOf => "instance_of"
  | .supersededBy => "superseded_by"
  | .contradicts => "contradicts"
  | .weakens => "weakens"
  | .causes => "causes"
  | .explains => "explains"
  | .predicts => "predicts"
  | .blocks => "blocks"
  | .enables => "enables"
  | .sameIssueAs => "same_issue_as"
  | .coOccursWith => "co_occurs_with"
  | .analogousTo => "analogous_to"
  | .alternativeTo => "alternative_to"
  | .earlyWarningFor => "early_warning_for"

def RegistryKind.all : List RegistryKind :=
  [.supports, .contributesToResolution, .instanceOf, .supersededBy, .contradicts, .weakens,
    .causes, .explains, .predicts, .blocks, .enables, .sameIssueAs, .coOccursWith,
    .analogousTo, .alternativeTo, .earlyWarningFor]

theorem RegistryKind.mem_all (kind : RegistryKind) : kind ∈ RegistryKind.all := by
  cases kind <;> decide

structure DynamicKind where
  name : String
  unregistered : name ∉ RegistryKind.all.map RegistryKind.text
  deriving DecidableEq

/-- `edge_kind`: a registry key or any other text. -/
inductive EdgeKind where
  | registry (kind : RegistryKind)
  | dynamic (kind : DynamicKind)
  deriving DecidableEq

instance : Coe RegistryKind EdgeKind := ⟨.registry⟩

def EdgeKind.text : EdgeKind → String
  | .registry kind => kind.text
  | .dynamic kind => kind.name

inductive ModelArchiveReason where
  | decay
  | falsifierTriggered
  | contestedIncorrect
  | contestedReadingIncorrect
  | superseded
  | manual
  | resolvedConfirmed
  | resolvedViolated
  | severeDrift
  | deprecated
  | actedUpon
  | dismissedByUser
  | situationResolved
  | hypothesisDismissedByUser
  | hypothesisUserApproved
  | hypothesisUserCorrected
  | hypothesisUserOther
  deriving DecidableEq, Repr

inductive CauseKind where
  | supportingDeprecated
  | supportingSuperseded
  | falsifierTriggeredUpstream
  | contestedCluster
  | supportingArchived
  | contributorArchived
  | instanceArchived
  | patternArchived
  | counterevidenceArchived
  deriving DecidableEq, Repr

def legacySupportsCauseKind : ModelArchiveReason → CauseKind
  | .deprecated => .supportingDeprecated
  | .superseded => .supportingSuperseded
  | .falsifierTriggered => .falsifierTriggeredUpstream
  | .contestedIncorrect => .contestedCluster
  | .contestedReadingIncorrect => .contestedCluster
  | _ => .supportingArchived

inductive CascadeCallback where
  | supportsOnSourceArchive
  | contributesOnSourceArchive
  | instanceOfOnSourceArchive
  | instanceOfOnTargetArchive
  | counterevidenceOnEndpointArchive
  deriving DecidableEq, Repr

def CascadeCallback.causeKind (reason : ModelArchiveReason) : CascadeCallback → CauseKind
  | .supportsOnSourceArchive => legacySupportsCauseKind reason
  | .contributesOnSourceArchive => .contributorArchived
  | .instanceOfOnSourceArchive => .instanceArchived
  | .instanceOfOnTargetArchive => .patternArchived
  | .counterevidenceOnEndpointArchive => .counterevidenceArchived

structure EdgeKindSpec where
  name : EdgeKind
  isDirected : Bool
  cycleScope : Option (List EdgeKind)
  weightRequired : Bool
  weightAllowed : Bool
  onSourceArchive : Option CascadeCallback
  onTargetArchive : Option CascadeCallback
  mutuallyExclusiveWith : List EdgeKind := []
  enabledForWrites : Bool := true

def edgeRegistry : RegistryKind → EdgeKindSpec
  | .supports =>
    { name := RegistryKind.supports
      isDirected := true
      cycleScope := some [RegistryKind.supports, RegistryKind.instanceOf]
      weightRequired := false
      weightAllowed := true
      onSourceArchive := some .supportsOnSourceArchive
      onTargetArchive := none
      mutuallyExclusiveWith := [RegistryKind.contradicts, RegistryKind.weakens] }
  | .contributesToResolution =>
    { name := RegistryKind.contributesToResolution
      isDirected := true
      cycleScope := some [RegistryKind.contributesToResolution]
      weightRequired := false
      weightAllowed := false
      onSourceArchive := some .contributesOnSourceArchive
      onTargetArchive := none }
  | .instanceOf =>
    { name := RegistryKind.instanceOf
      isDirected := true
      cycleScope := some [RegistryKind.supports, RegistryKind.instanceOf]
      weightRequired := false
      weightAllowed := false
      onSourceArchive := some .instanceOfOnSourceArchive
      onTargetArchive := some .instanceOfOnTargetArchive }
  | .supersededBy =>
    { name := RegistryKind.supersededBy
      isDirected := true
      cycleScope := some [RegistryKind.supersededBy]
      weightRequired := false
      weightAllowed := false
      onSourceArchive := none
      onTargetArchive := none }
  | .contradicts =>
    { name := RegistryKind.contradicts
      isDirected := false
      cycleScope := none
      weightRequired := true
      weightAllowed := true
      onSourceArchive := some .counterevidenceOnEndpointArchive
      onTargetArchive := some .counterevidenceOnEndpointArchive
      mutuallyExclusiveWith := [RegistryKind.supports, RegistryKind.enables] }
  | .weakens =>
    { name := RegistryKind.weakens
      isDirected := true
      cycleScope := none
      weightRequired := true
      weightAllowed := true
      onSourceArchive := some .counterevidenceOnEndpointArchive
      onTargetArchive := none
      mutuallyExclusiveWith := [RegistryKind.supports, RegistryKind.enables] }
  | .causes => freelyWeighted .causes true
  | .explains => freelyWeighted .explains true
  | .predicts => freelyWeighted .predicts true
  | .blocks =>
    { freelyWeighted .blocks true with
      mutuallyExclusiveWith := [RegistryKind.enables, RegistryKind.supports] }
  | .enables =>
    { freelyWeighted .enables true with
      mutuallyExclusiveWith :=
        [RegistryKind.blocks, RegistryKind.contradicts, RegistryKind.weakens] }
  | .sameIssueAs => freelyWeighted .sameIssueAs false
  | .coOccursWith => freelyWeighted .coOccursWith false
  | .analogousTo => freelyWeighted .analogousTo false
  | .alternativeTo => freelyWeighted .alternativeTo false
  | .earlyWarningFor => freelyWeighted .earlyWarningFor true
where
  /-- The entries with an optional weight, no cycle scope and no cascade. -/
  freelyWeighted (kind : RegistryKind) (isDirected : Bool) : EdgeKindSpec :=
    { name := kind
      isDirected
      cycleScope := none
      weightRequired := false
      weightAllowed := true
      onSourceArchive := none
      onTargetArchive := none }

inductive Directionality where
  | directed
  | symmetric
  | unknown
  deriving DecidableEq, Repr

inductive ProposalStatus where
  | draft
  | reviewReady
  | accepted
  | rejected
  | superseded
  deriving DecidableEq, Repr

/-- The columns of `relationship_ontology_proposals` that edges read. -/
structure ProposalRow where
  status : ProposalStatus
  parentKind : Option EdgeKind := none
  nearestExistingKind : Option EdgeKind := none
  retrievalFallbackKind : Option EdgeKind := none
  directionality : Directionality := .unknown
  deriving DecidableEq

/-- `value or ...` on a text column: an empty text counts as absent. -/
def truthyKind (kind : Option EdgeKind) : Option EdgeKind :=
  kind.filter fun kind => kind.text ≠ ""

def ProposalRow.base (proposal : ProposalRow) : RegistryKind :=
  match (truthyKind proposal.retrievalFallbackKind).or
      ((truthyKind proposal.nearestExistingKind).or (truthyKind proposal.parentKind)) with
  | some (.registry kind) => kind
  | _ => .supports

def specFromProposal (kind : EdgeKind) (proposal : ProposalRow) : EdgeKindSpec :=
  let base := edgeRegistry proposal.base
  { name := kind
    isDirected := match proposal.directionality with
      | .directed => true
      | .symmetric => false
      | .unknown => base.isDirected
    cycleScope := base.cycleScope.map (kind :: ·)
    weightRequired := base.weightRequired
    weightAllowed := base.weightAllowed
    onSourceArchive := none
    onTargetArchive := none
    mutuallyExclusiveWith := base.mutuallyExclusiveWith
    enabledForWrites := true }

theorem edgeRegistry_enabled (kind : RegistryKind) : (edgeRegistry kind).enabledForWrites := by
  cases kind <;> rfl

section

variable (hs : (edgeRegistry kind).cycleScope = some scope)

include hs

theorem cycleScope_shared (hm : member ∈ scope) : ∃ other : RegistryKind, member = other ∧
    (edgeRegistry other).cycleScope = some scope := by
  cases kind <;> simp only [edgeRegistry, edgeRegistry.freelyWeighted, Option.some.injEq,
    reduceCtorEq] at hs <;> subst hs <;> simp only [List.mem_cons, List.not_mem_nil,
    or_false] at hm
  · rcases hm with rfl | rfl
    · exact ⟨.supports, rfl, rfl⟩
    · exact ⟨.instanceOf, rfl, rfl⟩
  · exact ⟨.contributesToResolution, hm, rfl⟩
  · rcases hm with rfl | rfl
    · exact ⟨.supports, rfl, rfl⟩
    · exact ⟨.instanceOf, rfl, rfl⟩
  · exact ⟨.supersededBy, hm, rfl⟩

theorem isDirected_of_cycleScope : (edgeRegistry kind).isDirected := by
  cases kind <;> first | rfl | cases hs

end

end FyralisCore.Models
