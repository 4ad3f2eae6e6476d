import FyralisCore.Lib.Raises
import FyralisCore.Models.Archive
import FyralisCore.Models.CycleScopes
import FyralisCore.Models.RelationEffects

/-! With which error `link` refuses, said of the state before it, and what the calls
that make several links refuse with. -/
namespace FyralisCore.Models

open Relational Relation Transaction Graph Tx ModelDb

variable {db after : ModelDb} {n left : Nat}

variable {α : Type} {error : ModelError} {spec : EdgeKindSpec} {kind : EdgeKind}
  {source target tenantId now : Nat} {args : EdgeLink}

def errorOf {ε : Type} : Except ε α → Option ε
  | .error error => some error
  | .ok _ => none

def argsError (args : EdgeLink) (spec : EdgeKindSpec) : Option ModelError :=
  (errorOf (validateWeightForSpec spec args.weight)).or <|
  (errorOf (validateConfidence args.confidence)).or <|
  (if (ReviewStatus.ofText args.reviewStatus).isNone then
    some (.invalidReviewStatus args.reviewStatus) else none).or <|
  (if (EdgeDetectedBy.ofText args.detectedBy).isNone then
    some (.invalidDetectedBy args.detectedBy) else none).or <|
  if args.source = args.target then some (.selfEdge args.kind args.source) else none

section

variable (db : ModelDb) (args : EdgeLink)

def exclusionError (spec : EdgeKindSpec) (source target : Nat) : Option ModelError :=
  (excludedKind db spec args.tenantId source target).map fun existing =>
    .mutuallyExclusive args.kind existing source target

def linkErrorOf (spec : EdgeKindSpec) : Option ModelError :=
  (argsError args spec).or <|
  (exclusionError db args spec args.source args.target).or <|
  (if spec.isDirected then none else exclusionError db args spec args.target args.source).or <|
  spec.cycleScope.bind fun scope =>
    cycleError db args.kind args.source [args.target] args.tenantId scope

def linkRefusal : Option ModelError :=
  match resolveEdgeKindSpec db args.tenantId args.kind with
  | .error error => some error
  | .ok spec => linkErrorOf db args spec

end

theorem raises_ask : Tx.Raises apply (ask answer) db n error ↔ answer db = .error error := by
  unfold ask
  rw [raises_query]
  cases answer db <;> simp [Except.map]

theorem raises_checkMutualExclusion :
    Tx.Raises apply (checkMutualExclusion spec kind source target tenantId) db n
        error ↔ ((excludedKind db spec tenantId source target).map fun existing =>
        ModelError.mutuallyExclusive kind existing source target) = some error := by
  unfold checkMutualExclusion
  rw [raises_require]

theorem raises_checkNoCycle :
    Tx.Raises apply (checkNoCycle kind source targets tenantId cycleScope) db n error ↔
      (cycleScope.bind fun scope => cycleError db kind source targets tenantId scope) =
        some error := by
  cases cycleScope with
  | none => simp [checkNoCycle]
  | some scope => simp [checkNoCycle, raises_require]

theorem raises_linkChecks_iff : Tx.Raises apply (linkChecks args) db n error ↔
      linkRefusal db args = some error := by
  unfold linkChecks linkRefusal
  simp only [bind_eq_bind, pure_eq_done]
  rw [raises_bind, raises_ask]
  simp only [returns_ask]
  cases resolveEdgeKindSpec db args.tenantId args.kind with
  | error raised => simp
  | ok spec =>
    simp only [reduceCtorEq, Except.ok.injEq, false_or, and_assoc, exists_eq_left', exists_and_left]
    unfold linkErrorOf argsError exclusionError
    cases validateWeightForSpec spec args.weight with
    | error raised => simp [errorOf, raises_bind]
    | ok weight =>
    cases validateConfidence args.confidence with
    | error raised => simp [errorOf, raises_bind]
    | ok confidence =>
    cases ReviewStatus.ofText args.reviewStatus with
    | none => simp [errorOf, raises_bind]
    | some reviewStatus =>
    cases EdgeDetectedBy.ofText args.detectedBy with
    | none => simp [errorOf, raises_bind]
    | some detectedBy =>
    by_cases hs : args.source = args.target
    · simp [errorOf, raises_bind, hs]
    · rw [if_neg hs]
      cases hex : excludedKind db spec args.tenantId args.source args.target with
      | some existing =>
        simp [errorOf, raises_bind, hs, raises_checkMutualExclusion, hex,
          returns_checkMutualExclusion]
      | none =>
      cases hm : spec.isDirected with
      | true =>
        simp [errorOf, raises_bind, hs, raises_checkMutualExclusion, hex,
          returns_checkMutualExclusion, raises_checkNoCycle, raises_when, returns_when]
      | false =>
      cases ho : excludedKind db spec args.tenantId args.target args.source with
      | some existing =>
        simp [errorOf, raises_bind, hs, raises_checkMutualExclusion, hex, ho,
          returns_checkMutualExclusion, raises_when, returns_when]
      | none =>
        simp [errorOf, raises_bind, hs, raises_checkMutualExclusion, hex, ho,
          returns_checkMutualExclusion, raises_checkNoCycle, raises_when, returns_when]

theorem raises_link_iff :
    Tx.Raises apply (link now args) db n error ↔ linkRefusal db args = some error := by
  unfold link
  rw [bind_eq_bind, raises_bind, raises_linkChecks_iff]
  refine or_iff_left ?_
  rintro ⟨⟨spec, reviewStatus, detectedBy⟩, m, k, -, hrs⟩
  obtain ⟨ids, left, hr⟩ := linkRows_returns m k now spec args.key
    (args.excluded detectedBy reviewStatus now)
  exact hrs.not_returns hr

theorem excludedKind_congr (he : after.edges = db.edges) :
    excludedKind after = excludedKind db := by
  funext spec tenantId source target
  simp [excludedKind, he]

theorem cycleError_congr (he : after.edges = db.edges) : cycleError after = cycleError db := by
  funext kind source targets tenantId scope
  unfold cycleError scopeEdges
  rw [he]

theorem validateWeightForSpec_ne_exclusion :
    validateWeightForSpec spec weight ≠ .error (.mutuallyExclusive kind existing first second) := by
  intro he
  unfold validateWeightForSpec at he
  grind

theorem argsError_ne_exclusion :
    argsError args spec ≠ some (.mutuallyExclusive kind existing first second) := by
  intro he
  unfold argsError at he
  cases hw : validateWeightForSpec spec args.weight with
  | error raised =>
    rw [hw] at he
    obtain rfl : raised = .mutuallyExclusive kind existing first second := by
      simpa [errorOf] using he
    exact validateWeightForSpec_ne_exclusion hw
  | ok weight =>
    unfold validateConfidence at he
    simp only [errorOf, Option.or_eq_some_iff] at he
    grind

theorem source_ne_target_of_argsError
    (hn : argsError args spec = none) : args.source ≠ args.target := by
  intro hs
  simp [argsError, hs] at hn

theorem linkRefusal_congr (args : EdgeLink) (he : after.edges = db.edges)
    (hp : after.proposals = db.proposals) : linkRefusal after args = linkRefusal db args := by
  unfold linkRefusal linkErrorOf exclusionError
  rw [resolveEdgeKindSpec_congr _ _ hp, excludedKind_congr he, cycleError_congr he]

/-! ### What is written before a call refuses -/

variable {ok : ModelError → Prop}

theorem reads_ask : Tx.Reads apply (ask answer) := by
  intro db n
  unfold ask
  rw [exec_query]
  cases answer db <;> rfl

theorem reads_checkNoCycle :
    Tx.Reads apply (checkNoCycle kind source targets tenantId cycleScope) := by
  cases cycleScope with
  | none => exact .done
  | some scope => exact .require

theorem reads_linkChecks : Tx.Reads apply (linkChecks args) :=
  .bind reads_ask fun _ => .bind .ofExcept fun _ => .bind .ofExcept fun _ => .bind .orRaise fun _ =>
    .bind .orRaise fun _ => .bind .ensure fun _ => .bind .require fun _ => .bind (.when .require)
      fun _ => .bind reads_checkNoCycle fun _ => .done

theorem link_failsFirst : Tx.FailsFirst apply ok (link now args) := by
  refine reads_linkChecks.bind_failsFirst fun (spec, reviewStatus, detectedBy) => .of_never ?_
  intro db n error hrs
  obtain ⟨ids, left, hr⟩ := linkRows_returns db n now spec args.key
    (args.excluded detectedBy reviewStatus now)
  exact absurd hr hrs.not_returns

variable {reason : String}

theorem retire_failsFirst :
    Tx.FailsFirst apply ok (retire now source target kind tenantId reason) :=
  reads_ask.bind_failsFirst fun _ => .query

theorem raises_retire_iff :
    Tx.Raises apply (retire now source target kind tenantId reason) db n error ↔
      resolveEdgeKindSpec db tenantId kind = .error error := by
  unfold retire
  simp [bind_eq_bind, raises_bind, raises_ask, execute, raises_query, Except.map]

theorem never_unlink {kind : RegistryKind} :
    Tx.EachError apply (fun _ => False) (unlink source target kind tenantId) := by
  intro db n error hr
  unfold unlink at hr
  simp [bind_eq_bind, raises_bind, raises_ask, execute, raises_query, Except.map] at hr

theorem never_markInert : Tx.EachError apply ok (markInert now modelId tenantId reason) := by
  unfold markInert execute
  exact .query fun _ _ ha => by cases ha

theorem never_enqueueReeval (hf : ok (.foreignKeyViolation "model_reeval_queue")) :
    Tx.EachError apply ok (enqueueReeval now tenantId dependentId causeModelId causeKind) := by
  refine .bind .newId fun id => .query fun db error ha => ?_
  dsimp only at ha
  split at ha
  · cases ha
  · split at ha
    · obtain rfl := Except.error.inj ha
      exact hf
    · cases ha

/-- An archive that is refused is refused because there is no model; the cascade fails
otherwise. -/
theorem archive_failsFirst {modelId : Nat} {reason : ModelArchiveReason}
    (hf : ¬ ok (.foreignKeyViolation "model_reeval_queue")) :
    Tx.FailsFirst apply ok (archive now modelId reason) := by
  refine Tx.Reads.read.bind_failsFirst fun found => Tx.Reads.orRaise.bind_failsFirst fun row => ?_
  refine Tx.FailsFirst.query.bind_never fun _ => ?_
  refine .bind .read fun _ => .bind (.forEach fun _ => .forSome fun _ =>
    never_enqueueReeval hf) fun _ => ?_
  refine .bind .read fun _ => .bind (.forEach fun _ => .forSome fun _ =>
    never_enqueueReeval hf) fun _ => ?_
  refine .bind .read fun _ => .bind (.forEach fun _ => never_enqueueReeval hf) fun _ => ?_
  exact .bind never_markInert fun _ => .done

section Supports

variable {now : Nat} {args : RelationArgs}

section

variable (db : ModelDb) (args : RelationArgs)

def supportLinkRefusal (source : Nat) : Option ModelError :=
  linkRefusal db (args.edgeLink .supports source args.modelId)

def missingSupports (supports : List Nat) : List Nat :=
  let edges := db.edges.rows.filter fun entry =>
    entry.1.tenantId = args.tenantId ∧ entry.1.target = args.modelId ∧
      entry.1.kind ∈ [EdgeKind.registry .supports] ∧ entry.2.status = .active
  supports.eraseDups.filter (· ∉ edges.map fun entry => entry.1.source)

def supportsRefusal (supports : List Nat) : Option ModelError :=
  (missingSupports db args supports).findSome? (supportLinkRefusal db args)

end

/-- The edges besides the `supports` edges into the model are what they were, and the
active ones of those are still active. -/
structure SupportsAdded (db after : ModelDb) (args : RelationArgs) : Prop where
  proposals : after.proposals = db.proposals
  others : ∀ key : EdgeKey, key.target ≠ args.modelId ∨ key.kind ≠ .registry .supports →
    after.edges.get key = db.edges.get key
  kept : ∀ key, ActiveAt db key → ActiveAt after key

theorem SupportsAdded.scopeGraph
    (had : SupportsAdded db after args) (he : scopeGraph after tenantId scope a b) :
    scopeGraph db tenantId scope a b ∨ b = args.modelId := by
  obtain ⟨kind, hk, row, hg, ha⟩ := (scopeGraph_iff _ _ _ _ _).mp he
  by_cases ht : b = args.modelId
  · exact .inr ht
  · rw [had.others _ (.inl ht)] at hg
    exact .inl ((scopeGraph_iff _ _ _ _ _).mpr ⟨kind, hk, row, hg, ha⟩)

theorem SupportsAdded.path_iff (had : SupportsAdded db after args) (node : Nat) :
    ReflTransGen (Models.scopeGraph after tenantId scope) args.modelId node ↔
      ReflTransGen (Models.scopeGraph db tenantId scope) args.modelId node := by
  constructor
  · exact path_of_edges_to_start fun _ _ => had.scopeGraph
  · refine ReflTransGen.mono (fun a b he => ?_) _ _
    obtain ⟨kind, hk, ha⟩ := (scopeGraph_iff _ _ _ _ _).mp he
    exact (scopeGraph_iff _ _ _ _ _).mpr ⟨kind, hk, had.kept _ ha⟩

theorem SupportsAdded.refusal_eq (ha : SupportsAdded db after args) (source : Nat) :
    supportLinkRefusal after args source = supportLinkRefusal db args source := by
  have hex : ∀ tenantId a b, excludedKind after (edgeRegistry .supports) tenantId a b =
      excludedKind db (edgeRegistry .supports) tenantId a b := by
    intro tenantId a b
    have hcn := ha.others ⟨tenantId, a, b, .registry .contradicts⟩ (.inr (by simp))
    have hw := ha.others ⟨tenantId, a, b, .registry .weakens⟩ (.inr (by simp))
    simp [excludedKind, edgeRegistry, List.find?_cons, List.find?_nil, hcn, hw]
  have hc : ∀ scope, source ∈ reachable (scopeEdges after args.tenantId scope) [args.modelId] ↔
      source ∈ reachable (scopeEdges db args.tenantId scope) [args.modelId] := by
    intro scope
    rw [mem_reachable_iff, mem_reachable_iff]
    simpa [Models.scopeGraph] using ha.path_iff source
  unfold supportLinkRefusal linkRefusal linkErrorOf exclusionError
  simp only [RelationArgs.edgeLink, resolveEdgeKindSpec_registry, hex]
  by_cases hs : args.modelId = source
  · simp [hs, argsError, cycleError, edgeRegistry]
  · simp [hs, cycleError, edgeRegistry, hc]

def linkSupport (now : Nat) (args : RelationArgs) (source : Nat) : ModelTx Unit :=
  (link now (args.edgeLink .supports source args.modelId)).bind fun _ => .done ()

variable {error : ModelError}

theorem raises_linkSupport : Tx.Raises apply (linkSupport now args source) db n error ↔
      supportLinkRefusal db args source = some error := by
  unfold linkSupport supportLinkRefusal
  rw [raises_bind_done, raises_link_iff]

theorem supportsAdded_linkSupport
    (hrt : Tx.Returns apply (linkSupport now args source) db n r after left) :
    SupportsAdded db after args := by
  obtain ⟨he, -, detectedBy, id, -, hg⟩ := returns_edgeLink rfl hrt
  refine ⟨?_, fun key ho => ?_, fun key ha => ?_⟩
  · obtain ⟨edges, rfl⟩ := he
    rfl
  · rw [hg, if_neg]
    rintro rfl
    simp at ho
  · obtain ⟨row, hr, hs⟩ := ha
    unfold ActiveAt
    rw [hg, hr]
    split
    · exact ⟨_, rfl, hs⟩
    · exact ⟨row, rfl, hs⟩

theorem raises_linkSupports :
    Tx.Raises apply (Tx.forEach sources (linkSupport now args)) db n error ↔
      sources.findSome? (supportLinkRefusal db args) = some error := by
  induction sources generalizing db n with
  | nil => simp [Tx.forEach]
  | cons source rest ih =>
    rw [List.findSome?_cons]
    change Tx.Raises apply ((linkSupport now args source).bind fun _ =>
      Tx.forEach rest (linkSupport now args)) db n error ↔ _
    rw [raises_bind, raises_linkSupport]
    cases hrf : supportLinkRefusal db args source with
    | some raised =>
      refine or_iff_left ?_
      rintro ⟨_, m, k, hr, -⟩
      exact (raises_linkSupport.mpr hrf).not_returns hr
    | none =>
      have ht : ∀ m k v, Tx.Returns apply (linkSupport now args source) db n v m k →
          (Tx.Raises apply (Tx.forEach rest (linkSupport now args)) m k error ↔
            rest.findSome? (supportLinkRefusal db args) = some error) := by
        intro m k v hr
        have hs : supportLinkRefusal m args = supportLinkRefusal db args :=
          funext (supportsAdded_linkSupport hr).refusal_eq
        rw [ih, hs]
      constructor
      · rintro (hn | ⟨v, m, k, hr, hrs⟩)
        · cases hn
        · exact (ht _ _ _ hr).mp hrs
      · intro hf
        rcases returns_or_raises _ (linkSupport now args source) db n with
          ⟨v, hr⟩ | ⟨raised, hrs⟩
        · exact .inr ⟨v, _, _, hr, (ht _ _ _ hr).mpr hf⟩
        · rw [raises_linkSupport, hrf] at hrs
          cases hrs

theorem raises_syncSupports :
    Tx.Raises apply (syncIncomingKind now .supports args supports) db n error ↔
      supportsRefusal db args supports = some error := by
  unfold syncIncomingKind syncKind traverseBackward
  simp only [bind_eq_bind]
  rw [raises_read_bind, raises_bind]
  refine (or_iff_left ?_).trans raises_linkSupports
  rintro ⟨_, m, k, -, hr⟩
  refine (?_ : Tx.EachError apply (fun _ => False) _) _ _ error hr
  exact .forEach fun _ => .bind never_unlink fun _ => .done

theorem raises_setModelRelations (hsp : args.supports = some supports)
    (hc : args.contributesTo = none) (hi : args.instanceOf = none)
    (hs : args.supersededBy = none) (ha : args.updateArrays = false) :
    Tx.Raises apply (setModelRelations now args) db n error ↔
      supportsRefusal db args supports = some error := by
  unfold setModelRelations
  rw [hsp, hc, hi, hs, ha]
  exact raises_bind_done.trans raises_syncSupports

theorem supportsRefusal_congr (args : RelationArgs) (supports : List Nat)
    (he : after.edges = db.edges) (hp : after.proposals = db.proposals) :
    supportsRefusal after args supports = supportsRefusal db args supports := by
  have hl : supportLinkRefusal after args = supportLinkRefusal db args :=
    funext fun source => linkRefusal_congr _ he hp
  unfold supportsRefusal missingSupports
  rw [hl, he]

end Supports

end FyralisCore.Models
