import FyralisCore.Acts.LateRefusals
import FyralisCore.Models.LinkRefusals
import FyralisCore.Think.RefusedOps

/-! The operations of a diff that are refused after they have written: the row of a
commitment before its edges, the state of a commitment before C10, the row of a
relation claim before its edge, and the columns of a model before its supports. -/
namespace FyralisCore.Think.Applier

open Relational Transaction List Tx Models DomainError

variable {ctx : ApplyContext} {db : DomainDb} {supply : Nat}

abbrev RefusesFirstAt {α : Type} (body : DomainTx α) (db : DomainDb) (supply : Nat) : Prop :=
  Tx.FailsFirstAt change (fun error => error.isRefusal) body db supply

abbrev RefusesFirst {α : Type} (body : DomainTx α) : Prop :=
  Tx.FailsFirst change (fun error => error.isRefusal) body

abbrev ValidatesFirstAt {α : Type} (body : DomainTx α) (db : DomainDb) (supply : Nat) : Prop :=
  Tx.FailsFirstAt change (fun error => error.errorClass = .validationError) body db supply

abbrev NeverRefuses {α : Type} (body : DomainTx α) : Prop :=
  Tx.EachError change (fun error => ¬ error.isRefusal) body

theorem isRefusal_iff {error : DomainError} : error.isRefusal ↔ error.errorClass ≠ .other := by
  simp [isRefusal]

theorem isRefusal_act : (act error).isRefusal ↔ error.isRefusal := by
  cases error <;> simp [isRefusal, errorClass, errorClassOfAct,
    Acts.ActError.isRefusal]

theorem isValidation_resource :
    (resource error).errorClass = .validationError ↔ error.isValidation := by
  cases error <;> simp [errorClass, errorClassOfResource,
    Resources.ResourceError.isValidation]

variable {α : Type} {w : DomainDb → DomainDb}

theorem neverRefuses_of_never {body : DomainTx α}
    (hn : ∀ errorClass, errorClass ≠ .other → Never errorClass body) : NeverRefuses body :=
  fun db supply error hrs hr =>
    hn error.errorClass (isRefusal_iff.mp hr) db supply error hrs rfl

theorem eachError_execute : Tx.EachError change ok (execute w) :=
  .query fun _ _ ha => by cases ha

theorem keeps_execute (hw : ∀ db, view (w db) = view db) : Tx.Keeps change view (execute w) :=
  .query fun db _ _ ha => by
    cases ha
    exact hw db

theorem neverRefuses_execute : NeverRefuses (execute w) :=
  neverRefuses_of_never fun _ _ => never_execute

theorem neverRefuses_emitStateChange : NeverRefuses (emitStateChange ctx a) :=
  neverRefuses_of_never fun _ ho => never_emitStateChange ho

theorem neverRefuses_emitDecisionChange : NeverRefuses (emitDecisionChange observation) :=
  neverRefuses_of_never fun _ ho => never_emitDecisionChange ho

theorem neverRefuses_emitAuditEvent : NeverRefuses (emitAuditEvent event) :=
  .bind .read fun _ => .bind .newId fun _ => neverRefuses_execute

theorem RefusesFirst.validatesFirst {body : DomainTx α} (h1 : RefusesFirst body) :
    ValidatesFirstAt body db supply :=
  (h1 db supply).mono fun error hc => by simp [isRefusal_iff, hc]

theorem applyEdgeOp_refusesFirst : RefusesFirst (applyEdgeOp ctx op) := by
  intro db supply
  unfold applyEdgeOp modelCall
  cases op.op with
  | add => exact .onPart ((link_failsFirst.bind_never fun _ => .done) _ _)
  | retire => exact .onPart ((retire_failsFirst.bind_never fun _ => .done) _ _)

/-- The act operations that are refused after they have written. -/
inductive LateAct (ctx : ApplyContext) (db : DomainDb) (supply : Nat) : ActOp → Prop where
  | createCommitment (basis : Option Nat) (args : Acts.CommitmentCreate)
      (hlate : Acts.LateCreate ctx.clock
        { args with tenantId := ctx.tenantId, lastConfidenceBasis := basis } (actsView db) supply) :
    LateAct ctx db supply ⟨basis, .createCommitment args⟩
  | transitionCommitment (basis : Option Nat) (commitmentId : Nat)
      (newState : Acts.CommitmentState) (resolved : List Nat) (causeEventId : Option Nat)
      (row : Acts.CommitmentRow)
      (hlate : Acts.LateTransition commitmentId newState
        { resolvedByEventIds := if resolved.isEmpty then none else some resolved
          lastConfidenceBasis := basis
          causeEventId := ctx.causeEventId.or causeEventId } (actsView db) row) :
    LateAct ctx db supply ⟨basis, .transitionCommitment commitmentId newState resolved causeEventId⟩

theorem updateGoal_refusesFirst : RefusesFirst (updateGoal ctx update) :=
  Tx.Reads.orRaise.bind_failsFirst fun _ => Tx.Reads.ensure.bind_failsFirst fun _ =>
    .of_never (.bind neverRefuses_execute fun _ => neverRefuses_emitStateChange)

theorem createDecision_refusesFirst : RefusesFirst (createDecision ctx a) :=
  Tx.Reads.ensure.bind_failsFirst fun _ => Tx.Reads.ensure.bind_failsFirst fun _ =>
    Tx.Reads.newId.bind_failsFirst fun _ => .of_never
      (.bind (neverRefuses_of_never fun _ => never_constrained) fun _ =>
        neverRefuses_emitDecisionChange)

theorem transitionDecision_refusesFirst :
    RefusesFirst (transitionDecision ctx decisionId newState) :=
  Tx.Reads.read.bind_failsFirst fun _ => Tx.Reads.orRaise.bind_failsFirst fun _ =>
    Tx.Reads.ensure.bind_failsFirst fun _ => .of_never
      (.bind neverRefuses_execute fun _ => neverRefuses_emitDecisionChange)

theorem actCall_refusesFirst (hb : Acts.RefusesFirstAt body (actsView db) supply) :
    RefusesFirstAt (actCall body) db supply := by
  have ha : Tx.FailsFirstAt Acts.Db.apply (fun error => error.isRefusal)
      (body.bind fun _ => .done ()) (actsView db) supply := hb.bind_done
  exact .onPart (ha.mono fun error => isRefusal_act.mp)

theorem applyActOp_refusesFirst (hl : ¬ LateAct ctx db supply op) :
    RefusesFirstAt (applyActOp ctx op) db supply := by
  obtain ⟨basis, entity⟩ := op
  cases entity with
  | createGoal a => exact actCall_refusesFirst (Acts.createGoal_refusesFirst _ _)
  | updateGoal update => exact updateGoal_refusesFirst _ _
  | transitionGoal goalId newState =>
    exact actCall_refusesFirst (Acts.transitionGoal_refusesFirst _ _)
  | createCommitment a =>
    exact actCall_refusesFirst
      (Acts.createCommitment_refusesFirst fun hc => hl (.createCommitment _ _ hc))
  | transitionCommitment commitmentId newState resolved causeEventId =>
    exact actCall_refusesFirst (Acts.transitionCommitment_refusesFirst fun row ht =>
      hl (.transitionCommitment _ _ _ _ _ row ht))
  | createDecision a => exact createDecision_refusesFirst _ _
  | transitionDecision decisionId newState => exact transitionDecision_refusesFirst _ _
  | addEdge a => exact actCall_refusesFirst (Acts.addEdge_refusesFirst _ _)
  | malformed op error => exact Tx.Reads.raise.failsFirst _ _

theorem resourceCall_validatesFirst
    (hb : Resources.ValidatesFirst body) : ValidatesFirstAt (resourceCall body) db supply := by
  exact .onPart ((hb _ _).bind_done.mono fun error => isValidation_resource.mp)

theorem createResource_refusesFirst : RefusesFirst (createResource ctx a) :=
  Tx.Reads.orRaise.bind_failsFirst fun _ => Tx.Reads.orRaise.bind_failsFirst fun _ =>
    Tx.Reads.ensure.bind_failsFirst fun _ => Tx.Reads.ensure.bind_failsFirst fun _ =>
      Tx.Reads.ensure.bind_failsFirst fun _ => Tx.Reads.orRaise.bind_failsFirst fun _ =>
        Tx.Reads.newId.bind_failsFirst fun _ => .of_never
          (.bind (neverRefuses_of_never fun _ => never_constrained) fun _ =>
            neverRefuses_emitStateChange)

theorem updateAttributes_refusesFirst : RefusesFirst (updateAttributes ctx update) :=
  Tx.Reads.ensure.bind_failsFirst fun _ => Tx.Reads.read.bind_failsFirst fun _ =>
    Tx.Reads.orRaise.bind_failsFirst fun _ => Tx.Reads.ensure.bind_failsFirst fun _ => .of_never
      (.bind neverRefuses_execute fun _ => neverRefuses_emitStateChange)

theorem applyResourceOp_validatesFirst : ValidatesFirstAt (applyResourceOp ctx op) db supply := by
  cases op with
  | create a => exact createResource_refusesFirst.validatesFirst
  | update update => exact updateAttributes_refusesFirst.validatesFirst
  | transaction a => exact resourceCall_validatesFirst Resources.recordTransaction_validatesFirst
  | deploy a => exact resourceCall_validatesFirst Resources.deploy_validatesFirst
  | release a => exact resourceCall_validatesFirst Resources.release_validatesFirst
  | malformed op error => exact Tx.Reads.raise.failsFirst _ _

section Claims

open Models (EdgeKey EdgeRow ModelDb RegistryKind EdgeKind)

variable {op : RelationClaimOp} {source target : Nat}

/-- A mutual exclusion that the claim overrides: the edges that exclude it are support
edges that give way. -/
structure Overrides (ctx : ApplyContext) (db : ModelDb) (op : RelationClaimOp)
    (source target : Nat) (error : Models.ModelError) : Prop where
  exclusion : ∃ kind existing first second, error = .mutuallyExclusive kind existing first second
  told : (model error).isExclusion ctx.decimal
  superseded : supersededPairs db ctx.tenantId op.edgeKind source target ≠ []

/-- The relation claims that are refused after their row is inserted. -/
inductive LateClaim (ctx : ApplyContext) (db : DomainDb) (op : RelationClaimOp) : Prop where
  | retired (source target : Nat) (error : Models.ModelError) (hvalid : op.refusal = none)
      (hendpoints : op.endpoints = some (source, target)) (hstatus : op.status = .retired)
      (hkind : resolveEdgeKindSpec (modelsView db) ctx.tenantId op.edgeKind = .error error)
  | refused (source target : Nat) (error : Models.ModelError) (hvalid : op.refusal = none)
      (hendpoints : op.endpoints = some (source, target)) (hstatus : op.status ≠ .retired)
      (haccepted : op.writePolicy = .acceptedEdge)
      (hrefused : linkRefusal (modelsView db) (op.link ctx source target []) = some error)
      (hstands : ¬ Overrides ctx (modelsView db) op source target error)

def supportsEdge (tenantId : Nat) (pair : Nat × Nat) : EdgeKey :=
  ⟨tenantId, pair.1, pair.2, .registry .supports⟩

/-- What pairs that give way are: the live edges that exclude the claim are `supports`
edges. -/
structure GivesWay (db : ModelDb) (tenantId : Nat) (kind : RegistryKind) (source target : Nat)
    (pairs : List (Nat × Nat)) : Prop where
  superseder : kind ∈ supportSuperseders
  conflicting : ∀ pair ∈ pairs, conflictRows db (edgeRegistry kind) tenantId pair ≠ []
  all : ∀ pair ∈ conflictPairs source target (!(edgeRegistry kind).isDirected),
    conflictRows db (edgeRegistry kind) tenantId pair ≠ [] → pair ∈ pairs
  supports : ∀ pair ∈ pairs, ∀ entry ∈ conflictRows db (edgeRegistry kind) tenantId pair,
    entry.1.kind = .registry .supports

variable {tenantId left claimId : Nat} {pair : Nat × Nat} {after : ModelDb}
  {pairs : List (Nat × Nat)} {reason : String}

theorem givesWay_of_supersededPairs {db : ModelDb}
    (hpr : supersededPairs db tenantId edgeKind source target ≠ []) :
    ∃ kind, edgeKind = .registry kind ∧ GivesWay db tenantId kind source target
        (supersededPairs db tenantId edgeKind source target) := by
  cases edgeKind with
  | dynamic kind => exact absurd rfl hpr
  | registry kind =>
    refine ⟨kind, rfl, ?_⟩
    unfold supersededPairs at hpr ⊢
    dsimp only at hpr ⊢
    split at hpr
    case isFalse => exact absurd rfl hpr
    case isTrue hk =>
    rw [if_pos hk]
    split at hpr
    case isFalse => exact absurd rfl hpr
    case isTrue ha =>
    rw [if_pos ha]
    simp only [all_eq_true, decide_eq_true_eq] at ha
    refine ⟨hk.1, fun pair hp => ?_, fun pair hp hr => ?_, fun pair hp e he => ?_⟩
    · simpa using (mem_filter.mp hp).2
    · exact mem_filter.mpr ⟨hp, by simpa using hr⟩
    · exact (ha pair hp e he).1

theorem mem_conflictRows_iff {db : ModelDb} {e : EdgeKey × EdgeRow} :
    e ∈ conflictRows db spec tenantId pair ↔ db.edges.get e.1 = some e.2 ∧ e.1.tenantId = tenantId ∧
        e.1.source = pair.1 ∧ e.1.target = pair.2 ∧
          e.1.kind ∈ spec.mutuallyExclusiveWith ∧ e.2.isLive := by
  simp [conflictRows, ← Table.mem_rows_iff]

/-- What is live is what was live, less the support edges of the pairs. -/
structure SupportsRetired (db after : ModelDb) (tenantId : Nat) (pairs : List (Nat × Nat)) :
    Prop where
  proposals : after.proposals = db.proposals
  live : ∀ key row, after.edges.get key = some row → row.isLive →
    db.edges.get key = some row ∧ ∀ pair ∈ pairs, key ≠ supportsEdge tenantId pair

theorem GivesWay.not_excluded {db : ModelDb} (hgv : GivesWay db tenantId kind source target pairs)
    (hr : SupportsRetired db after tenantId pairs) (pair : Nat × Nat)
    (hp : pair ∈ conflictPairs source target (!(edgeRegistry kind).isDirected)) :
    excludedKind after (edgeRegistry kind) tenantId pair.1 pair.2 = none := by
  unfold excludedKind
  rw [List.find?_eq_none]
  intro excluded hex ha
  obtain ⟨row, hg, hl⟩ := (Option.any_eq_true _ _).mp ha
  obtain ⟨hb, ho⟩ := hr.live _ row hg hl
  have he : (⟨⟨tenantId, pair.1, pair.2, excluded⟩, row⟩ : EdgeKey × EdgeRow) ∈
      conflictRows db (edgeRegistry kind) tenantId pair :=
    mem_conflictRows_iff.mpr ⟨hb, rfl, rfl, rfl, hex, hl⟩
  have hm : pair ∈ pairs := hgv.all pair hp (ne_nil_of_mem he)
  obtain rfl : excluded = .registry .supports := hgv.supports pair hm _ he
  exact ho pair hm rfl

theorem Overrides.linkable {db : ModelDb} (ho : Overrides ctx db op source target error)
    (hrf : linkRefusal db (op.link ctx source target []) = some error)
    (hrt : SupportsRetired db after ctx.tenantId
      (supersededPairs db ctx.tenantId op.edgeKind source target))
    (metadata : List (String × Acts.Json)) :
    linkRefusal after (op.link ctx source target metadata) = none := by
  obtain ⟨kind, hk, hg⟩ := givesWay_of_supersededPairs ho.superseded
  obtain ⟨_, _, _, _, rfl⟩ := ho.exclusion
  have hrs : ∀ s : ModelDb, resolveEdgeKindSpec s ctx.tenantId op.edgeKind =
      .ok (edgeRegistry kind) := by
    intro s
    rw [hk, resolveEdgeKindSpec_registry]
  have hs : (edgeRegistry kind).cycleScope = none := by
    have hsp := hg.superseder
    simp only [supportSuperseders, mem_cons, not_mem_nil, or_false] at hsp
    rcases hsp with rfl | rfl | rfl <;> rfl
  have har : argsError (op.link ctx source target []) (edgeRegistry kind) = none := by
    cases hr : argsError (op.link ctx source target []) (edgeRegistry kind) with
    | none => rfl
    | some raised =>
      unfold linkRefusal linkErrorOf at hrf
      simp only [RelationClaimOp.link] at hrf hr
      rw [hrs] at hrf
      dsimp only at hrf
      rw [hr] at hrf
      cases hrf
      exact absurd hr argsError_ne_exclusion
  have hsf : source ≠ target := source_ne_target_of_argsError har
  have ha : argsError (op.link ctx source target metadata) (edgeRegistry kind) = none := har
  have hf := hg.not_excluded hrt (source, target) (by unfold conflictPairs; split <;> simp)
  have hb : (edgeRegistry kind).isDirected = false →
      excludedKind after (edgeRegistry kind) ctx.tenantId target source = none := by
    intro hsy
    exact hg.not_excluded hrt (target, source) (by simp [conflictPairs, hsy, hsf])
  unfold linkRefusal linkErrorOf exclusionError
  simp only [RelationClaimOp.link] at ha ⊢
  rw [hrs]
  dsimp only
  rw [ha, hf, hs]
  cases hd : (edgeRegistry kind).isDirected with
  | true => rfl
  | false => simp [hb hd]

theorem SupportsRetired.refl (db : ModelDb) (tenantId : Nat) : SupportsRetired db db tenantId [] :=
  ⟨rfl, fun _ _ hg _ => ⟨hg, fun _ hp => absurd hp not_mem_nil⟩⟩

theorem SupportsRetired.trans {db : ModelDb} (h1 : SupportsRetired db m tenantId [first])
    (ht : SupportsRetired m after tenantId rest) :
    SupportsRetired db after tenantId (first :: rest) := by
  refine ⟨ht.proposals.trans h1.proposals, fun key row hg hl => ?_⟩
  obtain ⟨hmd, hother⟩ := ht.live key row hg hl
  obtain ⟨hb, ho⟩ := h1.live key row hmd hl
  refine ⟨hb, fun pair hp => ?_⟩
  rcases mem_cons.mp hp with rfl | hm
  · exact ho _ (.head _)
  · exact hother pair hm

theorem activeBetweenPair_supports {pair : EdgeKey} :
    activeBetweenPair (edgeRegistry .supports) pair key row ↔
      key = pair ∧ row.status = .active := by
  simp [activeBetweenPair, betweenPair, edgeRegistry]

theorem returns_retireSupports {db : ModelDb}
    (hrt : Tx.Returns ModelDb.apply (retireSupports ctx reason pair) db supply found after left) :
    SupportsRetired db after ctx.tenantId [pair] ∧
      ((∃ row, db.edges.get (supportsEdge ctx.tenantId pair) = some row ∧ row.status = .active) →
        found.isSome) := by
  obtain ⟨count, _, _, hr, hd⟩ := hrt.parts
  obtain ⟨rfl, rfl, -⟩ := hd.ended
  obtain ⟨spec, _, _, hask, he⟩ := hr.parts
  obtain ⟨hrs, rfl, -⟩ := returns_ask.mp hask
  cases hrs
  obtain ⟨w, ha, rfl, -⟩ := returns_execute.mp he
  cases ha
  refine ⟨⟨rfl, fun key row hg hl => ?_⟩, ?_⟩
  · unfold Models.ModelDb.updateEdges at hg
    rw [Table.get_updateWhere, Option.map_eq_some_iff] at hg
    obtain ⟨old, hold, hch⟩ := hg
    unfold Table.changed at hch
    split at hch
    · subst hch
      cases hl
    · next hc =>
      subst hch
      refine ⟨hold, fun other ho => ?_⟩
      obtain rfl := mem_singleton.mp ho
      rintro rfl
      exact hc (activeBetweenPair_supports.mpr ⟨rfl, ((isLive_iff _).mp hl).1⟩)
  · rintro ⟨row, hg, hac⟩
    rw [if_neg]
    · rfl
    · intro hz
      exact (Table.count_eq_zero_iff _ _).mp hz _ row hg (activeBetweenPair_supports.mpr ⟨rfl, hac⟩)

theorem returns_retireAll {db : ModelDb}
    (hr : Tx.Returns ModelDb.apply (Tx.mapEach pairs (retireSupports ctx reason)) db supply
      found after left) : SupportsRetired db after ctx.tenantId pairs ∧
      ∀ first ∈ pairs.head?, (∃ row, db.edges.get (supportsEdge ctx.tenantId first) = some row ∧
        row.status = .active) → found.filterMap id ≠ [] := by
  induction pairs generalizing db supply found left with
  | nil =>
    obtain ⟨-, rfl, -⟩ := hr.ended
    exact ⟨.refl _ _, fun _ h1 => by cases h1⟩
  | cons pair rest ih =>
    obtain ⟨v, m, k, hp, hr⟩ := hr.parts
    obtain ⟨values, _, _, ht, hd⟩ := hr.parts
    obtain ⟨rfl, rfl, -⟩ := hd.ended
    obtain ⟨hrt, hs⟩ := returns_retireSupports hp
    refine ⟨hrt.trans (ih ht).1, ?_⟩
    intro first h1 ha
    obtain rfl : pair = first := Option.some.inj h1
    obtain ⟨retired, hv⟩ := Option.isSome_iff_exists.mp (hs ha)
    simp [hv]

theorem GivesWay.first_active {db : ModelDb}
    (hgv : GivesWay db tenantId kind source target pairs) (hp : pair ∈ pairs) :
    ∃ row, db.edges.get (supportsEdge tenantId pair) = some row ∧ row.status = .active := by
  obtain ⟨e, he⟩ := exists_mem_of_ne_nil _ (hgv.conflicting pair hp)
  obtain ⟨hg, ht, hs, htg, -, hl⟩ := mem_conflictRows_iff.mp he
  have hk := hgv.supports pair hp e he
  obtain ⟨⟨tenant, entrySource, entryTarget, entryKind⟩, row⟩ := e
  subst ht hs htg hk
  exact ⟨row, hg, ((isLive_iff row).mp hl).1⟩

theorem never_retireSupports :
    Tx.EachError ModelDb.apply (fun _ => False) (retireSupports ctx reason pair) := by
  refine .bind (fun db supply error hr => ?_) fun _ => .done
  cases hr

theorem never_refreshSupportingModelIds :
    Tx.EachError ModelDb.apply (fun _ => False) (refreshSupportingModelIds tenantId modelId) := by
  unfold refreshSupportingModelIds Models.change
  exact .query fun _ _ ha => by cases ha

theorem never_retireSuperseded : Tx.EachError ModelDb.apply (fun _ => False)
      (retireSupersededSupportEdges ctx op source target claimId) :=
  .bind .read fun _ => .bind (.mapEach fun _ => never_retireSupports) fun _ =>
    .bind (.forEach fun _ => never_refreshSupportingModelIds) fun _ => .done

theorem keeps_refreshSupportingModelIds :
    Tx.Keeps ModelDb.apply (fun db => (db.edges, db.proposals))
      (refreshSupportingModelIds tenantId modelId) := by
  unfold refreshSupportingModelIds Models.change
  refine .query fun db ws v ha => ?_
  cases ha
  rfl

theorem returns_retireSuperseded {db : ModelDb} (hrt : Tx.Returns ModelDb.apply
      (retireSupersededSupportEdges ctx op source target claimId) db supply retired after left) :
    SupportsRetired db after ctx.tenantId
        (supersededPairs db ctx.tenantId op.edgeKind source target) ∧
      (supersededPairs db ctx.tenantId op.edgeKind source target ≠ [] → retired ≠ []) := by
  unfold retireSupersededSupportEdges at hrt
  simp only [bind_eq_bind, pure_eq_done] at hrt
  rw [returns_read_bind] at hrt
  obtain ⟨found, m, k, hm, hrt⟩ := hrt.parts
  obtain ⟨_, _, _, hr, hd⟩ := hrt.parts
  obtain ⟨rfl, rfl, -⟩ := hd.ended
  obtain ⟨hrtd, hs⟩ := returns_retireAll hm
  have hk : (_ , _) = (m.edges, m.proposals) :=
    (Tx.Keeps.forEach fun _ => keeps_refreshSupportingModelIds).view_eq hr
  obtain ⟨he, hpr⟩ := Prod.mk.inj hk
  refine ⟨⟨hpr.trans hrtd.proposals, fun key row hg => ?_⟩, fun hp => ?_⟩
  · rw [he] at hg
    exact hrtd.live key row hg
  · obtain ⟨kind, -, hgv⟩ := givesWay_of_supersededPairs hp
    obtain ⟨first, rest, heq⟩ := exists_cons_of_ne_nil hp
    refine hs first (by rw [heq]; rfl) (hgv.first_active ?_)
    rw [heq]
    exact .head _

/-- The edge of an accepted claim is refused as its link is, unless the claim overrides
what excludes it. -/
theorem raises_linkAcceptedClaim {error : DomainError}
    (hrs : Tx.Raises change (linkAcceptedClaim ctx op source target claimId) db supply error) :
    ∃ refusal, linkRefusal (modelsView db) (op.link ctx source target []) = some refusal ∧
      ¬ Overrides ctx (modelsView db) op source target refusal := by
  rcases raises_attempt_bind.mp hrs with ⟨edgeIds, _, _, -, hrs⟩ | ⟨raised, hl, hrs⟩
  · exact absurd hrs raises_done
  · obtain ⟨refusal, hr, rfl⟩ := raises_onPart.mp hl
    have hrf := raises_link_iff.mp hr
    refine ⟨refusal, hrf, fun ho => ?_⟩
    have h1 : Tx.FailsFirstAt change (fun _ => True) (onModels (link ctx.clock.transactionNow
          (op.link ctx source target (op.edgeMetadata claimId)))) db supply :=
      .onPart (link_failsFirst (modelsPart.view db) supply)
    have hst := h1 _ hl trivial
    rw [hst] at hrs
    rcases raises_bind.mp hrs with hrs | ⟨_, _, _, he, hrs⟩
    · obtain ⟨hnt, -⟩ := raises_ensure.mp hrs
      rw [ho.told] at hnt
      cases hnt
    obtain ⟨-, rfl, rfl⟩ := returns_ensure.mp he
    rcases raises_bind.mp hrs with hrs | ⟨retired, m, _, hrt, hrs⟩
    · obtain ⟨inner, hi, -⟩ := raises_onPart.mp hrs
      exact never_retireSuperseded _ _ inner hi
    obtain ⟨hrtd, hs⟩ := returns_retireSuperseded (returns_onPart hrt).1
    rcases raises_bind.mp hrs with hrs | ⟨_, _, _, he, hrs⟩
    · obtain ⟨hnt, -⟩ := raises_ensure.mp hrs
      exact hs ho.superseded (by simpa using hnt)
    obtain ⟨-, rfl, rfl⟩ := returns_ensure.mp he
    obtain ⟨inner, hi, -⟩ := raises_onPart.mp hrs
    have hn := ho.linkable hrf hrtd (mergeMetadata (op.edgeMetadata claimId)
        [("superseded_edge_count", .number (toString (retired.map Prod.snd).sum))])
    have hs := raises_link_iff.mp hi
    cases hn.symm.trans hs

theorem raises_applyClaimEdges (hv : op.refusal = none)
    (hrs : Tx.Raises change (applyClaimEdges ctx op claimId) db supply error) :
    LateClaim ctx db op := by
  unfold applyClaimEdges at hrs
  cases he : op.endpoints with
  | none =>
    rw [he] at hrs
    exact absurd hrs raises_done
  | some pair =>
    obtain ⟨source, target⟩ := pair
    rw [he] at hrs
    dsimp only at hrs
    split at hrs
    · next hs =>
      obtain ⟨refusal, hr, -⟩ := raises_onPart.mp hrs
      exact .retired source target refusal hv he hs (raises_retire_iff.mp (raises_bind_done.mp hr))
    · next hs =>
      obtain ⟨ha, hrs⟩ := raises_when.mp hrs
      rcases raises_bind.mp hrs with hl | ⟨edgeIds, _, _, -, hm⟩
      · obtain ⟨refusal, hrf, hsd⟩ := raises_linkAcceptedClaim hl
        exact .refused source target refusal hv he hs (of_decide_eq_true ha) hrf hsd
      · unfold markRelationClaimAccepted execute at hm
        cases raises_query.mp hm

theorem keeps_insertRelationClaim : Tx.Keeps change modelsView (insertRelationClaim ctx op) := by
  unfold insertRelationClaim
  cases op.id with
  | some id =>
    exact .bind Tx.Reads.done.keeps fun _ => .bind (keeps_execute fun _ => rfl) fun _ =>
      Tx.Reads.done.keeps
  | none =>
    exact .bind Tx.Reads.newId.keeps fun _ => .bind (keeps_execute fun _ => rfl) fun _ =>
      Tx.Reads.done.keeps

theorem never_insertRelationClaim :
    Tx.EachError change (fun _ => False) (insertRelationClaim ctx op) := by
  unfold insertRelationClaim
  cases op.id with
  | some id => exact .bind .done fun _ => .bind eachError_execute fun _ => .done
  | none => exact .bind .newId fun _ => .bind eachError_execute fun _ => .done

theorem LateClaim.congr (hm : modelsView db = modelsView before)
    (hl : LateClaim ctx db op) : LateClaim ctx before op := by
  cases hl with
  | retired source target error hv he hs hk =>
    exact .retired source target error hv he hs (hm ▸ hk)
  | refused source target error hv he hs ha hr hsd =>
    exact .refused source target error hv he hs ha (hm ▸ hr) (hm ▸ hsd)

theorem applyRelationClaimOp_refusesFirst (hl : ¬ LateClaim ctx db op) :
    RefusesFirstAt (applyRelationClaimOp ctx op) db supply := by
  unfold applyRelationClaimOp
  cases hv : op.refusal with
  | some error =>
    exact Tx.Reads.raise.failsFirst.bind_at fun _ _ _ _ hr =>
      absurd hr (raises_raise.mpr rfl).not_returns
  | none =>
    refine Tx.Reads.done.bind_at fun _ k _ => ?_
    refine (Tx.FailsFirst.of_never (never_insertRelationClaim.mono fun _ => False.elim)).bind_at
      fun claimId m _ error hr hrs _ => hl ?_
    exact (raises_applyClaimEdges hv hrs).congr (keeps_insertRelationClaim.view_eq hr)

end Claims

def MemoryLifecycleOp.prepared (ctx : ApplyContext) (db : DomainDb) (op : MemoryLifecycleOp)
    (row : Models.ModelRow) (belief : BeliefRow) : ModelChanges :=
  let given := op.changes ctx row belief
  (given.mergeSupporting ctx db op.modelId).dropInconsistentResolution given

/-- The lifecycle operations that are refused after the row of their model is updated. -/
inductive LateLifecycle (ctx : ApplyContext) (db : DomainDb) (op : MemoryLifecycleOp) : Prop where
  | supports (row : Models.ModelRow) (belief : BeliefRow) (supports : List Nat)
      (error : Models.ModelError) (hkept : op.action ≠ .archive ∧ op.action ≠ .supersede)
      (hfound : db.model op.modelId = some (row, belief)) (htenant : row.tenantId = ctx.tenantId)
      (hsupports : (op.prepared ctx db row belief).supportingModelIds = some supports)
      (hrefused : supportsRefusal (modelsView db) (updateRelations ctx op.modelId supports)
        supports = some error)
      (hvalidation : errorClassOfModel error = .validationError)

section

def linkTables (db : DomainDb) : Table Models.EdgeKey Models.EdgeRow ×
    Table (Nat × Models.EdgeKind) Models.ProposalRow :=
  (db.models.edges, db.models.proposals)

theorem keeps_emitStateChange : Tx.Keeps change linkTables (emitStateChange ctx a) :=
  .onPart fun _ _ => rfl

variable {modelId : Nat}

theorem keeps_updateConfidence :
    Tx.Keeps change linkTables (updateConfidence ctx modelId confidence) :=
  .bind Tx.Reads.read.keeps fun _ => .bind (keeps_execute fun _ => rfl) fun _ =>
    .forSome fun _ => .bind keeps_emitStateChange fun _ => .bind Tx.Reads.read.keeps fun _ =>
      .bind Tx.Reads.newId.keeps fun _ => keeps_execute fun _ => rfl

theorem keeps_columnUpdates (changes : ModelChanges) (modelId : Nat) :
    Tx.Keeps change linkTables (execute (changes.apply modelId)) :=
  keeps_execute fun _ => rfl

theorem neverRefuses_updateConfidence : NeverRefuses (updateConfidence ctx modelId confidence) :=
  .bind .read fun _ => .bind neverRefuses_execute fun _ => .forSome fun _ =>
    .bind neverRefuses_emitStateChange fun _ => neverRefuses_emitAuditEvent

theorem neverRefuses_recordColumnUpdates :
    NeverRefuses (recordColumnUpdates ctx modelId changes found) :=
  .bind neverRefuses_emitStateChange fun _ => .bind neverRefuses_emitAuditEvent fun _ =>
    .forSome fun _ => neverRefuses_execute

theorem neverRefuses_recordArchive : NeverRefuses (recordArchive ctx modelId reason row metadata) :=
  .bind neverRefuses_emitStateChange fun _ => neverRefuses_emitAuditEvent

theorem raises_applyClaimUpdate
    (hrs : Tx.Raises change (applyClaimUpdate ctx modelId changes) db supply error)
    (hr : error.isRefusal) : ∃ supports refusal,
      ((changes.mergeSupporting ctx db modelId).dropInconsistentResolution
        changes).supportingModelIds = some supports ∧
      supportsRefusal (modelsView db) (updateRelations ctx modelId supports) supports =
        some refusal ∧ error = .model refusal := by
  unfold applyClaimUpdate at hrs
  simp only [bind_eq_bind] at hrs
  rw [raises_read_bind] at hrs
  rcases raises_bind.mp hrs with hc | ⟨_, scored, _, hc, hrs⟩
  · exact absurd hr (Tx.EachError.forSome (fun _ => neverRefuses_updateConfidence) _ _ _ hc)
  have hs : linkTables scored = linkTables db :=
    (Tx.Keeps.forSome fun _ => keeps_updateConfidence).view_eq hc
  obtain ⟨-, hrs⟩ := raises_when.mp hrs
  unfold applyColumnUpdates at hrs
  simp only [bind_eq_bind] at hrs
  rw [raises_read_bind] at hrs
  rcases raises_bind.mp hrs with hup | ⟨_, updated, _, hup, hrs⟩
  · exact absurd hr (neverRefuses_execute _ _ _ hup)
  have hu : linkTables updated = linkTables scored :=
    (keeps_columnUpdates _ modelId).view_eq hup
  obtain ⟨he, hp⟩ := Prod.mk.inj (hu.trans hs)
  rcases raises_bind.mp hrs with hrl | ⟨_, _, _, -, hrc⟩
  · obtain ⟨supports, hsp, hrl⟩ := raises_forSome.mp hrl
    obtain ⟨refusal, hrf, rfl⟩ := raises_onPart.mp hrl
    rw [raises_setModelRelations rfl rfl rfl rfl rfl] at hrf
    refine ⟨supports, refusal, hsp, ?_, rfl⟩
    rw [← hrf]
    exact (supportsRefusal_congr _ _ he hp).symm
  · exact absurd hr (neverRefuses_recordColumnUpdates _ _ _ hrc)

theorem applyClaimArchive_validatesFirst {reason : Models.ModelArchiveReason} :
    ValidatesFirstAt (applyClaimArchive ctx modelId reason) db supply := by
  refine Tx.Reads.read.bind_failsFirst (fun found => Tx.FailsFirst.bind_never ?_ fun _ => ?_) _ _
  · exact fun db supply => .onPart (archive_failsFirst (by simp [errorClass,
      errorClassOfModel]) _ _)
  · exact .forSome fun _ => neverRefuses_recordArchive.mono fun error hn hc =>
      hn (by simp [isRefusal_iff, hc])

theorem applyLifecycleOp_validatesFirst {op : MemoryLifecycleOp} (hl : ¬ LateLifecycle ctx db op) :
    ValidatesFirstAt (applyLifecycleOp ctx op) db supply := by
  by_cases hk : op.action ≠ .archive ∧ op.action ≠ .supersede
  · have hu : applyLifecycleOp ctx op = (Tx.read fun db => (db.model op.modelId).filter fun found =>
          found.1.tenantId = ctx.tenantId).bind fun found =>
        (Tx.orRaise found
          (.validationError "memory_lifecycle_op target model not found")).bind fun found =>
        applyClaimUpdate ctx op.modelId (op.changes ctx found.1 found.2) := by
      unfold applyLifecycleOp
      cases ha : op.action <;> simp_all
    rw [hu]
    refine Tx.Reads.read.bind_at fun _ _ hrd => Tx.Reads.orRaise.bind_at fun found _ hs => ?_
    obtain ⟨rfl, -, -⟩ := returns_read.mp hrd
    obtain ⟨hf, -, -⟩ := returns_orRaise.mp hs
    obtain ⟨hm, ht⟩ := Option.filter_eq_some_iff.mp hf
    intro error hrs hc
    obtain ⟨supports, refusal, hsp, hr, rfl⟩ :=
      raises_applyClaimUpdate hrs (by simp [isRefusal_iff, hc])
    exact absurd (.supports found.1 found.2 supports refusal hk hm (by simpa using ht) hsp hr hc) hl
  · unfold applyLifecycleOp
    cases ha : op.action with
    | archive => exact applyClaimArchive_validatesFirst
    | supersede => exact applyClaimArchive_validatesFirst
    | _ => simp [ha] at hk

end

end FyralisCore.Think.Applier
