import FyralisCore.Acts.Statements
import FyralisCore.Substrate.Promotion

/-! What the parts of a promotion write, for any property of a write. A section names the
writes that the property must allow. -/
namespace FyralisCore.Substrate

open Relational Transaction ReadCommitted Acts Tx
open Acts (Json Clock ConstraintViolation)

variable {α β : Type} {ok : SubstrateWrite → Prop} {rules : SubstrateRules} {clock : Clock}
  {candidate : SubstrateCandidate}

def Writes (ok : SubstrateWrite → Prop) (body : SubstrateTx α) : Prop :=
  body.EachStatement fun _ _ writes => ∀ write ∈ writes, ok write

namespace Writes

theorem done : Writes ok (.done v) := trivial

theorem bind (h1 : Writes ok first) (ht : ∀ v, Writes ok (rest v)) : Writes ok (first.bind rest) :=
  Tx.EachStatement.bind h1 ht

theorem read : Writes ok (read answer) :=
  Tx.EachStatement.read fun _ _ hm => absurd hm List.not_mem_nil

theorem require {failure : SubstrateDb → Option SubstrateError} : Writes ok (require failure) :=
  Tx.EachStatement.require fun _ _ hm => absurd hm List.not_mem_nil

theorem newId : Writes ok newId := fun _ => trivial

theorem ofExcept : Writes ok (ofExcept computed) :=
  Tx.EachStatement.ofExcept

theorem orRaise : Writes ok (orRaise found error) :=
  Tx.EachStatement.orRaise

theorem ensure : Writes ok (ensure condition error) :=
  Tx.EachStatement.ensure

theorem forEach {items : List β}
    (hb : ∀ item ∈ items, Writes ok (body item)) : Writes ok (forEach items body) := by
  induction items with
  | nil => exact done
  | cons item rest ih =>
    refine (hb item (.head _)).bind fun _ => ih fun other ho => ?_
    exact hb other (.tail _ ho)

theorem forSome (hb : ∀ item, Writes ok (body item)) : Writes ok (forSome v body) := by
  cases v with
  | none => exact done
  | some item => exact hb item

theorem foundOr (hc : Writes ok create) : Writes ok (foundOr found create) := by
  cases found with
  | none => exact hc
  | some id => exact done

variable {write : SubstrateWrite} {db : SubstrateDb} {supply left : Nat}

theorem constrained (hw : ok write) : Writes ok (constrained lock constraints write) := by
  refine Tx.EachStatement.query (fun db ws v ha => ?_) fun db _ _ _ hm =>
    absurd hm List.not_mem_nil
  split at ha
  · cases ha
  · cases ha
    exact List.forall_mem_singleton.mpr hw

theorem execute (hw : ok write) : Writes ok (execute write) :=
  constrained hw

theorem onActs (hb : body.EachStatement fun _ _ ws => ∀ write ∈ ws, ok (.act write)) :
    Writes ok (onActs body) := by
  induction body with
  | done v => trivial
  | raise error => trivial
  | statement lock ws next ih =>
    intro s
    obtain ⟨hw, hn⟩ := hb s.acts
    exact ⟨List.forall_mem_map.mpr hw, ih _ hn⟩
  | mint next ih => exact fun id => ih id (hb id)

theorem of_returns {P : SubstrateDb → Prop} {v : α} (hb : Writes ok body)
    (hs : ∀ db write, P db → ok write → P (db.apply rules write)) (hs0 : P db)
    (hr : Tx.Returns (SubstrateDb.apply rules) body db supply v after left) : P after := by
  refine Tx.EachStatement.of_returns hb ?_ hs0 hr
  intro s lock ws hst ho
  induction ws generalizing s with
  | nil => exact hst
  | cons write rest ih =>
    obtain ⟨hw, ht⟩ := List.forall_mem_cons.mp ho
    exact ih _ (hs _ _ hst hw) ht

end Writes

/-- A body that returns leaves a state with the property, if it found one. -/
def Stays (rules : SubstrateRules) (P : SubstrateDb → Prop) (body : SubstrateTx α) : Prop :=
  ∀ db supply value after left, P db →
    Tx.Returns (SubstrateDb.apply rules) body db supply value after left → P after

section

variable {P : SubstrateDb → Prop}

theorem Writes.stays {body : SubstrateTx α} (hb : Writes ok body)
    (hs : ∀ db write, P db → ok write → P (db.apply rules write)) : Stays rules P body :=
  fun _ _ _ _ _ hs0 hr => hb.of_returns hs hs0 hr

theorem Stays.of_reads (hb : Writes (fun _ => False) body) : Stays rules P body :=
  hb.stays fun _ _ _ hf => hf.elim

theorem Stays.done : Stays rules P (.done v) := .of_reads .done

theorem Stays.ofExcept : Stays rules P (ofExcept computed) :=
  .of_reads .ofExcept

theorem Stays.orRaise : Stays rules P (orRaise found error) :=
  .of_reads .orRaise

theorem Stays.ensure : Stays rules P (ensure condition error) :=
  .of_reads .ensure

theorem Stays.read : Stays rules P (read answer) :=
  .of_reads .read

theorem Stays.bind (h1 : Stays rules P first) (ht : ∀ v, Stays rules P (rest v)) :
    Stays rules P (first.bind rest) := by
  intro db supply r t left hs hrt
  obtain ⟨v, m, k, hd, hr⟩ := hrt.parts
  exact ht v _ _ _ _ _ (h1 _ _ _ _ _ hs hd) hr

end

/-- From a state with `P` a body that returns goes to one with `Q`. -/
def Leads (rules : SubstrateRules) (P : SubstrateDb → Prop) (body : SubstrateTx α)
    (Q : α → SubstrateDb → Prop) : Prop :=
  ∀ db supply value after left, P db →
    Tx.Returns (SubstrateDb.apply rules) body db supply value after left → Q value after

section

variable {P R : SubstrateDb → Prop} {Q : α → SubstrateDb → Prop}

theorem Stays.leads (hs : Stays rules P body) : Leads rules P body fun _ => P :=
  hs

theorem Leads.done (hd : ∀ db, P db → Q v db) : Leads rules P (.done v) Q := by
  intro db supply r t left hs hr
  obtain ⟨rfl, rfl, -⟩ := hr.ended
  exact hd db hs

theorem Leads.raise : Leads rules P (.raise error) Q :=
  fun _ _ _ _ _ _ hr => absurd hr returns_raise

theorem Leads.bind (h1 : Leads rules P first Q)
    (ht : ∀ v, Leads rules (Q v) (rest v) S) : Leads rules P (first.bind rest) S := by
  intro db supply r t left hs hrt
  obtain ⟨v, m, k, hd, hr⟩ := hrt.parts
  exact ht v _ _ _ _ _ (h1 _ _ _ _ _ hs hd) hr

theorem Leads.after (h1 : Stays rules P first) (ht : ∀ v, Leads rules P (rest v) Q) :
    Leads rules P (first.bind rest) Q :=
  Leads.bind h1.leads ht

theorem Leads.and (h1 : Leads rules P body Q)
    (h2 : Leads rules P body T) : Leads rules P body fun v db => Q v db ∧ T v db :=
  fun _ _ _ _ _ hs hr =>
    ⟨h1 _ _ _ _ _ hs hr, h2 _ _ _ _ _ hs hr⟩

theorem Leads.ensured (ht : condition = true → Leads rules P (rest ()) Q) :
    Leads rules P ((ensure condition error).bind rest) Q := by
  cases condition with
  | true => exact ht rfl
  | false => exact Leads.raise

end

theorem returns_constrained :
    Tx.Returns (SubstrateDb.apply rules) (constrained lock constraints write) db supply r t left ↔
      (∀ constraint ∈ constraints db, constraint.1) ∧ t = db.apply rules write ∧ supply = left := by
  unfold constrained
  rw [returns_query, ← find?_fails_eq_none]
  cases (constraints db).find? fun constraint => !constraint.1 <;> simp

/-! ### The scopes, the aliases and the links -/

structure AllowsScope (ok : SubstrateWrite → Prop) (clock : Clock) (candidate : SubstrateCandidate)
    (modelId : Nat) : Prop where
  model : ∀ scopeActors scopeEntities,
    ok (.setModelScopes candidate.tenantId modelId scopeActors scopeEntities)
  actor : ∀ actorId, ok (.upsertScopeActor modelId actorId (scopeRow clock candidate))
  entity : ∀ entityType entityId,
    ok (.upsertScopeEntity modelId entityType entityId (scopeRow clock candidate))

theorem backfillModel_writes {modelId : Nat} (hs : AllowsScope ok clock candidate modelId)
    (canonicalRefs : List Fields) (actorId : Option Nat) (row : Models.ModelRow) :
    Writes ok (backfillModel rules clock candidate canonicalRefs actorId modelId row) := by
  refine (Writes.execute (hs.model _ _)).bind fun _ => ?_
  refine (Writes.forSome fun id => Writes.constrained (hs.actor id)).bind fun _ => ?_
  exact Writes.forEach fun entity _ => Writes.constrained (hs.entity entity.1 entity.2)

section

variable (hs : ∀ modelId, AllowsScope ok clock candidate modelId)

include hs

theorem backfill_writes (canonicalRefs : List Fields) (actorId : Option Nat) : Writes ok
    (backfillPromotedCandidateScopes rules clock candidate canonicalRefs actorId) := by
  unfold backfillPromotedCandidateScopes
  dsimp only
  split
  · exact Writes.done
  · refine Writes.read.bind fun rows => Writes.bind (Writes.forEach fun e _ => ?_) fun _ =>
      Writes.done
    exact backfillModel_writes (hs e.1) _ _ _

theorem backfillRef_writes (canonicalRef : Option Fields) : Writes ok
    (backfillCanonicalRefForCandidate rules clock candidate canonicalRef) := by
  unfold backfillCanonicalRefForCandidate
  split
  · exact Writes.done
  · split
    · exact backfill_writes hs _ _
    · split
      · exact backfill_writes hs _ _
      · exact Writes.done

end

theorem insertEntityAlias_writes
    (hal : ∀ id, ok (.insertEntityAlias id row)) : Writes ok (insertEntityAlias rules row) := by
  refine Writes.newId.bind fun id => ?_
  refine Tx.EachStatement.query (fun db ws v ha => ?_) fun db _ _ _ hm =>
    absurd hm List.not_mem_nil
  split at ha
  · cases ha
    exact fun _ hm => absurd hm List.not_mem_nil
  · split at ha
    · cases ha
      exact List.forall_mem_singleton.mpr (hal id)
    · cases ha

theorem insertEntityAliases_writes
    (ha : ∀ id row, row.tenantId = candidate.tenantId → ok (.insertEntityAlias id row))
    (canonicalRef : Fields) (mappings : List AliasMapping) (sourceEventId : Nat) :
    Writes ok (insertEntityAliases rules candidate canonicalRef mappings sourceEventId) :=
  Writes.forEach fun _ _ => insertEntityAlias_writes fun id => ha id _ rfl

variable {tenantId resourceId commitmentId causeEventId : Nat}

theorem linkResourceError_eq_none : linkResourceError tenantId resourceId found = none ↔
      ∃ row, found = some row ∧ row.kind = .relational ∧ row.tenantId = tenantId := by
  cases found with
  | none => simp [linkResourceError]
  | some row =>
    unfold linkResourceError
    dsimp only
    split
    · next hk => simp [hk]
    · next hk =>
      split
      · next ht => simp [ht]
      · next ht => simpa using ⟨not_not.mp hk, not_not.mp ht⟩

theorem linkCommitmentError_eq_none :
    linkCommitmentError tenantId commitmentId found = none ↔ found = some tenantId := by
  cases found with
  | none => simp [linkCommitmentError]
  | some other => simp [linkCommitmentError]

theorem returns_linkCommitment : Tx.Returns (SubstrateDb.apply rules)
        (linkCommitment tenantId resourceId commitmentId description) db supply r t left ↔
      (∃ row, db.resources.get resourceId = some row ∧ row.kind = .relational ∧
        row.tenantId = tenantId) ∧ db.acts.commitmentTenant commitmentId = some tenantId ∧
      t = db.apply rules (.upsertLink resourceId commitmentId
        { id := supply, tenantId, servedDescription := some description }) ∧ supply + 1 = left := by
  unfold linkCommitment
  simp only [bind_eq_bind, returns_bind, returns_require, returns_newId, execute,
    returns_constrained, linkResourceError_eq_none, linkCommitmentError_eq_none]
  constructor
  · rintro ⟨_, _, _, ⟨hr, rfl, rfl⟩, _, _, _, ⟨hc, rfl, rfl⟩, _, _, _, ⟨rfl, rfl, rfl⟩, -, ha, hl⟩
    exact ⟨hr, hc, ha, hl⟩
  · rintro ⟨hr, hc, ha, hl⟩
    refine ⟨(), db, supply, ⟨hr, rfl, rfl⟩, (), db, supply, ⟨hc, rfl, rfl⟩,
      supply, db, supply + 1, ⟨rfl, rfl, rfl⟩, ?_, ha, hl⟩
    intro constraint hm
    cases hm

theorem linkCommitment_writes
    (hl : ∀ row, row.tenantId = tenantId → ok (.upsertLink resourceId commitmentId row))
    (description : String) :
    Writes ok (linkCommitment tenantId resourceId commitmentId description) :=
  Writes.require.bind fun _ => Writes.require.bind fun _ => Writes.newId.bind fun _ =>
    Writes.execute (hl _ rfl)

theorem linkRelated_writes (hl : ∀ resourceId commitmentId row, row.tenantId = candidate.tenantId →
      ok (.upsertLink resourceId commitmentId row)) (canonicalRef : Option Fields) :
    Writes ok (linkRelatedCustomerCommitmentsForCandidate rules candidate canonicalRef) := by
  unfold linkRelatedCustomerCommitmentsForCandidate
  split
  · exact Writes.done
  · dsimp only
    split
    · exact Writes.done
    · refine Writes.read.bind fun rows => Writes.bind (Writes.forEach fun link _ => ?_) fun _ =>
        Writes.done
      exact linkCommitment_writes (hl _ _) _

theorem createResource_writes
    (hr : ∀ id, ok (.insertResource id (resource.row tenantId causeEventId)))
    (ho : ∀ id row, row.tenantId = tenantId → ok (.act (.insertObservation id row))) :
    Writes ok (createResource clock tenantId causeEventId resource) := by
  refine Writes.ensure.bind fun _ => Writes.newId.bind fun id => ?_
  refine (Writes.constrained (hr id)).bind fun _ => Writes.bind (Writes.onActs ?_) fun _ =>
    Writes.done
  refine Tx.EachStatement.newId.bind fun observationId => Tx.EachStatement.bind ?_ fun _ => trivial
  refine Tx.EachStatement.query (fun db ws v ha => ?_) fun db _ _ _ hm =>
    absurd hm List.not_mem_nil
  obtain ⟨-, hp⟩ := (constrained_eq_ok_iff _ _ _).mp ha
  cases hp
  exact List.forall_mem_singleton.mpr (ho _ _ rfl)

theorem prepared_commitmentArgs
    (hp : prepareCommitmentCreateInput now (commitmentArgs rules candidate causeEventId)
      = .ok input) : input.contributors = [] ∧ input.contributesToGoalIds = [] ∧
      input.dependsOnCommitmentIds = [] ∧ input.constrainedByDecisionIds = [] ∧
      input.tenantId = candidate.tenantId ∧
      input.estimatedCapacity = some (.object (commitmentCapacity candidate)) := by
  simp only [prepareCommitmentCreateInput, bind_eq_ok_iff, refuseUnless_eq_ok_iff] at hp
  obtain ⟨_, _, _, _, _, _, _, _, _, _, _, _, hi⟩ := hp
  cases hi
  exact ⟨rfl, rfl, rfl, rfl, rfl, rfl⟩

theorem actsCreate_eachStatement (hr : Acts.AllowsReads okAct)
    (hc : ∀ db id (row : Acts.CommitmentRow), row.tenantId = candidate.tenantId →
      row.estimatedCapacity = some (.object (commitmentCapacity candidate)) →
      okAct db none [.insertCommitment id row])
    (ho : ∀ db id (row : Acts.ObservationRow), row.tenantId = candidate.tenantId →
      okAct db none [.insertObservation id row]) : (Acts.createCommitment clock
      (commitmentArgs rules candidate causeEventId)).EachStatement okAct := by
  unfold Acts.createCommitment
  cases hp : prepareCommitmentCreateInput clock.processNow
      (commitmentArgs rules candidate causeEventId) with
  | error error => trivial
  | ok input =>
    obtain ⟨hcb, hg, hdp, hd, ht, hcp⟩ := prepared_commitmentArgs hp
    change (createCommitmentInner clock input).EachStatement okAct
    unfold createCommitmentInner
    simp only [hcb, hg, hdp, hd]
    refine (validateReferences_eachStatement hr input).bind fun _ =>
      Tx.EachStatement.newId.bind fun id => ?_
    refine (resolveEffectiveInitialState_eachStatement hr input).bind fun s => ?_
    refine (constrained_eachStatement hr fun db =>
      hc db id _ ht hcp).bind fun _ => ?_
    refine Tx.EachStatement.done.bind fun _ => Tx.EachStatement.done.bind fun _ =>
      Tx.EachStatement.done.bind fun _ => Tx.EachStatement.done.bind fun _ => ?_
    refine Tx.EachStatement.bind ?_ fun _ => Tx.EachStatement.bind (.read hr.plain) fun _ =>
      Tx.EachStatement.orRaise.bind fun _ => trivial
    exact Tx.EachStatement.newId.bind fun _ =>
      (constrained_eachStatement hr fun db => ho db _ _ ht).bind fun _ => trivial

theorem createCommitment_writes
    (hc : ∀ id (row : Acts.CommitmentRow), row.tenantId = candidate.tenantId →
      row.estimatedCapacity = some (.object (commitmentCapacity candidate)) →
      ok (.act (.insertCommitment id row)))
    (ho : ∀ id (row : Acts.ObservationRow), row.tenantId = candidate.tenantId →
      ok (.act (.insertObservation id row))) :
    Writes ok (createCommitment rules clock candidate causeEventId) := by
  refine Writes.bind (Writes.onActs (actsCreate_eachStatement ⟨?_, ?_, ?_⟩ ?_ ?_)) fun _ =>
    Writes.done
  · exact fun _ _ hm => absurd hm List.not_mem_nil
  · exact fun _ _ _ hm => absurd hm List.not_mem_nil
  · exact fun _ _ _ hm => absurd hm List.not_mem_nil
  · exact fun _ id row ht hcp =>
      List.forall_mem_singleton.mpr (hc id row ht hcp)
  · exact fun _ id row ht => List.forall_mem_singleton.mpr (ho id row ht)

theorem createPattern_writes (hp : ∀ id row, row.tenantId = candidate.tenantId →
      row.proposedSignature = patternSignature candidate → ok (.insertPattern id row)) :
    Writes ok (createPattern rules candidate constituentIds) :=
  Writes.newId.bind fun _ => (Writes.constrained (hp _ _ rfl rfl)).bind fun _ => Writes.done

theorem enqueuePatternReview_writes
    (ht : ∀ id row, row.tenantId = candidate.tenantId → ok (.insertTrigger id row)) :
    Writes ok (enqueuePatternReview candidate patternId) :=
  Writes.newId.bind fun _ => Writes.constrained (ht _ _ rfl)

structure AllowsCall (ok : SubstrateWrite → Prop) (clock : Clock) (candidate : SubstrateCandidate) :
    Prop where
  promote : ∀ resolution, resolution.status = .promoted →
    ok (.resolveCandidate candidate.tenantId candidate.id resolution)
  scope : ∀ modelId, AllowsScope ok clock candidate modelId
  actor : ∀ id row text, row.tenantId = candidate.tenantId → ok (.insertActor id row text)
  identity : ∀ key excluded, ok (.upsertIdentity key excluded)
  resource : ∀ id row, row.tenantId = candidate.tenantId → ok (.insertResource id row)
  entityAlias : ∀ id row, row.tenantId = candidate.tenantId → ok (.insertEntityAlias id row)
  pattern : ∀ id row, row.tenantId = candidate.tenantId → ok (.insertPattern id row)
  trigger : ∀ id row, row.tenantId = candidate.tenantId → ok (.insertTrigger id row)
  link : ∀ resourceId commitmentId row, row.tenantId = candidate.tenantId →
    ok (.upsertLink resourceId commitmentId row)
  commitment : ∀ id (row : Acts.CommitmentRow), row.tenantId = candidate.tenantId →
    ok (.act (.insertCommitment id row))
  observation : ∀ id (row : Acts.ObservationRow), row.tenantId = candidate.tenantId →
    ok (.act (.insertObservation id row))

structure AllowsAnswer (ok : SubstrateWrite → Prop) (clock : Clock)
    (candidate : SubstrateCandidate) : Prop extends AllowsCall ok clock candidate where
  settle : ∀ resolution, resolution.status ≠ .proposed →
    ok (.resolveCandidate candidate.tenantId candidate.id resolution)

section

variable (hallows : AllowsCall ok clock candidate)

include hallows

theorem mark_writes (canonicalRef metadataPatch : Fields) :
    Writes ok (markCandidateResolution candidate (promotedTo canonicalRef metadataPatch)) :=
  Writes.constrained (hallows.promote _ rfl)

theorem promoteActor_writes (plan : Option CandidatePromotionPlan) :
    Writes ok (promoteActorCandidate rules clock candidate plan) := by
  refine Writes.bind ?_ fun plan => Writes.orRaise.bind fun actor => Writes.newId.bind
    fun actorId => (Writes.constrained (hallows.actor _ _ _ rfl)).bind fun _ => Writes.bind ?_
    fun _ => (mark_writes hallows _ _).bind fun _ => (backfill_writes hallows.scope _ _).bind
    fun _ => Writes.done
  · cases plan with
    | none => exact Writes.ofExcept
    | some plan => exact Writes.done
  · exact Writes.forEach fun _ _ => Writes.constrained (hallows.identity _ _)

theorem promoteResource_writes (plan : Option CandidatePromotionPlan) :
    Writes ok (promoteResourceCandidate rules clock candidate plan) := by
  refine Writes.bind ?_ fun plan => Writes.orRaise.bind fun resource => Writes.ofExcept.bind
    fun causeEventId => Writes.read.bind fun existing => Writes.bind ?_ fun resourceId =>
    Writes.bind ?_ fun _ => (mark_writes hallows _ _).bind fun _ =>
    (backfill_writes hallows.scope _ _).bind fun _ =>
    (linkRelated_writes hallows.link _).bind fun _ => Writes.done
  · cases plan with
    | none => exact Writes.ofExcept
    | some plan => exact Writes.done
  · exact Writes.foundOr (createResource_writes (fun id => hallows.resource id _ rfl)
      hallows.observation)
  · exact insertEntityAliases_writes hallows.entityAlias _ _ _

theorem promoteCommitment_writes (confidenceFloor : ℚ) :
    Writes ok (promoteCommitmentCandidate rules clock candidate confidenceFloor) := by
  refine Writes.ensure.bind fun _ => Writes.ensure.bind fun _ => Writes.ofExcept.bind
    fun causeEventId => Writes.read.bind fun existing => Writes.bind ?_ fun commitmentId =>
    (mark_writes hallows _ _).bind fun _ => (backfill_writes hallows.scope _ _).bind fun _ =>
    (linkRelated_writes hallows.link _).bind fun _ => Writes.done
  exact Writes.foundOr (createCommitment_writes (fun id row ht _ =>
    hallows.commitment id row ht) hallows.observation)

theorem promotePattern_writes (requireConstituents : Bool) (minConstituents : Nat) : Writes ok
      (promotePatternSubstrateCandidate rules candidate requireConstituents minConstituents) := by
  refine Writes.ensure.bind fun _ => Writes.read.bind fun constituentIds => ?_
  split
  · split
    · trivial
    · exact Writes.done
  · refine Writes.read.bind fun existing => Writes.bind ?_ fun patternId =>
      (mark_writes hallows _ _).bind fun _ =>
      (enqueuePatternReview_writes hallows.trigger).bind fun _ => Writes.done
    exact Writes.foundOr (createPattern_writes fun id row ht _ =>
      hallows.pattern id row ht)

theorem autoPromote_writes (confidenceFloor commitmentConfidenceFloor : ℚ) : Writes ok
      (autoPromoteCandidate rules clock candidate confidenceFloor commitmentConfidenceFloor) := by
  unfold autoPromoteCandidate
  split
  · exact Writes.done
  · refine Writes.ofExcept.bind fun plan => ?_
    split
    · exact (promoteActor_writes hallows _).bind fun _ => Writes.done
    · exact (promoteResource_writes hallows _).bind fun _ => Writes.done
    · exact (promoteCommitment_writes hallows _).bind fun _ => Writes.done
    · exact promotePattern_writes hallows _ _
    · exact Writes.done

end

section

variable (hallows : AllowsAnswer ok clock candidate)

include hallows

theorem settle_writes (hs : resolution.status ≠ .proposed) :
    Writes ok (markCandidateResolution candidate resolution) :=
  Writes.constrained (hallows.settle resolution hs)

section

variable (answer : Fields) (plan : CandidatePromotionPlan)

theorem markAnswered_writes (canonicalRef : Fields) : Writes ok
    (markAnswered rules candidate answer plan canonicalRef) :=
  (settle_writes hallows (by rintro ⟨⟩)).bind fun _ => Writes.done

theorem applyMerge_writes : Writes ok (applyMerge rules clock candidate answer plan) :=
  Writes.ofExcept.bind fun _ => Writes.ensure.bind fun _ =>
    (settle_writes hallows (by rintro ⟨⟩)).bind fun _ =>
    (backfillRef_writes hallows.scope _).bind fun _ => Writes.done

theorem applyLinkExisting_writes : Writes ok
    (applyLinkExisting rules clock candidate answer plan) :=
  Writes.ensure.bind fun _ => (settle_writes hallows (by rintro ⟨⟩)).bind fun _ =>
    (backfillRef_writes hallows.scope _).bind fun _ =>
    (linkRelated_writes hallows.link _).bind fun _ => Writes.done

theorem applyPlan_writes : Writes ok (applyPlan rules clock candidate answer plan) := by
  unfold applyPlan
  split
  · exact (settle_writes hallows (by rintro ⟨⟩)).bind fun _ => Writes.done
  · exact applyMerge_writes hallows _ _
  · exact (promoteActor_writes hallows.toAllowsCall _).bind fun _ =>
      markAnswered_writes hallows _ _ _
  · exact (promoteResource_writes hallows.toAllowsCall _).bind fun _ =>
      markAnswered_writes hallows _ _ _
  · exact (promoteCommitment_writes hallows.toAllowsCall _).bind fun _ =>
      markAnswered_writes hallows _ _ _
  · exact (promotePattern_writes hallows.toAllowsCall _ _).bind fun _ => Writes.orRaise.bind fun _ =>
      markAnswered_writes hallows _ _ _
  · exact applyLinkExisting_writes hallows _ _
  · exact (settle_writes hallows (by rintro ⟨⟩)).bind fun _ => Writes.done
  · exact Writes.done
  · exact Writes.done

end

theorem applyAnswer_writes (answer : Fields) :
    Writes ok (applyCandidateResolutionAnswer rules clock candidate answer) :=
  Writes.ofExcept.bind fun _ => applyPlan_writes hallows _ _

end

end FyralisCore.Substrate
