import FyralisCore.Lib.Raises
import FyralisCore.Substrate.Statements

/-! Whose rows a promotion changes. Every statement is bound to the tenant of the
candidate but one: the upsert into `actor_identity_mappings` resolves its conflicts
without a tenant. -/
namespace FyralisCore.Substrate

open Relational Transaction ReadCommitted Table Tx Stays SubstrateDb
open Acts (Json Clock)

inductive StoredRow where
  | candidate (id : Nat) (row : CandidateRow)
  | actor (id : Nat) (row : Acts.ActorRow)
  | actorText (id : Nat) (text : ActorText)
  | identity (key : IdentityKey) (row : IdentityRow)
  | resource (id : Nat) (row : ResourceRow)
  | entityAlias (id : Nat) (row : EntityAliasRow)
  | pattern (id : Nat) (row : PatternRow)
  | model (id : Nat) (row : Models.ModelRow)
  | scopeActor (key : Nat × Nat) (row : Models.ScopeRow)
  | scopeEntity (key : Nat × String × Nat) (row : Models.ScopeRow)
  | customerCommitment (key : Nat × Nat) (row : CustomerCommitmentRow)
  | trigger (id : Nat) (row : TriggerRow)
  | commitment (id : Nat) (row : Acts.CommitmentRow)
  | observation (id : Nat) (row : Acts.ObservationRow)

def SubstrateDb.Holds (db : SubstrateDb) : StoredRow → Prop
  | .candidate id row => db.candidates.get id = some row
  | .actor id row => db.acts.actors.get id = some row
  | .actorText id text => db.actorTexts.get id = some text
  | .identity key row => db.identityMappings.get key = some row
  | .resource id row => db.resources.get id = some row
  | .entityAlias id row => db.entityAliases.get id = some row
  | .pattern id row => db.patternCandidates.get id = some row
  | .model id row => db.models.get id = some row
  | .scopeActor key row => db.scopeActors.get key = some row
  | .scopeEntity key row => db.scopeEntities.get key = some row
  | .customerCommitment key row => db.customerCommitments.get key = some row
  | .trigger id row => db.triggerQueue.get id = some row
  | .commitment id row => db.acts.commitments.get id = some row
  | .observation id row => db.acts.observations.get id = some row

def SubstrateDb.IsActorOf (db : SubstrateDb) (tenantId actorId : Nat) : Prop :=
  ∃ actor, db.acts.actors.get actorId = some actor ∧ actor.tenantId = tenantId

/-- A row is its tenant's. One that depends on another row belongs to the tenant that
both of them name: the actor of an identity, the model of a scope (which has no foreign
key and may be gone) and the resource of a customer's commitment. -/
def SubstrateDb.BelongsTo (db : SubstrateDb) (tenantId : Nat) : StoredRow → Prop
  | .candidate _ row => row.tenantId = tenantId
  | .actor _ row => row.tenantId = tenantId
  | .actorText id _ => db.IsActorOf tenantId id
  | .identity _ row => db.IsActorOf tenantId row.actorId
  | .resource _ row => row.tenantId = tenantId
  | .entityAlias _ row => row.tenantId = tenantId
  | .pattern _ row => row.tenantId = tenantId
  | .model _ row => row.tenantId = tenantId
  | .scopeActor key row =>
    row.tenantId = tenantId ∧ ∀ model, db.models.get key.1 = some model → model.tenantId = tenantId
  | .scopeEntity key row =>
    row.tenantId = tenantId ∧ ∀ model, db.models.get key.1 = some model → model.tenantId = tenantId
  | .customerCommitment key row =>
    row.tenantId = tenantId ∧
      ∃ resource, db.resources.get key.1 = some resource ∧ resource.tenantId = tenantId
  | .trigger _ row => row.tenantId = tenantId
  | .commitment _ row => row.tenantId = tenantId
  | .observation _ row => row.tenantId = tenantId

def SubstrateDb.otherTables (db : SubstrateDb) : Acts.Db :=
  { db.acts with actors := ∅, commitments := ∅, observations := ∅ }

/-- No row of another tenant is changed, and none is added. -/
structure KeepsOthers (tenantId : Nat) (db after : SubstrateDb) : Prop where
  kept : ∀ other row, other ≠ tenantId → db.Holds row → db.BelongsTo other row → after.Holds row
  added : ∀ other row, other ≠ tenantId → after.Holds row → after.BelongsTo other row →
    db.Holds row
  otherTables : after.otherTables = db.otherTables

theorem KeepsOthers.refl : KeepsOthers tenantId db db where
  kept _ _ _ hh _ := hh
  added _ _ _ hh _ := hh
  otherTables := rfl

/-- What has changed since `db` is the tenant's, but for the identities among `keys`,
which may have gone to `actorId`. -/
structure Local (tenantId : Nat) (keys : List IdentityKey) (actorId : Nat)
    (db after : SubstrateDb) : Prop where
  candidates : db.candidates.SameWhere (fun _ row => row.tenantId ≠ tenantId) after.candidates
  actors : db.acts.actors.SameWhere (fun _ row => row.tenantId ≠ tenantId) after.acts.actors
  actorTexts : ∀ id text, db.actorTexts.get id = some text → after.actorTexts.get id = some text
  newTexts : ∀ id, (after.actorTexts.get id).isSome → (db.actorTexts.get id).isSome ∨
    after.IsActorOf tenantId id
  identities : ∀ key, after.identityMappings.get key = db.identityMappings.get key ∨
    key ∈ keys ∧ ∃ row, after.identityMappings.get key = some row ∧ row.actorId = actorId
  resources : db.resources.SameWhere (fun _ row => row.tenantId ≠ tenantId) after.resources
  entityAliases :
    db.entityAliases.SameWhere (fun _ row => row.tenantId ≠ tenantId) after.entityAliases
  patternCandidates :
    db.patternCandidates.SameWhere (fun _ row => row.tenantId ≠ tenantId) after.patternCandidates
  models : db.models.SameWhere (fun _ row => row.tenantId ≠ tenantId) after.models
  modelTenants : ∀ id, (after.models.get id).map (·.tenantId) = (db.models.get id).map (·.tenantId)
  scopeActors : db.scopeActors.SameWhere
    (fun key row => row.tenantId ≠ tenantId ∧
      ∀ model, db.models.get key.1 = some model → model.tenantId ≠ tenantId) after.scopeActors
  scopeEntities : db.scopeEntities.SameWhere
    (fun key row => row.tenantId ≠ tenantId ∧
      ∀ model, db.models.get key.1 = some model → model.tenantId ≠ tenantId) after.scopeEntities
  customerCommitments : db.customerCommitments.SameWhere
    (fun key row => row.tenantId ≠ tenantId ∧
      ∃ resource, db.resources.get key.1 = some resource ∧ resource.tenantId ≠ tenantId)
    after.customerCommitments
  triggerQueue :
    db.triggerQueue.SameWhere (fun _ row => row.tenantId ≠ tenantId) after.triggerQueue
  commitments :
    db.acts.commitments.SameWhere (fun _ row => row.tenantId ≠ tenantId) after.acts.commitments
  observations :
    db.acts.observations.SameWhere (fun _ row => row.tenantId ≠ tenantId) after.acts.observations
  otherTables : after.otherTables = db.otherTables

/-- The writes that stay within the tenant, of a transaction that began on `db`. -/
def AllowedFor (tenantId : Nat) (keys : List IdentityKey) (actorId : Nat) (db : SubstrateDb) :
    SubstrateWrite → Prop
  | .act (.insertCommitment _ row) => row.tenantId = tenantId
  | .act (.insertObservation _ row) => row.tenantId = tenantId
  | .act _ => False
  | .upsertCandidate _ _ => False
  | .resolveCandidate other _ _ => other = tenantId
  | .insertActor id row _ => row.tenantId = tenantId ∧ db.acts.actors.get id = none
  | .upsertIdentity key excluded => key ∈ keys ∧ excluded.actorId = actorId
  | .insertResource _ row => row.tenantId = tenantId
  | .insertEntityAlias _ row => row.tenantId = tenantId
  | .insertPattern _ row => row.tenantId = tenantId
  | .setModelScopes other _ _ _ => other = tenantId
  | .upsertScopeActor modelId _ row =>
    row.tenantId = tenantId ∧
      ∃ model, db.models.get modelId = some model ∧ model.tenantId = tenantId
  | .upsertScopeEntity modelId _ _ row =>
    row.tenantId = tenantId ∧
      ∃ model, db.models.get modelId = some model ∧ model.tenantId = tenantId
  | .upsertLink resourceId _ row =>
    row.tenantId = tenantId ∧
      ∀ resource, db.resources.get resourceId = some resource → resource.tenantId = tenantId
  | .insertTrigger _ row => row.tenantId = tenantId

section Local

variable {rules : SubstrateRules} {tenantId actorId : Nat} {keys : List IdentityKey}
  {db after : SubstrateDb}

theorem Local.refl : Local tenantId keys actorId db db where
  candidates := .refl
  actors := .refl
  actorTexts _ _ htx := htx
  newTexts _ htx := .inl htx
  identities _ := .inl rfl
  resources := .refl
  entityAliases := .refl
  patternCandidates := .refl
  models := .refl
  modelTenants _ := rfl
  scopeActors := .refl
  scopeEntities := .refl
  customerCommitments := .refl
  triggerQueue := .refl
  commitments := .refl
  observations := .refl
  otherTables := rfl

private theorem own_row (hr : rowTenant = tenantId) : ¬ rowTenant ≠ tenantId := fun hn => hn hr

private theorem foreign_row (hr : rowTenant = other)
    (hn : other ≠ tenantId) : rowTenant ≠ tenantId := fun ho => hn (hr.symm.trans ho)

theorem SubstrateDb.IsActorOf.insertNew {id : Nat}
    (ha : ∃ actor, db.acts.actors.get id = some actor ∧ actor.tenantId = tenantId) :
    ∃ actor, (db.acts.actors.insertNew other row).get id = some actor ∧
      actor.tenantId = tenantId := by
  obtain ⟨actor, hg, ht⟩ := ha
  refine ⟨actor, ?_, ht⟩
  rw [get_insertNew, if_neg, hg]
  rintro ⟨rfl, hn⟩
  rw [hg] at hn
  cases hn

theorem sameWhere_upserted [DecidableEq K] {table : Table K V}
    (ho : ∀ row, table.get key = some row → ¬ theirs key row ∧ ¬ theirs key (merge row))
    (hnw : ¬ theirs key excluded) :
    table.SameWhere theirs (upserted table key excluded merge) := by
  unfold upserted
  split
  · next row hr =>
    apply sameWhere_put _ (ho row hr).2
    intro existing hex
    exact (ho existing hex).1
  · next hn =>
    apply sameWhere_put _ hnw
    intro existing hex
    rw [hn] at hex
    cases hex

section

variable (hl : Local tenantId keys actorId db after)

include hl

private theorem local_insertActor {id : Nat} {row : Acts.ActorRow} {text : ActorText}
    (hr : row.tenantId = tenantId) (hfr : db.acts.actors.get id = none) :
    Local tenantId keys actorId db (after.apply rules (.insertActor id row text)) :=
  { hl with
    actors := hl.actors.trans (sameWhere_insertNew (own_row hr))
    actorTexts := by
      intro other found hf
      have hk := hl.actorTexts other found hf
      simp only [apply]
      rw [get_insertNew, if_neg, hk]
      rintro ⟨rfl, hn⟩
      rw [hk] at hn
      cases hn
    newTexts := by
      intro other hsm
      simp only [apply, get_insertNew] at hsm
      by_cases hs : other = id
      · subst hs
        right
        cases ha : after.acts.actors.get other with
        | none =>
          refine ⟨row, ?_, hr⟩
          simp only [apply]
          rw [get_insertNew, if_pos ⟨rfl, ha⟩]
        | some actor =>
          apply SubstrateDb.IsActorOf.insertNew
          refine ⟨actor, ha, ?_⟩
          by_contra hfo
          rw [hl.actors other actor hfo, hfr] at ha
          cases ha
      · rw [if_neg fun hb => hs hb.1] at hsm
        rcases hl.newTexts other hsm with ho | ha
        · exact .inl ho
        · exact .inr (SubstrateDb.IsActorOf.insertNew ha)
    otherTables := hl.otherTables }

private theorem local_upsertIdentity (hk : key ∈ keys) (ha : excluded.actorId = actorId) :
    Local tenantId keys actorId db (after.apply rules (.upsertIdentity key excluded)) :=
  { hl with
    identities := by
      intro other
      simp only [apply, upserted]
      by_cases hs : other = key
      · subst hs
        right
        refine ⟨hk, ?_⟩
        cases after.identityMappings.get other with
        | none => exact ⟨_, get_put_self _ _ _, ha⟩
        | some row => exact ⟨_, get_put_self _ _ _, ha⟩
      · cases after.identityMappings.get key with
        | none => simpa only [get_put_ne _ _ hs] using hl.identities other
        | some row => simpa only [get_put_ne _ _ hs] using hl.identities other }

private theorem local_setModelScopes (id : Nat) (scopeActors : List Nat)
    (scopeEntities : List Json) : Local tenantId keys actorId db
    (after.apply rules (.setModelScopes tenantId id scopeActors scopeEntities)) :=
  { hl with
    models := by
      refine hl.models.trans (sameWhere_updateWhere fun key row hc => ?_)
      obtain ⟨-, hr⟩ := of_decide_eq_true hc
      exact ⟨own_row hr, own_row hr⟩
    modelTenants := by
      intro other
      simp only [apply, get_updateWhere, Option.map_map]
      rw [← hl.modelTenants other]
      congr 1
      funext row
      simp only [Function.comp_apply, Table.changed]
      split <;> rfl }

theorem Local.write {w : SubstrateWrite} (ha : AllowedFor tenantId keys actorId db w) :
    Local tenantId keys actorId db (after.apply rules w) := by
  cases w with
  | act w =>
    cases w with
    | insertCommitment id row =>
      exact { hl with
        commitments := hl.commitments.trans (sameWhere_insertNew (own_row ha))
        otherTables := hl.otherTables }
    | insertObservation id row =>
      exact { hl with
        observations := hl.observations.trans (sameWhere_insertNew (own_row ha))
        otherTables := hl.otherTables }
    | _ => exact ha.elim
  | upsertCandidate id excluded => exact ha.elim
  | resolveCandidate other id resolution =>
    refine { hl with
      candidates := hl.candidates.trans (sameWhere_updateWhere ?_) }
    intro key row hc
    obtain ⟨-, hr⟩ := of_decide_eq_true hc
    exact ⟨own_row (hr.trans ha), own_row (hr.trans ha)⟩
  | insertActor id row text => exact local_insertActor hl ha.1 ha.2
  | upsertIdentity key excluded => exact local_upsertIdentity hl ha.1 ha.2
  | insertResource id row =>
    exact { hl with
      resources := hl.resources.trans (sameWhere_insertNew (own_row ha)) }
  | insertEntityAlias id row =>
    exact { hl with
      entityAliases := hl.entityAliases.trans (sameWhere_insertNew (own_row ha)) }
  | insertPattern id row =>
    exact { hl with
      patternCandidates := hl.patternCandidates.trans (sameWhere_insertNew (own_row ha)) }
  | setModelScopes other id scopeActors scopeEntities =>
    obtain rfl : other = tenantId := ha
    exact local_setModelScopes hl id scopeActors scopeEntities
  | upsertScopeActor modelId actor excluded =>
    obtain ⟨hr, model, hm, ho⟩ := ha
    refine { hl with
      scopeActors := hl.scopeActors.trans (sameWhere_upserted ?_ ?_) }
    · exact fun row _ => ⟨fun hf => hf.2 model hm ho, fun hf => hf.2 model hm ho⟩
    · exact fun hf => hf.1 hr
  | upsertScopeEntity modelId entityType entityId excluded =>
    obtain ⟨hr, model, hm, ho⟩ := ha
    refine { hl with
      scopeEntities := hl.scopeEntities.trans (sameWhere_upserted ?_ ?_) }
    · exact fun row _ => ⟨fun hf => hf.2 model hm ho, fun hf => hf.2 model hm ho⟩
    · exact fun hf => hf.1 hr
  | upsertLink resourceId commitmentId excluded =>
    obtain ⟨hr, ho⟩ := ha
    refine { hl with
      customerCommitments := hl.customerCommitments.trans (sameWhere_upserted ?_ ?_) }
    · rintro row -
      constructor
      · rintro ⟨-, resource, hg, hf⟩
        exact hf (ho resource hg)
      · rintro ⟨-, resource, hg, hf⟩
        exact hf (ho resource hg)
    · exact fun hf => hf.1 hr
  | insertTrigger id row =>
    exact { hl with
      triggerQueue := hl.triggerQueue.trans (sameWhere_insertNew (own_row ha)) }

end

variable {α : Type} {clock : Clock} {candidate : SubstrateCandidate}

theorem Writes.local (hb : Writes (AllowedFor tenantId keys actorId db) body) :
    Stays rules (Local tenantId keys actorId db) body :=
  hb.stays fun _ _ hl ha => hl.write ha

theorem Local.ownModel (hl : Local candidate.tenantId keys actorId db after)
    (hsc : (modelId, row) ∈ scopedModels candidate after) :
    ∃ model, db.models.get modelId = some model ∧ model.tenantId = candidate.tenantId := by
  obtain ⟨hm, hh⟩ := List.mem_filter.mp hsc
  have hg := (mem_rows_iff _ _ _).mp hm
  have ht := hl.modelTenants modelId
  rw [hg] at ht
  obtain ⟨model, hmd, hs⟩ := Option.map_eq_some_iff.mp ht.symm
  exact ⟨model, hmd, hs.trans (of_decide_eq_true hh).1⟩

theorem backfill_local (canonicalRefs : List Fields) (promoted : Option Nat) :
    Stays rules (Local candidate.tenantId keys actorId db)
      (backfillPromotedCandidateScopes rules clock candidate canonicalRefs promoted) := by
  intro start supply v last left hs hr
  unfold backfillPromotedCandidateScopes at hr
  dsimp only at hr
  split at hr
  · exact done _ _ _ _ _ hs hr
  · refine bind ?_ (fun _ => done) _ _ _ _ _ hs hr
    refine (Writes.forEach fun e he => ?_).local
    have hm := hs.ownModel he
    exact backfillModel_writes ⟨fun _ _ => rfl, fun _ => ⟨rfl, hm⟩, fun _ _ => ⟨rfl, hm⟩⟩
      _ _ _

theorem backfillRef_local (canonicalRef : Option Fields) :
    Stays rules (Local candidate.tenantId keys actorId db)
      (backfillCanonicalRefForCandidate rules clock candidate canonicalRef) := by
  unfold backfillCanonicalRefForCandidate
  split
  · exact done
  · split
    · exact backfill_local _ _
    · split
      · exact backfill_local _ _
      · exact done

theorem linkCommitment_local (resourceId commitmentId : Nat) (description : String) :
    Stays rules (Local tenantId keys actorId db)
      (linkCommitment tenantId resourceId commitmentId description) := by
  intro start supply v last left hs hrt
  obtain ⟨⟨row, hr, -, ho⟩, -, rfl, -⟩ := returns_linkCommitment.mp hrt
  refine hs.write ⟨rfl, fun resource hrs => ?_⟩
  by_contra hf
  rw [(hs.resources resourceId resource hf).mpr hrs] at hr
  cases hr
  exact hf ho

theorem linkRelated_local (canonicalRef : Option Fields) :
    Stays rules (Local candidate.tenantId keys actorId db)
      (linkRelatedCustomerCommitmentsForCandidate rules candidate canonicalRef) := by
  unfold linkRelatedCustomerCommitmentsForCandidate
  split
  · exact done
  · dsimp only
    split
    · exact done
    · refine read.bind fun rows => bind ?_ fun _ => done
      intro start supply v last left hs hr
      exact forEach_invariant
        (fun link _ _ _ _ hb hl => linkCommitment_local _ _ _ _ _ _ _ _ hb hl) hs hr

theorem mark_local (resolution : Resolution) :
    Stays rules (Local candidate.tenantId keys actorId db)
      (markCandidateResolution candidate resolution) := by
  apply Writes.local
  exact Writes.constrained rfl

theorem promoteResource_local (plan : Option CandidatePromotionPlan) :
    Stays rules (Local candidate.tenantId keys actorId db)
      (promoteResourceCandidate rules clock candidate plan) := by
  refine bind ?_ fun plan => orRaise.bind fun resource => ofExcept.bind
    fun causeEventId => read.bind fun existing => bind ?_ fun resourceId =>
    bind ?_ fun _ => (mark_local _).bind fun _ => (backfill_local _ _).bind fun _ =>
    (linkRelated_local _).bind fun _ => done
  · cases plan with
    | none => exact ofExcept
    | some plan => exact done
  · exact (Writes.foundOr (createResource_writes (fun _ => rfl) fun _ _ hr => hr)).local
  · exact (insertEntityAliases_writes (fun _ _ hr => hr) _ _ _).local

theorem promoteCommitment_local (confidenceFloor : ℚ) :
    Stays rules (Local candidate.tenantId keys actorId db)
      (promoteCommitmentCandidate rules clock candidate confidenceFloor) := by
  refine ensure.bind fun _ => ensure.bind fun _ => ofExcept.bind
    fun causeEventId => read.bind fun existing => bind ?_ fun commitmentId =>
    (mark_local _).bind fun _ => (backfill_local _ _).bind fun _ =>
    (linkRelated_local _).bind fun _ => done
  exact (Writes.foundOr (createCommitment_writes (fun _ _ hr _ => hr) fun _ _ hr => hr)).local

theorem promotePattern_local (requireConstituents : Bool) (minConstituents : Nat) :
    Stays rules (Local candidate.tenantId keys actorId db)
      (promotePatternSubstrateCandidate rules candidate requireConstituents minConstituents) := by
  refine ensure.bind fun _ => read.bind fun constituentIds => ?_
  split
  · split
    · exact fun _ _ _ _ _ _ hrt => absurd hrt returns_raise
    · exact done
  · refine read.bind fun existing => bind ?_ fun patternId =>
      (mark_local _).bind fun _ => bind ?_ fun _ => done
    · exact (Writes.foundOr (createPattern_writes fun _ _ hr _ => hr)).local
    · exact (enqueuePatternReview_writes fun _ _ hr => hr).local

section

variable (answer : Fields) (plan : CandidatePromotionPlan)

theorem applyMerge_local : Stays rules (Local candidate.tenantId keys actorId db)
    (applyMerge rules clock candidate answer plan) :=
  ofExcept.bind fun _ => ensure.bind fun _ => (mark_local _).bind fun _ =>
    (backfillRef_local _).bind fun _ => done

theorem applyLinkExisting_local : Stays rules (Local candidate.tenantId keys actorId db)
    (applyLinkExisting rules clock candidate answer plan) :=
  ensure.bind fun _ => (mark_local _).bind fun _ => (backfillRef_local _).bind fun _ =>
    (linkRelated_local _).bind fun _ => done

theorem markAnswered_local (canonicalRef : Fields) : Stays rules
    (Local candidate.tenantId keys actorId db)
    (markAnswered rules candidate answer plan canonicalRef) :=
  (mark_local _).bind fun _ => done

end

end Local

def ForeignIdentity (tenantId : Nat) (db : SubstrateDb) (key : IdentityKey) : Prop :=
  ∃ row other, db.Holds (.identity key row) ∧ db.BelongsTo other (.identity key row) ∧
    other ≠ tenantId

/-- The call has stayed within the tenant and has given each of `keys` to an actor of it
that was not there before. -/
structure Takes (tenantId : Nat) (keys : List IdentityKey) (actorId : Nat)
    (db after : SubstrateDb) : Prop where
  within : Local tenantId keys actorId db after
  taken : ∀ key ∈ keys, db.acts.actors.get actorId = none ∧ after.IsActorOf tenantId actorId ∧
    ∃ row, after.identityMappings.get key = some row ∧ row.actorId = actorId

section

variable {rules : SubstrateRules} {clock : Clock} {candidate : SubstrateCandidate}
  {tenantId actorId : Nat} {keys : List IdentityKey} {db after : SubstrateDb}

theorem Local.takes (hl : Local tenantId [] actorId db after) :
    Takes tenantId [] actorId db after where
  within := hl
  taken _ hk := absurd hk List.not_mem_nil

variable {id other : Nat}

theorem SubstrateDb.IsActorOf.unique (h1 : db.IsActorOf first id)
    (h2 : db.IsActorOf second id) : first = second := by
  obtain ⟨actor, ha, hw⟩ := h1
  obtain ⟨other, ho, hf⟩ := h2
  rw [ha] at ho
  cases ho
  exact hw.symm.trans hf

private theorem takes_kept (ht : Takes tenantId keys actorId db after)
    (hf : ∀ key ∈ keys, ¬ ForeignIdentity tenantId db key)
    (hn : other ≠ tenantId) (hh : db.Holds row) (hb : db.BelongsTo other row) :
    after.Holds row := by
  have hl := ht.within
  cases row with
  | candidate id row => exact (hl.candidates id row (foreign_row hb hn)).mpr hh
  | actor id row => exact (hl.actors id row (foreign_row hb hn)).mpr hh
  | actorText id text => exact hl.actorTexts id text hh
  | identity key row =>
    rcases hl.identities key with hs | ⟨hk, -⟩
    · exact hs.trans hh
    · exact absurd ⟨row, other, hh, hb, hn⟩ (hf key hk)
  | resource id row => exact (hl.resources id row (foreign_row hb hn)).mpr hh
  | entityAlias id row => exact (hl.entityAliases id row (foreign_row hb hn)).mpr hh
  | pattern id row => exact (hl.patternCandidates id row (foreign_row hb hn)).mpr hh
  | model id row => exact (hl.models id row (foreign_row hb hn)).mpr hh
  | scopeActor key row =>
    obtain ⟨rfl, hm⟩ := hb
    exact (hl.scopeActors key row ⟨hn, fun model hg => (hm model hg).symm ▸ hn⟩).mpr hh
  | scopeEntity key row =>
    obtain ⟨rfl, hm⟩ := hb
    exact (hl.scopeEntities key row ⟨hn, fun model hg => (hm model hg).symm ▸ hn⟩).mpr hh
  | customerCommitment key row =>
    obtain ⟨rfl, resource, hg, hs⟩ := hb
    exact (hl.customerCommitments key row ⟨hn, resource, hg, hs.symm ▸ hn⟩).mpr hh
  | trigger id row => exact (hl.triggerQueue id row (foreign_row hb hn)).mpr hh
  | commitment id row => exact (hl.commitments id row (foreign_row hb hn)).mpr hh
  | observation id row => exact (hl.observations id row (foreign_row hb hn)).mpr hh

private theorem foreign_model (hl : Local tenantId keys actorId db after) (hn : other ≠ tenantId)
    (hm : ∀ model, after.models.get id = some model → model.tenantId = other) :
    ∀ model, db.models.get id = some model → model.tenantId ≠ tenantId := by
  intro model hg
  have ht := hl.modelTenants id
  rw [hg] at ht
  obtain ⟨found, hf, hs⟩ := Option.map_eq_some_iff.mp ht
  exact foreign_row (hs.symm.trans (hm found hf)) hn

private theorem takes_added (ht : Takes tenantId keys actorId db after)
    (hn : other ≠ tenantId) (hh : after.Holds row)
    (hbl : after.BelongsTo other row) : db.Holds row := by
  have hl := ht.within
  cases row with
  | candidate id row => exact (hl.candidates id row (foreign_row hbl hn)).mp hh
  | actor id row => exact (hl.actors id row (foreign_row hbl hn)).mp hh
  | actorText id text =>
    have ha : after.actorTexts.get id = some text := hh
    rcases hl.newTexts id (by rw [ha]; rfl) with ho | hw
    · obtain ⟨before, hb⟩ := Option.isSome_iff_exists.mp ho
      have hs := hl.actorTexts id before hb
      rw [ha] at hs
      cases hs
      exact hb
    · exact absurd (SubstrateDb.IsActorOf.unique hbl hw) hn
  | identity key row =>
    have hmp : after.identityMappings.get key = some row := hh
    rcases hl.identities key with hs | ⟨hk, -⟩
    · exact hs.symm.trans hh
    · obtain ⟨-, hw, found, hf, rfl⟩ := ht.taken key hk
      rw [hmp] at hf
      cases hf
      exact absurd (SubstrateDb.IsActorOf.unique hbl hw) hn
  | resource id row => exact (hl.resources id row (foreign_row hbl hn)).mp hh
  | entityAlias id row => exact (hl.entityAliases id row (foreign_row hbl hn)).mp hh
  | pattern id row => exact (hl.patternCandidates id row (foreign_row hbl hn)).mp hh
  | model id row => exact (hl.models id row (foreign_row hbl hn)).mp hh
  | scopeActor key row =>
    obtain ⟨rfl, hm⟩ := hbl
    exact (hl.scopeActors key row ⟨hn, foreign_model hl hn hm⟩).mp hh
  | scopeEntity key row =>
    obtain ⟨rfl, hm⟩ := hbl
    exact (hl.scopeEntities key row ⟨hn, foreign_model hl hn hm⟩).mp hh
  | customerCommitment key row =>
    obtain ⟨rfl, resource, hg, hs⟩ := hbl
    have hfr : resource.tenantId ≠ tenantId := hs ▸ hn
    have hb := (hl.resources key.1 resource hfr).mp hg
    exact (hl.customerCommitments key row ⟨hn, resource, hb, hfr⟩).mp hh
  | trigger id row => exact (hl.triggerQueue id row (foreign_row hbl hn)).mp hh
  | commitment id row => exact (hl.commitments id row (foreign_row hbl hn)).mp hh
  | observation id row => exact (hl.observations id row (foreign_row hbl hn)).mp hh

theorem Takes.keepsOthers_iff (ht : Takes tenantId keys actorId db after) :
    KeepsOthers tenantId db after ↔ ∀ key ∈ keys, ¬ ForeignIdentity tenantId db key := by
  constructor
  · rintro hkp key hky ⟨row, other, hh, hb, hne⟩
    obtain ⟨hn, -, found, hf, ha⟩ := ht.taken key hky
    have hk : after.identityMappings.get key = some row :=
      hkp.kept other (.identity key row) hne hh hb
    rw [hf] at hk
    cases hk
    obtain ⟨actor, hg, -⟩ := hb
    rw [ha, hn] at hg
    cases hg
  · intro hfr
    exact {
      kept := fun _ _ hne hh hb => takes_kept ht hfr hne hh hb
      added := fun _ _ hne hh hb => takes_added ht hne hh hb
      otherTables := ht.within.otherTables }

end

inductive PromotionCall where
  | promoteActor (candidate : SubstrateCandidate) (plan : Option CandidatePromotionPlan)
  | promoteResource (candidate : SubstrateCandidate) (plan : Option CandidatePromotionPlan)
  | promoteCommitment (candidate : SubstrateCandidate) (confidenceFloor : ℚ)
  | applyAnswer (candidate : SubstrateCandidate) (answer : Fields)

def PromotionCall.candidate : PromotionCall → SubstrateCandidate
  | .promoteActor candidate _ | .promoteResource candidate _ | .promoteCommitment candidate _
  | .applyAnswer candidate _ => candidate

def promotionProgram (rules : SubstrateRules) (clock : Clock) : PromotionCall → SubstrateTx Unit
  | .promoteActor candidate plan =>
    (promoteActorCandidate rules clock candidate plan).bind fun _ => .done ()
  | .promoteResource candidate plan =>
    (promoteResourceCandidate rules clock candidate plan).bind fun _ => .done ()
  | .promoteCommitment candidate confidenceFloor =>
    (promoteCommitmentCandidate rules clock candidate confidenceFloor).bind fun _ => .done ()
  | .applyAnswer candidate answer =>
    (applyCandidateResolutionAnswer rules clock candidate answer).bind fun _ => .done ()

def CandidatePromotionPlan.identities (plan : CandidatePromotionPlan) : List IdentityKey :=
  if plan.action = .promoteActor then
    (plan.aliasMappings.filterMap AliasMapping.identity).map Prod.fst
  else []

def PromotionCall.identities (rules : SubstrateRules) : PromotionCall → List IdentityKey
  | .promoteActor _ (some plan) => plan.identities
  | .promoteActor candidate none =>
    match planCandidatePromotion rules candidate none with
    | .ok plan => plan.identities
    | .error _ => []
  | .promoteResource _ _ | .promoteCommitment _ _ => []
  | .applyAnswer candidate answer =>
    match planCandidatePromotion rules candidate (some answer) with
    | .ok plan => plan.identities
    | .error _ => []

section Calls

variable {rules : SubstrateRules} {clock : Clock} {candidate : SubstrateCandidate}
  {tenantId actorId : Nat} {db after : SubstrateDb} {supply left : Nat}

def GoneTo (tenantId actorId : Nat) (key : IdentityKey) (db : SubstrateDb) : Prop :=
  db.IsActorOf tenantId actorId ∧
    ∃ row, db.identityMappings.get key = some row ∧ row.actorId = actorId

def LeavesIdentities : SubstrateWrite → Prop
  | .upsertIdentity _ _ => False
  | _ => True

theorem SubstrateDb.IsActorOf.write (ha : db.IsActorOf tenantId actorId)
    (w : SubstrateWrite) : (db.apply rules w).IsActorOf tenantId actorId := by
  cases w with
  | act w => cases w <;> exact ha
  | insertActor id row text => exact SubstrateDb.IsActorOf.insertNew ha
  | upsertCandidate id excluded =>
    simp only [apply]
    split <;> exact ha
  | _ => exact ha

theorem identityMappings_apply (hl : LeavesIdentities w) :
    (db.apply rules w).identityMappings = db.identityMappings := by
  cases w with
  | upsertCandidate id excluded =>
    simp only [apply]
    split <;> rfl
  | upsertIdentity key excluded => exact hl.elim
  | _ => rfl

variable {key : IdentityKey} {r : Unit} {plan : CandidatePromotionPlan}

theorem goneTo_stays
    (hb : Writes LeavesIdentities body) : Stays rules (GoneTo tenantId actorId key) body := by
  refine hb.stays fun s w hg hl => ⟨hg.1.write w, ?_⟩
  rw [identityMappings_apply hl]
  exact hg.2

theorem goneTo_upsertIdentity (ha : db.IsActorOf tenantId actorId)
    (hg : other = key ∨ GoneTo tenantId actorId other db)
    (hrt : Tx.Returns (apply rules) (upsertIdentity actorId key confidence) db
      supply () after left) : GoneTo tenantId actorId other after := by
  obtain ⟨-, rfl, -⟩ := returns_constrained.mp hrt
  refine ⟨ha.write _, ?_⟩
  simp only [apply, upserted]
  by_cases hs : other = key
  · subst hs
    cases db.identityMappings.get other with
    | none => exact ⟨_, get_put_self _ _ _, rfl⟩
    | some row => exact ⟨_, get_put_self _ _ _, rfl⟩
  · obtain ⟨-, row, hr⟩ := hg.resolve_left hs
    cases db.identityMappings.get key with
    | none => exact ⟨row, by rwa [get_put_ne _ _ hs]⟩
    | some found => exact ⟨row, by rwa [get_put_ne _ _ hs]⟩

theorem insertActor_local
    (hr : Tx.Returns (apply rules) (insertActor actorId tenantId actor) db supply r after left) :
    db.acts.actors.get actorId = none ∧ Local tenantId keys actorId db after ∧
      after.IsActorOf tenantId actorId := by
  obtain ⟨hc, rfl, -⟩ := returns_constrained.mp hr
  have hf : db.acts.actors.get actorId = none := Option.isNone_iff_eq_none.mp (hc _ (.head _))
  refine ⟨hf, Local.refl.write ⟨rfl, hf⟩, { tenantId }, ?_, rfl⟩
  simp only [apply]
  rw [get_insertNew, if_pos ⟨rfl, hf⟩]

theorem upsertIdentities_goneTo
    (hk : key ∈ identities.map Prod.fst) (ha : db.IsActorOf tenantId actorId)
    (hr : Tx.Returns (apply rules)
      (Tx.forEach identities fun (key, confidence) => upsertIdentity actorId key confidence) db
      supply r after left) : GoneTo tenantId actorId key after := by
  induction identities generalizing db supply with
  | nil => cases hk
  | cons identity rest ih =>
    obtain ⟨m, k, h1, ht⟩ := returns_forEach_cons.mp hr
    by_cases hl : key ∈ rest.map Prod.fst
    · obtain ⟨-, rfl, -⟩ := returns_constrained.mp h1
      exact ih hl (ha.write _) ht
    · have hs : key = identity.1 := (List.mem_cons.mp hk).resolve_right hl
      refine forEach_invariant (P := GoneTo tenantId actorId key)
        (fun other s _ _ _ hg hu => ?_) ?_ ht
      · exact goneTo_upsertIdentity hg.1 (.inr hg) hu
      · exact goneTo_upsertIdentity ha (.inl hs) h1

theorem returns_givenPlan {plan : Option CandidatePromotionPlan}
    {planned : CandidatePromotionPlan} :
    Tx.Returns (apply rules) (givenPlan rules candidate plan) db supply planned after left ↔
      plan.elim (planCandidatePromotion rules candidate none) .ok = .ok planned ∧ db = after ∧
        supply = left := by
  cases plan with
  | none => exact returns_ofExcept
  | some given => simp [givenPlan]

theorem promoteActor_takes {plan : Option CandidatePromotionPlan} {r : PromotionResult}
    (hr : Tx.Returns (apply rules)
      (promoteActorCandidate rules clock candidate plan) db supply r after left) :
    ∃ planned, plan.elim (planCandidatePromotion rules candidate none) .ok = .ok planned ∧
      Takes candidate.tenantId planned.identities supply db after := by
  obtain ⟨planned, _, _, hgv, hpl⟩ := hr.parts
  obtain ⟨hp, rfl, rfl⟩ := returns_givenPlan.mp hgv
  obtain ⟨actor, _, _, hf, hpy⟩ := hpl.parts
  obtain ⟨hf, rfl, rfl⟩ := returns_orRaise.mp hf
  have hac : planned.action = .promoteActor := by
    by_contra ho
    rw [if_neg ho] at hf
    cases hf
  have hky : planned.identities =
      (planned.aliasMappings.filterMap AliasMapping.identity).map Prod.fst := if_pos hac
  obtain ⟨_, inserted, _, hi, ht⟩ := returns_bind.mp (returns_newId_bind.mp hpy)
  obtain ⟨hfr, hlc, ha⟩ := insertActor_local hi
  obtain ⟨_, mapped, _, hm, ht⟩ := ht.parts
  have hu : Writes (AllowedFor candidate.tenantId planned.identities supply db)
      (Tx.forEach (planned.aliasMappings.filterMap AliasMapping.identity) fun identity =>
        upsertIdentity supply identity.1 identity.2) := by
    refine Writes.forEach fun identity hid => Writes.constrained ⟨?_, rfl⟩
    rw [hky]
    exact List.mem_map_of_mem hid
  refine ⟨planned, hp, ?_, fun key hk => ?_⟩
  · refine bind (mark_local _) (fun _ => (backfill_local _ _).bind fun _ => done) _ _ _
      _ _ ?_ ht
    exact hu.local _ _ _ _ _ hlc hm
  · have hg := upsertIdentities_goneTo (hky ▸ hk) ha hm
    have hl : GoneTo candidate.tenantId supply key after := by
      refine bind (goneTo_stays ?_) (fun _ => (goneTo_stays ?_).bind fun _ => done)
        _ _ _ _ _ hg ht
      · apply Writes.constrained
        trivial
      · exact backfill_writes (fun _ => ⟨fun _ _ => trivial, fun _ => trivial, fun _ _ => trivial⟩)
          _ _
    exact ⟨hfr, hl⟩

theorem CandidatePromotionPlan.identities_of_ne
    (ha : plan.action ≠ .promoteActor) : plan.identities = [] := if_neg ha

theorem applyPlan_local (answer : Fields) (ho : plan.action ≠ .promoteActor) :
    Stays rules (Local candidate.tenantId keys actorId db)
      (applyPlan rules clock candidate answer plan) := by
  unfold applyPlan
  split
  · exact (mark_local _).bind fun _ => done
  · exact applyMerge_local _ _
  · next ha => exact absurd ha ho
  · exact (promoteResource_local _).bind fun _ => markAnswered_local _ _ _
  · exact (promoteCommitment_local _).bind fun _ => markAnswered_local _ _ _
  · exact (promotePattern_local _ _).bind fun _ => orRaise.bind fun _ =>
      markAnswered_local _ _ _
  · exact applyLinkExisting_local _ _
  · exact (mark_local _).bind fun _ => done
  · exact done
  · exact done

theorem applyPlan_takes (hr : Tx.Returns (apply rules) (applyPlan rules clock candidate answer plan)
      db supply v after left) : Takes candidate.tenantId plan.identities supply db after := by
  by_cases hp : plan.action = .promoteActor
  · simp only [applyPlan, hp] at hr
    obtain ⟨r, promoted, _, hpm, hm⟩ := hr.parts
    obtain ⟨planned, hpl, ht⟩ := promoteActor_takes hpm
    cases hpl
    refine ⟨markAnswered_local _ _ _ _ _ _ _ _ ht.within hm, fun key hk => ?_⟩
    obtain ⟨hf, hg⟩ := ht.taken key hk
    refine ⟨hf, (goneTo_stays ?_).bind (fun _ => done) _ _ _ _ _ hg hm⟩
    apply Writes.constrained
    trivial
  · rw [plan.identities_of_ne hp]
    exact (applyPlan_local answer hp _ _ _ _ _ Local.refl hr).takes

theorem promotion_takes (hr : Tx.Returns (apply rules) (promotionProgram rules clock call) db supply
      r after left) :
    Takes call.candidate.tenantId (call.identities rules) supply db after := by
  cases call with
  | promoteActor candidate plan =>
    obtain ⟨_, _, _, hpm, hd⟩ := hr.parts
    obtain ⟨-, rfl, -⟩ := hd.ended
    obtain ⟨planned, hpl, ht⟩ := promoteActor_takes hpm
    cases plan with
    | some given =>
      cases hpl
      exact ht
    | none =>
      have hp : planCandidatePromotion rules candidate none = .ok planned := hpl
      simpa only [PromotionCall.candidate, PromotionCall.identities, hp] using ht
  | promoteResource candidate plan =>
    obtain ⟨_, _, _, hpm, hd⟩ := hr.parts
    obtain ⟨-, rfl, -⟩ := hd.ended
    exact (promoteResource_local _ _ _ _ _ _ Local.refl hpm).takes
  | promoteCommitment candidate confidenceFloor =>
    obtain ⟨_, _, _, hpm, hd⟩ := hr.parts
    obtain ⟨-, rfl, -⟩ := hd.ended
    exact (promoteCommitment_local _ _ _ _ _ _ Local.refl hpm).takes
  | applyAnswer candidate answer =>
    obtain ⟨_, _, _, ha, hd⟩ := hr.parts
    obtain ⟨-, rfl, -⟩ := hd.ended
    obtain ⟨plan, _, _, hpl, hap⟩ := ha.parts
    obtain ⟨hp, rfl, rfl⟩ := returns_ofExcept.mp hpl
    simpa only [PromotionCall.candidate, PromotionCall.identities, hp] using applyPlan_takes hap

/-- For a candidate of one tenant, no row of another is touched, unless the call gives an
identity of another tenant's actor to the actor it creates. A call that raises is rolled
back. -/
theorem promotion_isolated_iff (rules : SubstrateRules) (clock : Clock) (call : PromotionCall)
    (db : Database SubstrateDb) : KeepsOthers call.candidate.tenantId db.state
        (db.run (apply rules) (promotionProgram rules clock call)).state ↔
      Database.Refuses (apply rules) (promotionProgram rules clock call) db ∨
        ∀ key ∈ call.identities rules, ¬ ForeignIdentity call.candidate.tenantId db.state key := by
  rw [Database.refuses_iff]
  by_cases hreturns : ∃ value after left, Tx.Returns (apply rules)
      (promotionProgram rules clock call) db.state db.supply value after left
  · obtain ⟨value, after, left, hreturns⟩ := hreturns
    rw [Database.run_of_returns hreturns, (promotion_takes hreturns).keepsOthers_iff]
    exact ⟨.inr, fun hor => hor.resolve_left fun hnot => hnot ⟨value, after, left, hreturns⟩⟩
  · constructor
    · exact fun _ => .inl hreturns
    · intro _
      rcases Database.run_cases (promotionProgram rules clock call) db with ⟨value, hdone⟩ | hsame
      · exact absurd ⟨value, _, _, hdone⟩ hreturns
      · rw [hsame]
        exact .refl

end Calls

def sharedIdentityRow : CandidateRow where
  tenantId := 2
  kind := .actor
  label := "Mara"
  confidence := 9 / 10
  fingerprint := "mara"
  aliases := [[("source_channel", .string "slack"), ("source_actor_ref", .string "U1")]]

def sharedIdentityCandidate : SubstrateCandidate := { sharedIdentityRow with id := 20 }

def sharedIdentity : Database SubstrateDb where
  state :=
    { acts :=
        { tenants := [1, 2]
          actors := (∅ : Table Nat Acts.ActorRow).put 10 { tenantId := 1 } }
      identityMappings := (∅ : Table IdentityKey IdentityRow).put
        { sourceChannel := "slack", sourceActorRef := "U1" } { actorId := 10 }
      candidates := (∅ : Table Nat CandidateRow).put 20 sharedIdentityRow }
  supply := 100

/-- The promotion of tenant 2 gives the identity of tenant 1's actor away. -/
theorem identity_taken_over : ¬ KeepsOthers 2 sharedIdentity.state
      (sharedIdentity.run (apply plainRules)
        (promotionProgram plainRules { processNow := 0, transactionNow := 0 }
          (.promoteActor sharedIdentityCandidate none))).state := by
  intro hkeeps
  have hkept := hkeeps.kept 1
    (.identity { sourceChannel := "slack", sourceActorRef := "U1" } { actorId := 10 }) (by decide)
    rfl ⟨{ tenantId := 1 }, rfl, rfl⟩
  change _ = _ at hkept
  revert hkept
  decide +kernel

end FyralisCore.Substrate
