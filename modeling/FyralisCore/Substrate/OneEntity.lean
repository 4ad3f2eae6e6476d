import FyralisCore.Lib.Quota
import FyralisCore.Substrate.Statements

/-! The canonical rows that are made of one candidate by discoveries, promotions and answers
in any interleaving. Three of the four promotions look for the row they made before; the
promotion of an actor does not, and none looks for a row of another kind or one that is not
yet committed. -/
namespace FyralisCore.Substrate

open Relational Transaction ReadCommitted List Option Table Transition Writes SubstrateDb CommitLog
open Acts (Json Clock strip)

variable {rules : SubstrateRules} {clock : Clock} {candidate : SubstrateCandidate}
  {candidateId : Nat} {db : SubstrateDb}

section

variable (candidateId : Nat)

def isActorOf (text : ActorText) : Bool :=
  markedBy "promoted_from_candidate_id" candidateId text.metadata

def isResourceOf (row : ResourceRow) : Bool :=
  row.metadata.any (markedBy "promoted_from_candidate_id" candidateId)

def isPatternOf (row : PatternRow) : Bool :=
  markedBy "substrate_candidate_id" candidateId row.proposedSignature

/-- How many actors, resources, commitments and pattern candidates have been made of the
candidate. -/
def SubstrateDb.created (db : SubstrateDb) : Nat :=
  db.actorTexts.count (fun _ text => isActorOf candidateId text) +
    db.resources.count (fun _ row => isResourceOf candidateId row) +
    db.acts.commitments.count (fun _ row => isCommitmentOf candidateId row) +
    db.patternCandidates.count (fun _ row => isPatternOf candidateId row)

def marks : SubstrateWrite → Bool
  | .insertActor _ _ text => isActorOf candidateId text
  | .insertResource _ row => isResourceOf candidateId row
  | .insertPattern _ row => isPatternOf candidateId row
  | .act (.insertCommitment _ row) => isCommitmentOf candidateId row
  | _ => false

def markCost (write : SubstrateWrite) : Nat :=
  if marks candidateId write then 1 else 0

end

/-- The writes of promotions and answers, the candidate being set to a status with `ok`. -/
def Settles (ok : SubstrateStatus → Prop) : SubstrateWrite → Prop
  | .act (.insertCommitment _ _) | .act (.insertObservation _ _) => True
  | .act _ | .upsertCandidate _ _ => False
  | .resolveCandidate _ _ resolution => ok resolution.status
  | _ => True

def CallWrites (rules : SubstrateRules) : SubstrateCall → SubstrateWrite → Prop
  | .upsert args, write => ∃ id kind status, kind.text = args.kind ∧ status.text = args.status ∧
      write = .upsertCandidate id (args.row rules kind status)
  | .autoPromote _ _ _ _ _, write => Settles (· = .promoted) write
  | .answer _ _ _ _, write => Settles (· ≠ .proposed) write

variable {write : SubstrateWrite} {call : SubstrateCall} {row : CandidateRow}

theorem Settles.mono (hs : Settles ok write) (hw : ∀ status, ok status → weaker status) :
    Settles weaker write := by
  cases write with
  | act write => cases write <;> exact hs
  | resolveCandidate tenantId id resolution => exact hw _ hs
  | _ => exact hs

theorem allowsCall_settles (hp : ok .promoted) : AllowsCall (Settles ok) clock candidate where
  promote resolution hs := by
    change ok resolution.status
    rwa [hs]
  scope _ := ⟨fun _ _ => trivial, fun _ => trivial, fun _ _ => trivial⟩
  actor _ _ _ _ := trivial
  identity _ _ := trivial
  resource _ _ _ := trivial
  entityAlias _ _ _ := trivial
  pattern _ _ _ := trivial
  trigger _ _ _ := trivial
  link _ _ _ _ := trivial
  commitment _ _ _ := trivial
  observation _ _ _ := trivial

theorem allowsAnswer_settles : AllowsAnswer (Settles (· ≠ .proposed)) clock candidate where
  toAllowsCall := allowsCall_settles (by decide)
  settle _ hst := hst

theorem CallWrites.cases (hw : CallWrites rules call write) :
    (∃ id excluded, write = .upsertCandidate id excluded) ∨ Settles (· ≠ .proposed) write := by
  cases call with
  | upsert args =>
    obtain ⟨id, kind, status, -, -, rfl⟩ := hw
    exact .inl ⟨id, _, rfl⟩
  | autoPromote clock tenantId id confidenceFloor commitmentConfidenceFloor =>
    have hp : Settles (· = .promoted) write := hw
    refine .inr (hp.mono ?_)
    rintro status rfl
    decide
  | answer clock tenantId id answer => exact .inr hw

theorem created_apply (hw : CallWrites rules call write) :
    (db.apply rules write).created candidateId ≤
      db.created candidateId + markCost candidateId write := by
  rcases hw.cases with ⟨id, excluded, rfl⟩ | hs
  · simp only [apply]
    split <;> exact Nat.le_add_right _ _
  · cases write with
    | act write =>
      cases write with
      | insertCommitment id row =>
        have hc : (db.acts.commitments.insertNew id row).count
              (fun _ row => isCommitmentOf candidateId row) ≤
            db.acts.commitments.count (fun _ row => isCommitmentOf candidateId row) +
              markCost candidateId (.act (.insertCommitment id row)) :=
          count_insertNew_le _ _ _ _
        simp only [created, apply, Acts.Db.apply]
        omega
      | insertObservation id row => exact Nat.le_add_right _ _
      | _ => exact hs.elim
    | upsertCandidate id excluded => exact hs.elim
    | insertActor id row text =>
      have hc : (db.actorTexts.insertNew id text).count (fun _ text => isActorOf candidateId text) ≤
          db.actorTexts.count (fun _ text => isActorOf candidateId text) +
            markCost candidateId (.insertActor id row text) := count_insertNew_le _ _ _ _
      simp only [created, apply]
      omega
    | insertResource id row =>
      have hc : (db.resources.insertNew id row).count (fun _ row => isResourceOf candidateId row) ≤
          db.resources.count (fun _ row => isResourceOf candidateId row) +
            markCost candidateId (.insertResource id row) := count_insertNew_le _ _ _ _
      simp only [created, apply]
      omega
    | insertPattern id row =>
      have hc : (db.patternCandidates.insertNew id row).count
            (fun _ row => isPatternOf candidateId row) ≤
          db.patternCandidates.count (fun _ row => isPatternOf candidateId row) +
            markCost candidateId (.insertPattern id row) := count_insertNew_le _ _ _ _
      simp only [created, apply]
      omega
    | _ => exact Nat.le_add_right _ _

def findsMade (candidate : SubstrateCandidate) (db : SubstrateDb) : PlanAction → Bool
  | .promoteActor => false
  | .promoteResource => (existingResource candidate db).isSome
  | .promoteCommitment => (existingCommitment candidate db).isSome
  | .promotePatternCandidate => (existingPattern candidate db).isSome
  | _ => true

theorem isSome_existingResource_iff :
    (existingResource candidate db).isSome ↔ ∃ id row, db.resources.get id = some row ∧
      row.tenantId = candidate.tenantId ∧ row.archivedAt = none ∧
        isResourceOf candidate.id row := by
  unfold existingResource
  rw [isSome_find_rows_iff]
  simp only [decide_eq_true_eq]
  rfl

theorem isSome_existingCommitment_iff : (existingCommitment candidate db).isSome ↔
      ∃ id row, db.acts.commitments.get id = some row ∧ row.tenantId = candidate.tenantId ∧
        isCommitmentOf candidate.id row := by
  unfold existingCommitment
  rw [isSome_find_rows_iff]
  simp [decide_eq_true_eq]

theorem isSome_existingPattern_iff : (existingPattern candidate db).isSome ↔
      ∃ id row, db.patternCandidates.get id = some row ∧ row.tenantId = candidate.tenantId ∧
        isPatternOf candidate.id row := by
  unfold existingPattern
  rw [isSome_find_rows_iff]
  simp only [decide_eq_true_eq]
  rfl

theorem findsMade_congr (ht : other.tenantId = candidate.tenantId)
    (hi : other.id = candidate.id) (action : PlanAction) :
    findsMade other db action = findsMade candidate db action := by
  cases action with
  | promoteResource => simp [findsMade, existingResource, ht, hi]
  | promoteCommitment => simp [findsMade, existingCommitment, ht, hi]
  | promotePatternCandidate => simp [findsMade, existingPattern, ht, hi]
  | _ => rfl

theorem exists_get_insertNew [DecidableEq K] {table : Table K V} {P : V → Prop}
    {key : K} {row : V} (hf : ∃ id found, table.get id = some found ∧ P found) :
    ∃ id found, (table.insertNew key row).get id = some found ∧ P found := by
  obtain ⟨id, found, hg, hh⟩ := hf
  refine ⟨id, found, ?_, hh⟩
  rw [get_insertNew, if_neg, hg]
  rintro ⟨rfl, hn⟩
  rw [hn] at hg
  cases hg

theorem findsMade_apply {action : PlanAction} (hw : CallWrites rules call write)
    (hf : findsMade candidate db action) :
    findsMade candidate (db.apply rules write) action := by
  have hk : (∃ id excluded, write = .upsertCandidate id excluded) ∨
      Settles (· ≠ .proposed) write := hw.cases
  cases action with
  | promoteResource =>
    simp only [findsMade, isSome_existingResource_iff] at hf ⊢
    rcases hk with ⟨id, excluded, rfl⟩ | hs
    · simp only [apply]
      split <;> exact hf
    · cases write with
      | upsertCandidate id excluded => exact hs.elim
      | insertResource id row => exact exists_get_insertNew hf
      | _ => exact hf
  | promoteCommitment =>
    simp only [findsMade, isSome_existingCommitment_iff] at hf ⊢
    rcases hk with ⟨id, excluded, rfl⟩ | hs
    · simp only [apply]
      split <;> exact hf
    · cases write with
      | act write =>
        cases write with
        | insertCommitment id row => exact exists_get_insertNew hf
        | insertObservation id row => exact hf
        | _ => exact hs.elim
      | upsertCandidate id excluded => exact hs.elim
      | _ => exact hf
  | promotePatternCandidate =>
    simp only [findsMade, isSome_existingPattern_iff] at hf ⊢
    rcases hk with ⟨id, excluded, rfl⟩ | hs
    · simp only [apply]
      split <;> exact hf
    · cases write with
      | upsertCandidate id excluded => exact hs.elim
      | insertPattern id row => exact exists_get_insertNew hf
      | _ => exact hf
  | _ => exact hf

/-! ### What becomes of the candidate's own row -/

/-- A write of a call leaves the candidate its tenant and its kind, and proposes it no more
than it was. -/
theorem row_apply (hw : CallWrites rules call write) (hr : db.candidates.get own = some row) :
    ∃ u, (db.apply rules write).candidates.get own = some u ∧
      u.tenantId = row.tenantId ∧ u.kind = row.kind ∧
        (row.status ≠ .proposed → u.status ≠ .proposed) := by
  rcases hw.cases with ⟨newId, excluded, rfl⟩ | hs
  · obtain ⟨u, hl, rfl | ⟨-, rfl⟩⟩ := get_upsertCandidate rules newId excluded hr
    · exact ⟨u, hl, rfl, rfl, id⟩
    · refine ⟨_, hl, rfl, rfl, fun hst => ?_⟩
      simp only [CandidateRow.mergedWith, SubstrateStatus.mergedWith]
      split
      · exact hst
      · split
        · assumption
        · exact hst
  · cases write with
    | upsertCandidate newId excluded => exact hs.elim
    | resolveCandidate tenantId target resolution =>
      rw [get_resolveCandidate, hr]
      refine ⟨_, rfl, ?_⟩
      dsimp only
      split
      · exact ⟨rfl, rfl, fun _ => hs⟩
      · exact ⟨rfl, rfl, id⟩
    | _ => exact ⟨row, hr, rfl, rfl, id⟩

section Spends

variable {α : Type} {K : SubstrateDb → Prop} {budget : Nat}

theorem markedBy_eq_true_iff {key : String} {id : Nat}
    (hname : metadata.lookup key = some (idText other)) :
    markedBy key id metadata ↔ other = id := by
  simp only [markedBy, hname, idText, beq_iff_eq]
  constructor
  · intro ht
    have hn := numberOfText_toString other
    rw [ht, numberOfText_toString] at hn
    exact (Option.some.inj hn).symm
  · rintro rfl
    rfl

theorem markCost_le (hmk : marks candidateId write → candidate.id = candidateId)
    (hr : candidate.id = candidateId → 1 ≤ budget) : markCost candidateId write ≤ budget := by
  unfold markCost
  split
  · next hm => exact hr (hmk hm)
  · exact Nat.zero_le budget

theorem constrained_spends (hc : ∀ db, K db → markCost candidateId write ≤ budget) :
    (constrained lock constraints write).Spends K (markCost candidateId) budget := by
  refine Tx.Spends.query fun db ws v hh ha => ?_
  split at ha
  · cases ha
  · cases ha
    exact hc db hh

def Room (K : SubstrateDb → Prop) (budget candidateId : Nat) (candidate : SubstrateCandidate)
    (action : PlanAction) : Prop :=
  ∀ db, K db → candidate.id = candidateId → findsMade candidate db action = false → 1 ≤ budget

abbrev AddsNothing (candidateId : Nat) (body : SubstrateTx α) : Prop :=
  Writes (fun write => markCost candidateId write = 0) body

theorem mark_adds (resolution : Resolution) :
    AddsNothing candidateId (markCandidateResolution candidate resolution) :=
  Writes.constrained rfl

theorem backfill_adds (canonicalRefs : List Fields) (actorId : Option Nat) : AddsNothing candidateId
      (backfillPromotedCandidateScopes rules clock candidate canonicalRefs actorId) :=
  backfill_writes (fun _ => ⟨fun _ _ => rfl, fun _ => rfl, fun _ _ => rfl⟩) _ _

theorem linkRelated_adds (canonicalRef : Option Fields) : AddsNothing candidateId
      (linkRelatedCustomerCommitmentsForCandidate rules candidate canonicalRef) :=
  linkRelated_writes (fun _ _ _ _ => rfl) _

theorem promoteActor_spends (hn : plan.Names candidate.id)
    (hr : Room K budget candidateId candidate .promoteActor) :
    (promoteActorCandidate rules clock candidate (some plan)).Spends K (markCost candidateId)
      budget := by
  refine Tx.Spends.orRaise_bind fun actor ha => Tx.Spends.after newId fun actorId =>
    Tx.Spends.before (constrained_spends fun db hh => ?_) fun _ => ?_
  · have hp : plan.actor = some actor := (ite_none_right_eq_some.mp ha).2
    have hname := hn.actor actor hp
    exact markCost_le (fun hm => (markedBy_eq_true_iff hname).mp hm) fun hi => hr db hh hi rfl
  · exact bind (forEach fun _ _ => Writes.constrained rfl) fun _ =>
      (mark_adds _).bind fun _ => (backfill_adds _ _).bind fun _ => done

theorem foundOr_spends (hc : found = none → create.Spends K (markCost candidateId) budget) :
    (foundOr found create).Spends K (markCost candidateId) budget := by
  cases found with
  | none => exact hc rfl
  | some id => trivial

theorem createResource_spends
    (hc : ∀ id, markCost candidateId (.insertResource id (resource.row tenantId causeEventId)) ≤
      budget) :
    (createResource clock tenantId causeEventId resource).Spends K (markCost candidateId)
      budget := by
  refine Tx.Spends.after ensure fun _ => Tx.Spends.after newId fun id =>
    Tx.Spends.before (constrained_spends fun _ _ => hc id) fun _ =>
      bind (Writes.onActs ?_) fun _ => Writes.done
  refine Tx.EachStatement.newId.bind fun observationId => Tx.EachStatement.bind ?_ fun _ => trivial
  refine Tx.EachStatement.query (fun db ws v ha => ?_) fun db _ _ _ hm =>
    absurd hm not_mem_nil
  obtain ⟨-, hp⟩ := (Acts.constrained_eq_ok_iff _ _ _).mp ha
  cases hp
  exact forall_mem_singleton.mpr rfl

theorem promoteResource_spends (hname : plan.Names candidate.id)
    (hro : Room K budget candidateId candidate .promoteResource) :
    (promoteResourceCandidate rules clock candidate (some plan)).Spends K (markCost candidateId)
      budget := by
  refine Tx.Spends.orRaise_bind fun resource hr => Tx.Spends.ofExcept_bind
    fun causeEventId _ => Tx.Spends.read_bind fun db hh => Tx.Spends.before
    (foundOr_spends fun hn => createResource_spends fun id => ?_) fun _ => ?_
  · have hp : plan.resource = some resource := (ite_none_right_eq_some.mp hr).2
    refine markCost_le (fun hm => ?_) fun (hi : candidate.id = candidateId) =>
      hro db hh hi (by rw [findsMade, hn]; rfl)
    exact (markedBy_eq_true_iff (hname.resource resource hp)).mp hm
  · exact bind (insertEntityAliases_writes (fun _ _ _ => rfl) _ _ _) fun _ =>
      (mark_adds _).bind fun _ => (backfill_adds _ _).bind fun _ =>
      (linkRelated_adds _).bind fun _ => done

theorem onActs_spends
    (hb : body.Spends (fun _ => True) (fun write => markCost candidateId (.act write)) budget) :
    (onActs body).Spends K (markCost candidateId) budget := by
  induction body generalizing budget with
  | done v => trivial
  | raise error => trivial
  | statement lock ws next ih =>
    intro db _
    obtain ⟨left, hl, hn⟩ := hb db.acts trivial
    refine ⟨left, ?_, ih _ hn⟩
    simpa only [total, foldr_map] using hl
  | mint next ih => exact fun id => ih id (hb id)

theorem isCommitmentOf_commitmentCapacity {row : Acts.CommitmentRow}
    (hc : row.estimatedCapacity = some (.object (commitmentCapacity candidate))) :
    isCommitmentOf candidateId row ↔ candidate.id = candidateId := by
  simp only [isCommitmentOf, hc, bind_some, fieldsOf, any_some]
  exact markedBy_eq_true_iff rfl

theorem createCommitment_spends {causeEventId : Nat}
    (hro : candidate.id = candidateId → 1 ≤ budget) :
    (createCommitment rules clock candidate causeEventId).Spends K (markCost candidateId)
      budget := by
  refine Tx.Spends.before (onActs_spends ?_) fun _ => done
  have hr : Acts.AllowsReads fun _ _ ws =>
      ∀ write ∈ ws, markCost candidateId (.act write) = 0 :=
    ⟨fun _ _ hm => absurd hm not_mem_nil, fun _ _ _ hm => absurd hm not_mem_nil,
      fun _ _ _ hm => absurd hm not_mem_nil⟩
  unfold Acts.createCommitment
  cases hpr : Acts.prepareCommitmentCreateInput clock.processNow
      (commitmentArgs rules candidate causeEventId) with
  | error error => trivial
  | ok input =>
    obtain ⟨hcb, hg, hdp, hd, -, hc⟩ := prepared_commitmentArgs hpr
    change (Acts.createCommitmentInner clock input).Spends _ _ _
    unfold Acts.createCommitmentInner
    simp only [hcb, hg, hdp, hd]
    refine Tx.Spends.after (Acts.validateReferences_eachStatement hr input) fun _ =>
      Tx.Spends.after Tx.EachStatement.newId fun id => Tx.Spends.after
      (Acts.resolveEffectiveInitialState_eachStatement hr input) fun s =>
      Tx.Spends.before (Tx.Spends.query fun db ws v _ ha => ?_) fun _ => ?_
    · obtain ⟨-, hp⟩ := (Acts.constrained_eq_ok_iff _ _ _).mp ha
      cases hp
      exact markCost_le (isCommitmentOf_commitmentCapacity hc).mp hro
    · refine Tx.EachStatement.done.bind fun _ => Tx.EachStatement.done.bind fun _ =>
        Tx.EachStatement.done.bind fun _ => Tx.EachStatement.done.bind fun _ => ?_
      refine Tx.EachStatement.bind ?_ fun _ => Tx.EachStatement.bind (.read hr.plain)
        fun _ => Tx.EachStatement.orRaise.bind fun _ => trivial
      exact Tx.EachStatement.newId.bind fun _ =>
        (Acts.constrained_eachStatement hr fun _ => forall_mem_singleton.mpr rfl).bind
          fun _ => trivial

theorem promoteCommitment_spends (hr : Room K budget candidateId candidate .promoteCommitment) :
    (promoteCommitmentCandidate rules clock candidate confidenceFloor).Spends K
      (markCost candidateId) budget := by
  refine Tx.Spends.after ensure fun _ => Tx.Spends.after ensure fun _ =>
    Tx.Spends.ofExcept_bind fun causeEventId _ => Tx.Spends.read_bind fun db hh =>
    Tx.Spends.before (foundOr_spends fun hn => createCommitment_spends fun hi =>
      hr db hh hi (by rw [findsMade, hn]; rfl)) fun _ => ?_
  exact (mark_adds _).bind fun _ => (backfill_adds _ _).bind fun _ =>
    (linkRelated_adds _).bind fun _ => done

theorem isPatternOf_patternSignature {row : PatternRow}
    (hs : row.proposedSignature = patternSignature candidate) :
    isPatternOf candidateId row ↔ candidate.id = candidateId := by
  rw [isPatternOf, hs]
  exact markedBy_eq_true_iff rfl

theorem promotePattern_spends (hr : Room K budget candidateId candidate .promotePatternCandidate) :
    (promotePatternSubstrateCandidate rules candidate requireConstituents minConstituents).Spends K
      (markCost candidateId) budget := by
  refine Tx.Spends.after ensure fun _ => Tx.Spends.after read fun constituentIds => ?_
  split
  · split <;> trivial
  · refine Tx.Spends.read_bind fun db hh => Tx.Spends.before
      (foundOr_spends fun hn => ?_) fun _ => (mark_adds _).bind fun _ =>
      (enqueuePatternReview_writes fun _ _ _ => rfl).bind fun _ => done
    refine Tx.Spends.after newId fun id => Tx.Spends.before
      (constrained_spends fun _ _ => ?_) fun _ => done
    refine markCost_le (isPatternOf_patternSignature rfl).mp fun hi => ?_
    exact hr db hh hi (by rw [findsMade, hn]; rfl)

theorem autoPromote_spends (hro : candidate.status = .proposed →
      Room K budget candidateId candidate (autoAction candidate.kind)) :
    (autoPromoteCandidate rules clock candidate confidenceFloor
      commitmentConfidenceFloor).Spends K (markCost candidateId) budget := by
  unfold autoPromoteCandidate
  split
  · trivial
  · next hs =>
    have hro := hro (by
      by_contra hst
      exact hs (.inl hst))
    refine Tx.Spends.ofExcept_bind fun plan hpl => ?_
    obtain ⟨hn, hac⟩ := planWithoutAnswer_names hpl
    split
    · next ha =>
      rw [← hac (by rw [ha]; rfl), ha] at hro
      exact (promoteActor_spends hn hro).before fun _ => done
    · next hr =>
      rw [← hac (by rw [hr]; rfl), hr] at hro
      exact (promoteResource_spends hn hro).before fun _ => done
    · next hc =>
      rw [← hac (by rw [hc]; rfl), hc] at hro
      exact (promoteCommitment_spends hro).before fun _ => done
    · next hp =>
      rw [← hac (by rw [hp]; rfl), hp] at hro
      exact promotePattern_spends hro
    · trivial

theorem markAnswered_adds (answer : Fields) (plan : CandidatePromotionPlan)
    (canonicalRef : Fields) :
    AddsNothing candidateId (markAnswered rules candidate answer plan canonicalRef) :=
  (mark_adds _).bind fun _ => done

theorem answer_spends (hro : ∀ action, answerAction rules answer = some action →
      Room K budget candidateId candidate action) :
    (applyCandidateResolutionAnswer rules clock candidate answer).Spends K (markCost candidateId)
      budget := by
  refine Tx.Spends.ofExcept_bind fun plan hpl => ?_
  obtain ⟨hac, hn⟩ := planFromAnswer_spec hpl
  have hro := hro plan.action hac
  unfold applyPlan
  split
  · exact Tx.Spends.of_free ((mark_adds _).bind fun _ => done)
  · exact Tx.Spends.of_free (ofExcept.bind fun _ => ensure.bind fun _ =>
      (mark_adds _).bind fun _ => bind (backfillRef_writes (fun _ =>
        ⟨fun _ _ => rfl, fun _ => rfl, fun _ _ => rfl⟩) _) fun _ => done)
  · next ha =>
    rw [ha] at hro
    exact (promoteActor_spends hn hro).before fun _ => markAnswered_adds _ _ _
  · next hr =>
    rw [hr] at hro
    exact (promoteResource_spends hn hro).before fun _ => markAnswered_adds _ _ _
  · next hc =>
    rw [hc] at hro
    exact (promoteCommitment_spends hro).before fun _ => markAnswered_adds _ _ _
  · next hp =>
    rw [hp] at hro
    exact (promotePattern_spends hro).before fun _ => orRaise.bind fun _ =>
      markAnswered_adds _ _ _
  · exact Tx.Spends.of_free (ensure.bind fun _ => (mark_adds _).bind fun _ =>
      bind (backfillRef_writes (fun _ => ⟨fun _ _ => rfl, fun _ => rfl, fun _ _ => rfl⟩) _)
        fun _ => (linkRelated_adds _).bind fun _ => done)
  · exact Tx.Spends.of_free ((mark_adds _).bind fun _ => done)
  · trivial
  · trivial

theorem onCandidate_spends {id : Nat}
    (hb : ∀ db (row : CandidateRow), K db → db.candidates.get id = some row →
      row.tenantId = tenantId → (body { row with id }).Spends K (markCost candidateId) budget) :
    (onCandidate tenantId id body).Spends K (markCost candidateId) budget := by
  refine Tx.Spends.read_bind fun db hh => ?_
  cases hf : (db.candidates.get id).filter (·.tenantId = tenantId) with
  | none => trivial
  | some row =>
    obtain ⟨hr, ht⟩ := filter_eq_some_iff.mp hf
    exact hb db row hh hr (of_decide_eq_true ht)

end Spends

def Creates (rules : SubstrateRules) (candidateId : Nat) : SubstrateCall → Prop
  | .upsert _ => False
  | .autoPromote _ _ id _ _ => id = candidateId
  | .answer _ _ id answer =>
    id = candidateId ∧ ∃ action, answerAction rules answer = some action ∧ action.promotes

/-- The call makes no row: the candidate is another tenant's or no longer proposed, or the
promotion finds what it made before. -/
def FindsMade (rules : SubstrateRules) (db : SubstrateDb) : SubstrateCall → Prop
  | .upsert _ => True
  | .autoPromote _ tenantId id _ _ => ∃ row : CandidateRow, db.candidates.get id = some row ∧
      (row.tenantId ≠ tenantId ∨ row.status ≠ .proposed ∨
        findsMade { row with id } db (autoAction row.kind))
  | .answer _ tenantId id answer => ∃ row : CandidateRow, db.candidates.get id = some row ∧
      (row.tenantId ≠ tenantId ∨ ∃ action, answerAction rules answer = some action ∧
        findsMade { row with id } db action)

theorem validateCandidateInputs_cases (rules : SubstrateRules) (args : CandidateUpsert) :
    (∃ error, validateCandidateInputs rules args = .raise error) ∨
      ∃ kind status, validateCandidateInputs rules args = .done (kind, status) ∧
        kind.text = args.kind ∧ status.text = args.status := by
  unfold validateCandidateInputs
  cases hk : substrateKinds.find? fun kind => kind.text == args.kind with
  | none => exact .inl ⟨_, rfl⟩
  | some kind =>
    cases hst : substrateStatuses.find? fun status => status.text == args.status with
    | none => exact .inl ⟨_, rfl⟩
    | some status =>
      have hkn : kind.text = args.kind := by simpa using List.find?_some hk
      have hs : status.text = args.status := by simpa using List.find?_some hst
      cases hl : decide (strip args.label ≠ "") with
      | false => exact .inl ⟨_, rfl⟩
      | true =>
        cases hf : decide (strip args.fingerprint ≠ "") with
        | false => exact .inl ⟨_, rfl⟩
        | true =>
          cases hc : decide (0 ≤ args.confidence ∧ args.confidence ≤ 1) with
          | false => exact .inl ⟨_, rfl⟩
          | true => exact .inr ⟨kind, status, rfl, hkn, hs⟩

variable {args : CandidateUpsert}

theorem upsert_writes (ho : ∀ id kind status, kind.text = args.kind → status.text = args.status →
      ok (.upsertCandidate id (args.row rules kind status))) :
    Writes ok (upsertSubstrateCandidate rules args) := by
  unfold upsertSubstrateCandidate
  rcases validateCandidateInputs_cases rules args with ⟨error, hr⟩ | ⟨kind, status, hd, hn⟩
  · rw [hr]
    trivial
  · rw [hd]
    exact newId.bind fun id =>
      (Writes.constrained (ho id kind status hn.1 hn.2)).bind fun _ => Writes.read

theorem callWrites (call : SubstrateCall) :
    Writes (CallWrites rules call) (substrateProgram rules call) := by
  cases call with
  | upsert args =>
    refine (upsert_writes fun id kind status hk hs => ?_).bind fun _ => done
    exact ⟨id, kind, status, hk, hs, rfl⟩
  | autoPromote clock tenantId id confidenceFloor commitmentConfidenceFloor =>
    refine read.bind fun _ => forSome fun candidate => ?_
    have ha : AllowsCall (Settles (· = .promoted)) clock candidate := allowsCall_settles rfl
    exact (autoPromote_writes ha _ _).bind fun _ => done
  | answer clock tenantId id answer =>
    refine read.bind fun _ => forSome fun candidate => ?_
    exact (applyAnswer_writes allowsAnswer_settles _).bind fun _ => done

def entityQuota (rules : SubstrateRules) (candidateId : Nat) : Quota (substrateSchema rules) where
  measure := created candidateId
  cost := markCost candidateId
  limit := 1
  Allows := CallWrites rules
  Spender := Creates rules candidateId
  allows := callWrites
  measure_apply := created_apply

section

variable {call : SubstrateCall}

theorem stable_row {id : Nat} {P : CandidateRow → Prop}
    (hkp : ∀ row u : CandidateRow, u.tenantId = row.tenantId → u.kind = row.kind →
      (row.status ≠ .proposed → u.status ≠ .proposed) → P row → P u) :
    (entityQuota rules candidateId).Stable fun db =>
      ∃ row, db.candidates.get id = some row ∧ P row := by
  rintro call db write hw ⟨row, hr, hh⟩
  obtain ⟨u, hl, ht, hk, hs⟩ := row_apply hw hr
  exact ⟨u, hl, hkp row u ht hk hs hh⟩

theorem stable_findsMade :
    (entityQuota rules candidateId).Stable fun db => findsMade candidate db action :=
  fun _ _ _ hw hf => findsMade_apply hw hf

theorem starts_of_spends (hsb : (entityQuota rules candidateId).Stable K) (hh : K db)
    (hs : (substrateProgram rules call).Spends K (markCost candidateId) budget) :
    (entityQuota rules candidateId).Starts db call budget :=
  ⟨K, budget, hsb, hh, hs, Nat.le_of_eq (Nat.zero_add budget)⟩

theorem room_of_findsMade (other : SubstrateCandidate) (ht : other.tenantId = candidate.tenantId)
    (hi : other.id = candidate.id) (hf : ∀ db, K db → findsMade other db action) :
    Room K budget candidateId candidate action := by
  intro db hh _ hn
  rw [← findsMade_congr ht hi, hf db hh] at hn
  cases hn

theorem starts_of_foreign {id : Nat} (hr : db.candidates.get id = some row)
    (hfr : row.tenantId ≠ tenantId) (hc : substrateProgram rules call = onCandidate tenantId id body) :
    (entityQuota rules candidateId).Starts db call 0 := by
  refine starts_of_spends (stable_row (P := fun row => row.tenantId ≠ tenantId)
    fun _ _ ht _ _ hn => ht ▸ hn) ⟨row, hr, hfr⟩
    (hc ▸ onCandidate_spends fun db found ⟨row, hr, hfr⟩ hf ht => ?_)
  rw [hf] at hr
  cases hr
  exact absurd ht hfr

theorem starts_of_finds (hfn : FindsMade rules db call) :
    (entityQuota rules candidateId).Starts db call 0 := by
  cases call with
  | upsert args =>
    refine starts_of_spends (K := fun _ => True) (fun _ _ _ _ _ => trivial) trivial
      (Tx.Spends.of_free ((upsert_writes fun _ _ _ _ _ => rfl).bind fun _ => done))
  | autoPromote clock tenantId id confidenceFloor commitmentConfidenceFloor =>
    obtain ⟨row, hr, hfr | hst | hm⟩ := hfn
    · exact starts_of_foreign hr hfr rfl
    · refine starts_of_spends (stable_row (P := fun row => row.status ≠ .proposed)
        fun _ _ _ _ hkp hn => hkp hn) ⟨row, hr, hst⟩
        (onCandidate_spends fun db found ⟨row, hr, hst⟩ hf _ => ?_)
      rw [hf] at hr
      cases hr
      refine (autoPromote_spends fun hp => absurd hp hst).before fun _ =>
        done
    · refine starts_of_spends (K := fun db => (∃ found, db.candidates.get id = some found ∧
          found.tenantId = row.tenantId ∧ found.kind = row.kind) ∧
          findsMade { row with id } db (autoAction row.kind))
        (Quota.Stable.and (stable_row fun _ _ ht hk _ hs =>
          ⟨ht.trans hs.1, hk.trans hs.2⟩) stable_findsMade)
        ⟨⟨row, hr, rfl, rfl⟩, hm⟩
        (onCandidate_spends fun db found hh hf _ => ?_)
      obtain ⟨⟨known, hkn, ht, hk⟩, -⟩ := hh
      rw [hf] at hkn
      cases hkn
      refine (autoPromote_spends fun _ => ?_).before fun _ => done
      refine room_of_findsMade { row with id } ht.symm rfl ?_
      rintro s ⟨-, hm⟩
      rw [hk]
      exact hm
  | answer clock tenantId id answer =>
    obtain ⟨row, hr, hfr | ⟨action, ha, hm⟩⟩ := hfn
    · exact starts_of_foreign hr hfr rfl
    · refine starts_of_spends (K := fun db => (∃ found, db.candidates.get id = some found ∧
          found.tenantId = row.tenantId) ∧ findsMade { row with id } db action)
        (Quota.Stable.and (stable_row fun _ _ ht _ _ hs => ht.trans hs)
          stable_findsMade) ⟨⟨row, hr, rfl⟩, hm⟩ (onCandidate_spends fun db found hh hf _ => ?_)
      obtain ⟨⟨known, hkn, ht⟩, -⟩ := hh
      rw [hf] at hkn
      cases hkn
      refine (answer_spends fun other ho => ?_).before fun _ => done
      cases ho.symm.trans ha
      exact room_of_findsMade { row with id } ht.symm rfl fun _ hh => hh.2

theorem starts_once (call : SubstrateCall) : (entityQuota rules candidateId).Starts db call 1 := by
  refine starts_of_spends (K := fun _ => True) (fun _ _ _ _ _ => trivial) trivial ?_
  cases call with
  | upsert args =>
    exact Tx.Spends.of_free ((upsert_writes fun _ _ _ _ _ => rfl).bind fun _ => done)
  | autoPromote clock tenantId id confidenceFloor commitmentConfidenceFloor =>
    refine onCandidate_spends fun _ _ _ _ _ => ?_
    exact (autoPromote_spends fun _ _ _ _ _ => Nat.le_refl 1).before fun _ => done
  | answer clock tenantId id answer =>
    refine onCandidate_spends fun _ _ _ _ _ => ?_
    exact (answer_spends fun _ _ _ _ _ _ => Nat.le_refl 1).before fun _ => done

theorem starts_of_not_creates (hc : ¬ Creates rules candidateId call) :
    (entityQuota rules candidateId).Starts db call 0 := by
  refine starts_of_spends (K := fun _ => True) (fun _ _ _ _ _ => trivial) trivial ?_
  cases call with
  | upsert args =>
    exact Tx.Spends.of_free ((upsert_writes fun _ _ _ _ _ => rfl).bind fun _ => done)
  | autoPromote clock tenantId id confidenceFloor commitmentConfidenceFloor =>
    refine onCandidate_spends fun _ _ _ _ _ => ?_
    refine (autoPromote_spends fun _ _ _ hi _ => ?_).before fun _ => done
    exact (hc hi).elim
  | answer clock tenantId id answer =>
    refine onCandidate_spends fun _ _ _ _ _ => ?_
    refine (answer_spends fun action ha _ _ hi hn => ?_).before fun _ => done
    refine absurd ⟨hi, action, ha, ?_⟩ hc
    cases action <;> first | rfl | cases hn

end

def Final (candidateId : Nat) (db : SubstrateDb) : Prop :=
  ∃ row, db.candidates.get candidateId = some row ∧ row.status.isFinal

def CandidateUpsert.names (args : CandidateUpsert) (row : CandidateRow) : Prop :=
  row.tenantId = args.tenantId ∧ row.kind.text = args.kind ∧
    row.fingerprint = strip args.fingerprint

/-- The status of the upsert is one that the CASE puts in place of a settled one. -/
def CandidateUpsert.reopens (args : CandidateUpsert) : Prop :=
  args.status = "needs_clarification" ∨ args.status = "stale"

/-- The upsert finds the candidate merged or rejected, and opens it again. -/
def Reopens (candidateId : Nat) (db : SubstrateDb) (args : CandidateUpsert) : Prop :=
  args.reopens ∧ ∃ row, db.candidates.get candidateId = some row ∧ args.names row ∧
    (row.status = .merged ∨ row.status = .rejected)

/-- The candidate is settled and stays so when the upsert is made, any number of times. -/
def StaysFinal (args : CandidateUpsert) (row : CandidateRow) : Prop :=
  row.status.isFinal ∧ (row.status ≠ .promoted → args.names row → ¬ args.reopens)

theorem staysFinal_of_not_reopens (hr : db.candidates.get candidateId = some row)
    (hf : row.status.isFinal)
    (hk : ¬ Reopens candidateId db args) : StaysFinal args row := by
  refine ⟨hf, fun hs hn hro => hk ⟨hro, row, hr, hn, ?_⟩⟩
  cases hc : row.status with
  | merged => exact .inl rfl
  | rejected => exact .inr rfl
  | promoted => exact absurd hc hs
  | _ =>
    rw [hc] at hf
    cases hf

theorem isFinal_of_not_reopens {status : SubstrateStatus} (hn : status.text = args.status)
    (hk : ¬ args.reopens) (hs : status ≠ .proposed) : status.isFinal := by
  cases status with
  | proposed => exact absurd rfl hs
  | needsClarification => exact absurd (.inl hn.symm) hk
  | stale => exact absurd (.inr hn.symm) hk
  | _ => rfl

theorem staysFinal_mergedWith
    (hs : StaysFinal args row) (hky : row.key = (args.row rules kind status).key)
    (hk : kind.text = args.kind) (hst : status.text = args.status) :
    StaysFinal args (row.mergedWith rules (args.row rules kind status)) := by
  obtain ⟨hfn, hkp⟩ := hs
  obtain ⟨ht, hkn, hf⟩ := CandidateKey.mk.inj hky
  have hn : args.names row := ⟨ht, by rw [hkn]; exact hk, hf⟩
  refine ⟨?_, fun hp _ => ?_⟩
  · simp only [CandidateRow.mergedWith, SubstrateStatus.mergedWith]
    split
    · exact hfn
    · next hu =>
      split
      · next hpr => exact isFinal_of_not_reopens hst (hkp hu hn) hpr
      · exact hfn
  · refine hkp (fun hr => hp ?_) hn
    simp [CandidateRow.mergedWith, SubstrateStatus.mergedWith, hr]

theorem final_upserts (hw : ∀ write ∈ ws, CallWrites rules (.upsert args) write)
    (hr : db.candidates.get candidateId = some row) (hs : StaysFinal args row) :
    Final candidateId ((substrateSchema rules).view db ws) := by
  induction ws generalizing db row with
  | nil => exact ⟨row, hr, hs.1⟩
  | cons write rest ih =>
    obtain ⟨⟨newId, kind, status, hk, hst, rfl⟩, ht⟩ := forall_mem_cons.mp hw
    obtain ⟨u, hl, rfl | ⟨hky, rfl⟩⟩ :=
      get_upsertCandidate rules newId (args.row rules kind status) hr
    · exact ih ht hl hs
    · exact ih ht hl (staysFinal_mergedWith hs hky hk hst)

theorem final_promotions
    (hw : ∀ write ∈ ws, Settles (· = .promoted) write) (hf : Final candidateId db) :
    Final candidateId ((substrateSchema rules).view db ws) := by
  induction ws generalizing db with
  | nil => exact hf
  | cons write rest ih =>
    obtain ⟨hwr, ht⟩ := forall_mem_cons.mp hw
    refine ih ht ?_
    cases write with
    | upsertCandidate newId excluded => exact hwr.elim
    | resolveCandidate tenantId target resolution =>
      obtain ⟨row, hr, hs⟩ := hf
      have hg := get_resolveCandidate rules db tenantId target candidateId resolution
      rw [hr] at hg
      refine ⟨_, hg, ?_⟩
      dsimp only
      split
      · change resolution.status.isFinal
        rw [show resolution.status = .promoted from hwr]
        rfl
      · exact hs
    | _ => exact hf

/-- A call that may make a row begins only if it finds the row it would make, or if none
has been made and no other such call is open; and no upsert is committed that opens the
candidate again. -/
def KeepsOneEntity (rules : SubstrateRules) (candidateId : Nat)
    (run : CommitLog SubstrateDb SubstrateWrite CandidateKey SubstrateError SubstrateCall) :
    Action SubstrateCall → Prop
  | .begin _ call => Creates rules candidateId call →
      FindsMade rules run.config.committed call ∨ run.config.committed.created candidateId = 0 ∧
          ∀ other rival, run.calls.get other = some rival → ¬ Creates rules candidateId rival
  | .commit sid => ∀ args, run.calls.get sid = some (.upsert args) →
      ¬ Reopens candidateId run.config.committed args
  | _ => True

def SubstrateCall.unanswered : SubstrateCall → Prop
  | .answer _ _ _ _ => False
  | _ => True

theorem admits_of_keepsOneEntity (hk : KeepsOneEntity rules candidateId run action) :
    (entityQuota rules candidateId).Admits run action := by
  cases action with
  | begin sid call =>
    by_cases hc : Creates rules candidateId call
    · rcases hk hc with hf | ⟨hn, ho⟩
      · exact .inl (starts_of_finds hf)
      · refine .inr ⟨hc, ⟨1, ?_, starts_once call⟩, ho⟩
        exact Nat.le_of_eq (congrArg (· + 1) hn)
    · exact .inl (starts_of_not_creates hc)
  | _ => trivial

/-- In every run that takes such steps alone, one row at most has been made of the candidate,
and neither an upsert nor an automatic promotion opens it again once it is settled. -/
theorem one_entity_in_every_run {start : SubstrateDb} {supply : Nat}
    {run : CommitLog SubstrateDb SubstrateWrite CandidateKey SubstrateError SubstrateCall}
    (hstart : start.created candidateId ≤ 1)
    (hreach : Transition.Reach (step (substrateSchema rules))
      (KeepsOneEntity rules candidateId) (CommitLog.start start supply) run) :
    run.config.committed.created candidateId ≤ 1 ∧
      ∀ sid call after, run.calls.get sid = some call → call.unanswered →
        KeepsOneEntity rules candidateId run (.commit sid) →
        run.step (substrateSchema rules) (.commit sid) = some after →
        Final candidateId run.config.committed → Final candidateId after.config.committed := by
  have hkept : (entityQuota rules candidateId).Kept run :=
    Quota.kept_of_reach (fun _ _ => admits_of_keepsOneEntity) hstart hreach
  refine ⟨hkept.limited, fun sid call after hcall hunanswered hkeeps hstep hfinal => ?_⟩
  obtain ⟨next, hnext, rfl⟩ := map_eq_some_iff.mp hstep
  obtain ⟨session, hget, hends⟩ := bind_eq_some_iff.mp hnext
  obtain ⟨found, hfound, howned, -⟩ := hkept.sessions sid session hget
  obtain rfl : call = found := Option.some.inj (hcall.symm.trans hfound)
  split at hends
  · cases hends
    cases call with
    | upsert args =>
      obtain ⟨row, hrow, hstatus⟩ := hfinal
      exact final_upserts howned.writes hrow
        (staysFinal_of_not_reopens hrow hstatus (hkeeps args hcall))
    | autoPromote clock tenantId id confidenceFloor commitmentConfidenceFloor =>
      exact final_promotions howned.writes hfinal
    | answer clock tenantId id answer => exact hunanswered.elim
  · cases hends

def adaCandidate : SubstrateDb where
  acts := { tenants := [1] }
  candidates := (∅ : Table Nat CandidateRow).put 20
    { tenantId := 1
      kind := .actor
      label := "Ada"
      confidence := 9 / 10
      fingerprint := "ada"
      aliases := [[("source_channel", .string "slack"), ("source_actor_ref", .string "U1")]]
      evidenceObservationIds := [40] }

def promoteAda : SubstrateCall :=
  .autoPromote { processNow := 0, transactionNow := 0 } 1 20 (72 / 100) (78 / 100)

def SubstrateCall.isUpsert : SubstrateCall → Bool
  | .upsert _ => true
  | _ => false

def takesTurns
    (run : CommitLog SubstrateDb SubstrateWrite CandidateKey SubstrateError SubstrateCall) :
    Action SubstrateCall → Bool
  | .begin _ call => call.isUpsert || (decide (run.config.committed.created 20 = 0) &&
      run.calls.rows.all fun pair => pair.2.isUpsert)
  | .commit sid => (run.calls.get sid).all fun
    | .upsert args => args.status == "proposed"
    | _ => true
  | _ => true

theorem keepsOneEntity_of_takesTurns (ht : takesTurns run action) :
    KeepsOneEntity plainRules 20 run action := by
  cases action with
  | begin sid call =>
    intro hcreates
    rcases Bool.or_eq_true_iff.mp ht with hupsert | hfirst
    · cases call <;> cases hupsert
      exact hcreates.elim
    · obtain ⟨hnone, hrivals⟩ := Bool.and_eq_true_iff.mp hfirst
      refine .inr ⟨of_decide_eq_true hnone, fun other rival hrival hrivals' => ?_⟩
      have hupsert := all_eq_true.mp hrivals _ ((mem_rows_iff run.calls other rival).mpr hrival)
      cases rival <;> cases hupsert
      exact hrivals'.elim
  | commit sid =>
    rintro args hcall ⟨hreopens, -⟩
    rw [takesTurns, hcall] at ht
    have hstatus : args.status = "proposed" := by simpa using ht
    simp [CandidateUpsert.reopens, hstatus] at hreopens
  | _ => trivial

/-- A promotion with a discovery of the same candidate beside it, which commits last. -/
theorem one_entity_in_every_run_ada :
    ∃ run after : CommitLog SubstrateDb SubstrateWrite CandidateKey SubstrateError SubstrateCall,
      run.config.committed.created 20 = 1 ∧ (∃ args, run.calls.get 2 = some (.upsert args)) ∧
        run.step (substrateSchema plainRules) (.commit 2) = some after ∧
        Final 20 after.config.committed := by
  have hrun : ((runChecked (step (substrateSchema plainRules)) takesTurns (start adaCandidate 100)
      ([.begin 1 promoteAda, .begin 2 (.upsert
          { tenantId := 1, kind := "actor", label := "Ada", fingerprint := "ada" }),
        .statement 1, .statement 2] ++ List.replicate 5 (.statement 1) ++
          [.commit 1, .statement 2, .statement 2])).any fun run =>
      run.config.committed.created 20 == 1 && takesTurns run (.commit 2) &&
        (run.calls.get 2).any SubstrateCall.isUpsert &&
        (run.step (substrateSchema plainRules) (.commit 2)).isSome &&
        (run.config.committed.candidates.get 20).any fun row => row.status.isFinal) := by
    decide +kernel
  obtain ⟨run, hrun, hlast⟩ := (any_eq_true _ _).mp hrun
  simp only [Bool.and_eq_true, beq_iff_eq, Option.any_eq_true, isSome_iff_exists] at hlast
  obtain ⟨⟨⟨⟨hcreated, hturn⟩, call, hcall, hupsert⟩, after, hafter⟩, row, hrow, hfinal⟩ := hlast
  obtain ⟨hone, hcommit⟩ := one_entity_in_every_run (by decide +kernel)
    (reach_of_runChecked (fun _ _ => keepsOneEntity_of_takesTurns) hrun)
  cases call <;> cases hupsert
  exact ⟨run, after, hcreated, ⟨_, hcall⟩, hafter, hcommit 2 _ after hcall trivial
    (keepsOneEntity_of_takesTurns hturn) hafter ⟨row, hrow, hfinal⟩⟩

def promotedByTwo : List (Action SubstrateCall) :=
  [.begin 1 promoteAda, .begin 2 promoteAda, .statement 1, .statement 2] ++
    List.replicate 5 (.statement 1) ++ [.commit 1] ++ List.replicate 5 (.statement 2) ++ [.commit 2]

def rejectedAndDiscovered : List (Action SubstrateCall) :=
  [.begin 1 (.answer { processNow := 0, transactionNow := 0 } 1 20 [("action", .string "reject")]),
    .statement 1, .statement 1, .commit 1,
    .begin 2 (.upsert
      { tenantId := 1
        kind := "actor"
        label := "Ada"
        fingerprint := "ada"
        status := "needs_clarification" }),
    .statement 2, .statement 2, .statement 2]

/-- Two actors are made of the candidate, and a rejected one is opened again. -/
theorem two_actors_and_reopened : adaCandidate.created 20 = 0 ∧
      (∃ run, Transition.Reach (step (substrateSchema plainRules)) anyStep
          (start adaCandidate 100) run ∧ run.config.committed.created 20 = 2) ∧
      ∃ run after, Transition.Reach (step (substrateSchema plainRules))
          anyStep (start adaCandidate 100) run ∧
        (∃ args, run.calls.get 2 = some (.upsert args)) ∧
        run.step (substrateSchema plainRules) (.commit 2) = some after ∧
        (run.config.committed.candidates.get 20).map CandidateRow.status = some .rejected ∧
        (after.config.committed.candidates.get 20).map CandidateRow.status =
          some .needsClarification := by
  refine ⟨by decide +kernel, ?_, ?_⟩
  · have hrun : ((runAll (step (substrateSchema plainRules))
        (start adaCandidate 100) promotedByTwo).map
          fun run => run.config.committed.created 20) = some 2 := by
      decide +kernel
    obtain ⟨run, hrun, hcreated⟩ := Option.map_eq_some_iff.mp hrun
    exact ⟨run, reach_of_run hrun, hcreated⟩
  · have hrun : ((runAll (step (substrateSchema plainRules))
        (start adaCandidate 100) rejectedAndDiscovered).bind fun run =>
          (run.step (substrateSchema plainRules) (.commit 2)).map fun after =>
            ((run.config.committed.candidates.get 20).map CandidateRow.status,
              (after.config.committed.candidates.get 20).map CandidateRow.status,
              (run.calls.get 2).any SubstrateCall.isUpsert)) =
        some (some .rejected, some .needsClarification, true) := by
      decide +kernel
    obtain ⟨run, hrun, hlast⟩ := Option.bind_eq_some_iff.mp hrun
    obtain ⟨after, hafter, hpair⟩ := Option.map_eq_some_iff.mp hlast
    simp only [Prod.mk.injEq, Option.any_eq_true] at hpair
    obtain ⟨hrejected, hreopened, call, hcall, hupsert⟩ := hpair
    refine ⟨run, after, reach_of_run hrun, ?_, hafter, hrejected, hreopened⟩
    cases call with
    | upsert args => exact ⟨args, hcall⟩
    | _ => cases hupsert

end FyralisCore.Substrate
