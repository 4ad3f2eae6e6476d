import FyralisCore.Lib.Raises
import FyralisCore.Substrate.Statements

/-! The link between the rows that a customer candidate and a commitment candidate have
become. Whichever is resolved second makes it, but a merge makes none. -/
namespace FyralisCore.Substrate

open Relational Transaction ReadCommitted List Option Tx SubstrateDb CandidateRow Writes
open Acts (Json Clock)

def CandidateRow.isResolved (row : CandidateRow) : Bool :=
  row.status = .promoted ∨ row.status = .merged

/-- The reference to the canonical row of a candidate that has been resolved to one. -/
def CandidateRow.canonicalRef (row : CandidateRow) : Option Fields :=
  if row.isResolved then row.promotionRef else none

def canonicalCustomer (rules : SubstrateRules) (db : SubstrateDb) (candidateId : Nat) :
    Option Nat :=
  (db.candidates.get candidateId).bind fun row => row.canonicalRef.bind fun ref =>
    customerResourceIdFromRef rules ref row.kind

def canonicalCommitment (rules : SubstrateRules) (db : SubstrateDb) (candidateId : Nat) :
    Option Nat :=
  (db.candidates.get candidateId).bind fun row => row.canonicalRef.bind fun ref =>
    commitmentIdFromRef rules ref

/-- The candidate is one of the tenant, of this kind, and lists the other. -/
structure Lists (tenantId : Nat) (kind : SubstrateKind) (other : Nat) (row : CandidateRow) :
    Prop where
  tenant : row.tenantId = tenantId
  kind : row.kind = kind
  lists : other ∈ row.relatedCandidateIds

/-- A customer candidate and a commitment candidate of the tenant list each other. -/
structure Related (tenantId customerId commitmentId : Nat) (db : SubstrateDb) : Prop where
  customer : ∃ row, db.candidates.get customerId = some row ∧
    Lists tenantId .customer commitmentId row
  commitment : ∃ row, db.candidates.get commitmentId = some row ∧
    Lists tenantId .commitment customerId row

def LinkedOnce (rules : SubstrateRules) (customerId commitmentId : Nat) (db : SubstrateDb) : Prop :=
  ∀ resourceId commitment, canonicalCustomer rules db customerId = some resourceId →
    canonicalCommitment rules db commitmentId = some commitment →
    db.customerCommitments.count (fun key _ => key = (resourceId, commitment)) = 1

theorem count_link_eq_one_iff (db : SubstrateDb) (pair : Nat × Nat) :
    db.customerCommitments.count (fun key _ => key = pair) = 1 ↔
      (db.customerCommitments.get pair).isSome := by
  have hr : (db.customerCommitments.rows.filter fun e => decide (e.1 = pair)) =
      ((db.customerCommitments.get pair).map fun row => (pair, row)).toList :=
    Table.filter_rows_key _ fun _ _ _ => decide_eq_true_iff
  rw [Table.count, countP_eq_length_filter, hr]
  cases db.customerCommitments.get pair <;> simp

/-! ### What a call on a candidate leaves alone -/

/-- What has changed since `db` are links that were added and the resolution of one
candidate. -/
structure Spared (id : Nat) (db after : SubstrateDb) : Prop where
  others : ∀ other, other ≠ id → after.candidates.get other = db.candidates.get other
  own : ∀ row, db.candidates.get id = some row → ∃ later, after.candidates.get id = some later ∧
    later.tenantId = row.tenantId ∧ later.kind = row.kind ∧
      later.relatedCandidateIds = row.relatedCandidateIds
  links : ∀ pair, (db.customerCommitments.get pair).isSome →
    (after.customerCommitments.get pair).isSome

def Spares (id : Nat) : SubstrateWrite → Prop
  | .upsertCandidate _ _ => False
  | .resolveCandidate _ other _ => other = id
  | _ => True

def LeavesCandidates : SubstrateWrite → Prop
  | .upsertCandidate _ _ | .resolveCandidate _ _ _ => False
  | _ => True

section Spared

variable {rules : SubstrateRules} {clock : Clock} {candidate : SubstrateCandidate} {id : Nat}
  {db after : SubstrateDb}

theorem Spared.refl : Spared id db db where
  others _ _ := rfl
  own row hr := ⟨row, hr, rfl, rfl, rfl⟩
  links _ hlink := hlink

theorem isSome_get_upserted [DecidableEq K] (table : Table K V) (key : K)
    (excluded : V) (merge : V → V) (other : K) :
    ((upserted table key excluded merge).get other).isSome ↔
      other = key ∨ (table.get other).isSome := by
  unfold upserted
  split <;> simp only [Table.get_put] <;> split <;> simp [*]

theorem candidates_apply (hl : LeavesCandidates w) :
    (db.apply rules w).candidates = db.candidates := by
  cases w with
  | upsertCandidate id excluded => exact hl.elim
  | resolveCandidate tenantId id resolution => exact hl.elim
  | _ => rfl

theorem links_apply (w : SubstrateWrite) (hl : (db.customerCommitments.get pair).isSome) :
    ((db.apply rules w).customerCommitments.get pair).isSome := by
  cases w with
  | upsertCandidate id excluded =>
    simp only [apply]
    split <;> exact hl
  | upsertLink resourceId commitmentId excluded =>
    exact (isSome_get_upserted _ _ _ _ _).mpr (.inr hl)
  | _ => exact hl

theorem Spared.write (hsp : Spared id db after) {w : SubstrateWrite}
    (hspr : Spares id w) : Spared id db (after.apply rules w) := by
  have hln : ∀ pair, (db.customerCommitments.get pair).isSome →
      ((after.apply rules w).customerCommitments.get pair).isSome :=
    fun pair hli => links_apply w (hsp.links pair hli)
  by_cases hlv : LeavesCandidates w
  · refine ⟨?_, ?_, hln⟩ <;> rw [candidates_apply hlv]
    · exact hsp.others
    · exact hsp.own
  · cases w with
    | upsertCandidate id excluded => exact hspr.elim
    | resolveCandidate tenantId target resolution =>
      obtain rfl : target = id := hspr
      refine ⟨fun other hn => ?_, fun row hr => ?_, hln⟩
      · rw [get_resolveCandidate, ← hsp.others other hn]
        cases after.candidates.get other with
        | none => rfl
        | some row => simp [hn]
      · obtain ⟨u, hl, hs⟩ := hsp.own row hr
        rw [get_resolveCandidate, hl]
        refine ⟨_, rfl, ?_⟩
        dsimp only
        split <;> exact hs
    | _ => exact absurd trivial hlv

theorem allows_spares : AllowsAnswer (Spares candidate.id) clock candidate where
  promote _ _ := rfl
  settle _ _ := rfl
  scope _ := ⟨fun _ _ => trivial, fun _ => trivial, fun _ _ => trivial⟩
  actor _ _ _ _ := trivial
  identity _ _ := trivial
  resource _ _ _ := trivial
  entityAlias _ _ _ := trivial
  pattern _ _ _ := trivial
  trigger _ _ _ := trivial
  link _ _ _ _ := trivial
  commitment _ _ _ := trivial
  observation _ _ _ := trivial

variable {α : Type} {body : SubstrateTx α} {ref : Fields} {resolution : Resolution}
  {plan : CandidatePromotionPlan}

theorem Writes.spared (hb : Writes (Spares id) body) : Stays rules (Spared id db) body :=
  hb.stays fun _ _ hsp hs => hsp.write hs

def Present (candidate : SubstrateCandidate) (db : SubstrateDb) : Prop :=
  ∃ row, db.candidates.get candidate.id = some row ∧ row.tenantId = candidate.tenantId

def Named (candidate : SubstrateCandidate) (ref : Fields) (db : SubstrateDb) : Prop :=
  ∃ row, db.candidates.get candidate.id = some row ∧ row.tenantId = candidate.tenantId ∧
    row.promotionRef = some ref

theorem Named.present (hn : Named candidate ref db) : Present candidate db := by
  obtain ⟨row, hr, ht, -⟩ := hn
  exact ⟨row, hr, ht⟩

def Joined (rules : SubstrateRules) (candidate : SubstrateCandidate) (ref : Fields)
    (db : SubstrateDb) : Prop :=
  ∀ other row pair, other ≠ candidate.id → other ∈ candidate.relatedCandidateIds →
    db.candidates.get other = some row → row.tenantId = candidate.tenantId →
    row.isResolved →
    linkedPair rules (customerResourceIdFromRef rules ref candidate.kind)
      (commitmentIdFromRef rules ref) row = some pair →
    (db.customerCommitments.get pair).isSome

theorem Joined.kept (hj : Joined rules candidate ref s)
    (ho : ∀ other, other ≠ candidate.id → t.candidates.get other = s.candidates.get other)
    (hln : ∀ pair, (s.customerCommitments.get pair).isSome →
      (t.customerCommitments.get pair).isSome) : Joined rules candidate ref t := by
  intro other row pair hn hl hr ht hrs hp
  rw [ho other hn] at hr
  exact hln pair (hj other row pair hn hl hr ht hrs hp)

theorem present_stays (hb : Writes LeavesCandidates body) :
    Stays rules (Present candidate) body := by
  refine hb.stays fun s w hp hl => ?_
  rwa [Present, candidates_apply hl]

theorem named_stays
    (hb : Writes LeavesCandidates body) : Stays rules (Named candidate ref) body := by
  refine hb.stays fun s w hn hl => ?_
  rwa [Named, candidates_apply hl]

theorem mark_row (resolution : Resolution) :
    Leads rules (Present candidate) (markCandidateResolution candidate resolution) fun _ db =>
      ∃ row : CandidateRow, db.candidates.get candidate.id = some (row.resolved resolution) ∧
        row.tenantId = candidate.tenantId := by
  intro db supply v after left hp hr
  obtain ⟨row, hg, ht⟩ := hp
  obtain ⟨-, rfl, -⟩ := returns_constrained.mp hr
  refine ⟨row, ?_, ht⟩
  rw [get_resolveCandidate, hg, map_some, if_pos ⟨rfl, ht⟩]

theorem mark_named (hr : resolution.promotionRef = some ref) :
    Leads rules (Present candidate) (markCandidateResolution candidate resolution) fun _ =>
      Named candidate ref := by
  intro db supply v after left hp hrt
  obtain ⟨row, hg, ht⟩ := mark_row resolution _ _ _ _ _ hp hrt
  exact ⟨_, hg, ht, by rw [resolved, hr, some_or]⟩

theorem leavesCandidates_scope (modelId : Nat) :
    AllowsScope LeavesCandidates clock candidate modelId :=
  ⟨fun _ _ => trivial, fun _ => trivial, fun _ _ => trivial⟩

theorem exists_mem_distinct (same : α → α → Bool) (hr : ∀ v, same v v)
    (hm : v ∈ values) : ∃ kept ∈ distinct same values, same v kept := by
  have hfl : ∀ (values kept : List α), (∃ found ∈ kept, same v found) ∨ v ∈ values →
      ∃ found ∈ values.foldl (fun kept v =>
        if kept.any (same v) then kept else kept ++ [v]) kept, same v found := by
    intro values
    induction values with
    | nil => exact fun kept hk => hk.resolve_right not_mem_nil
    | cons first rest ih =>
      intro kept hk
      refine ih _ ?_
      rcases hk with ⟨found, hf, hs⟩ | hl
      · left
        refine ⟨found, ?_, hs⟩
        dsimp only
        split
        · exact hf
        · exact mem_append_left _ hf
      · rcases mem_cons.mp hl with rfl | ht
        · left
          dsimp only
          split
          · next ha => exact any_eq_true.mp ha
          · exact ⟨v, mem_append_right _ (mem_singleton_self _), hr v⟩
        · exact .inr ht
  exact hfl values [] (.inr hm)

theorem exists_mem_plannedLinks (hr : row ∈ rows)
    (hp : linkedPair rules customerResourceId commitmentId row = some pair) :
    ∃ label, (pair, label) ∈ plannedLinks rules customerResourceId commitmentId rows := by
  have hm : (pair, row.label) ∈ rows.filterMap fun row =>
      (linkedPair rules customerResourceId commitmentId row).map fun pair => (pair, row.label) :=
    mem_filterMap.mpr ⟨row, hr, by rw [hp]; rfl⟩
  have he := exists_mem_distinct
    (fun (first second : (Nat × Nat) × String) => decide (first.1 = second.1))
    (fun _ => decide_eq_true rfl) hm
  obtain ⟨⟨kept, label⟩, hk, hs⟩ := he
  obtain rfl : pair = kept := of_decide_eq_true hs
  exact ⟨label, hk⟩

theorem mem_resolvedRelated
    (hl : other ∈ candidate.relatedCandidateIds) (hr : db.candidates.get other = some row)
    (ht : row.tenantId = candidate.tenantId) (hrs : row.isResolved) :
    row ∈ resolvedRelated candidate db := by
  refine mem_map.mpr ⟨(other, row), mem_filter.mpr ⟨?_, ?_⟩, rfl⟩
  · exact (Table.mem_rows_iff _ _ _).mpr hr
  · simpa [ht, hl] using of_decide_eq_true hrs

theorem linkedPair_none (row : CandidateRow) : linkedPair rules none none row = none := by
  unfold linkedPair
  cases row.linkRef with
  | none => rfl
  | some ref => cases row.kind <;> rfl

theorem linkRelated_joins (hfl : ref ≠ []) :
    Leads rules P (linkRelatedCustomerCommitmentsForCandidate rules candidate (some ref))
      fun _ => Joined rules candidate ref := by
  intro db supply v after left _ hrt other row pair hne hl hr ht hrs hp
  have hlv : Writes LeavesCandidates
      (linkRelatedCustomerCommitmentsForCandidate rules candidate (some ref)) :=
    linkRelated_writes (fun _ _ _ _ => trivial) _
  have hcn : after.candidates = db.candidates :=
    hlv.of_returns (P := fun s => s.candidates = db.candidates)
      (fun _ _ hs hlv => (candidates_apply hlv).trans hs) rfl hrt
  rw [hcn] at hr
  have hf : (some ref).filter (!·.isEmpty) = some ref := by
    cases ref with
    | nil => exact absurd rfl hfl
    | cons field rest => rfl
  simp only [linkRelatedCustomerCommitmentsForCandidate, hf] at hrt
  split at hrt
  · next hn =>
    rcases hn with he | ⟨hcs, hc⟩
    · rw [he] at hl
      cases hl
    · rw [hcs, hc, linkedPair_none] at hp
      cases hp
  · simp only [Tx.bind_eq_bind, Tx.returns_read_bind] at hrt
    obtain ⟨_, linked, _, hlp, hd⟩ := hrt.parts
    obtain ⟨-, rfl, -⟩ := hd.ended
    obtain ⟨label, hpl⟩ := exists_mem_plannedLinks (mem_resolvedRelated hl hr ht hrs) hp
    refine Tx.forEach_establishes
      (P := fun s => (s.customerCommitments.get pair).isSome) hpl ?_ ?_ hlp
    · intro link s _ _ _ hli hln
      obtain ⟨-, -, rfl, -⟩ := returns_linkCommitment.mp hln
      exact links_apply _ hli
    · intro s _ _ _ hln
      obtain ⟨-, -, rfl, -⟩ := returns_linkCommitment.mp hln
      exact (isSome_get_upserted _ _ _ _ _).mpr (.inl rfl)

def JoinedAs (rules : SubstrateRules) (candidate : SubstrateCandidate) (ref : Fields)
    (db : SubstrateDb) : Prop :=
  Named candidate ref db ∧ Joined rules candidate ref db

theorem refType_of_text (hf : type ≠ "")
    (hty : ref.lookup "type" = some (.string type)) : refType rules ref = type := by
  have ht : Models.truthy (.string type) := by simpa [Models.truthy] using hf
  simp [refType, textOr, hty, Option.filter, ht, text]

theorem joined_of_none (hcs : customerResourceIdFromRef rules ref candidate.kind
      = none) (hc : commitmentIdFromRef rules ref = none) : Joined rules candidate ref db := by
  intro other row pair _ _ _ _ _ hp
  rw [hcs, hc, linkedPair_none] at hp
  cases hp

theorem joined_actor : Joined rules candidate (entityRef "actor" id) db := by
  have ht : refType rules (entityRef "actor" id) = "actor" := refType_of_text (by decide) rfl
  apply joined_of_none
  · simp [customerResourceIdFromRef, ht]
  · simp [commitmentIdFromRef, ht]

theorem linkRelated_joinedAs (hf : ref ≠ []) : Leads rules (Named candidate ref)
      (linkRelatedCustomerCommitmentsForCandidate rules candidate (some ref))
      fun _ => JoinedAs rules candidate ref := by
  refine Leads.and ?_ (linkRelated_joins hf)
  exact named_stays (linkRelated_writes (fun _ _ _ _ => trivial) _)

theorem promoteActor_joinedAs (plan : Option CandidatePromotionPlan) :
    Leads rules (Present candidate) (promoteActorCandidate rules clock candidate plan)
      fun r => JoinedAs rules candidate r.canonicalRef := by
  refine Leads.after ?_ fun plan => Leads.after Stays.orRaise fun actor => Leads.after
    (present_stays newId) fun actorId => Leads.after (present_stays ?_) fun _ =>
    Leads.after (present_stays ?_) fun _ => Leads.bind (mark_named rfl) fun _ =>
    Leads.after (named_stays (backfill_writes leavesCandidates_scope _ _)) fun _ =>
    Leads.done fun db hn => ⟨hn, joined_actor⟩
  · cases plan with
    | none => exact Stays.ofExcept
    | some plan => exact Stays.done
  · apply Writes.constrained
    trivial
  · refine forEach fun _ _ => Writes.constrained ?_
    trivial

theorem promoteResource_joinedAs (plan : Option CandidatePromotionPlan) :
    Leads rules (Present candidate) (promoteResourceCandidate rules clock candidate plan)
      fun r => JoinedAs rules candidate r.canonicalRef := by
  refine Leads.after ?_ fun plan => Leads.after Stays.orRaise fun resource => Leads.after
    Stays.ofExcept fun causeEventId => Leads.after Stays.read fun existing => Leads.after
    (present_stays ?_) fun resourceId => Leads.after (present_stays ?_) fun _ => Leads.bind
    (mark_named rfl) fun _ =>
    Leads.after (named_stays (backfill_writes leavesCandidates_scope _ _)) fun _ =>
    Leads.bind (linkRelated_joinedAs ?_) fun _ => Leads.done fun db hj => hj
  · cases plan with
    | none => exact Stays.ofExcept
    | some plan => exact Stays.done
  · exact Writes.foundOr (createResource_writes (fun _ => trivial) fun _ _ _ => trivial)
  · exact insertEntityAliases_writes (fun _ _ _ => trivial) _ _ _
  · unfold resourceCanonicalRef
    split <;> simp

theorem promoteCommitment_joinedAs (confidenceFloor : ℚ) : Leads rules (Present candidate)
      (promoteCommitmentCandidate rules clock candidate confidenceFloor)
      fun r => JoinedAs rules candidate r.canonicalRef := by
  refine Leads.after Stays.ensure fun _ => Leads.after Stays.ensure fun _ => Leads.after
    Stays.ofExcept fun causeEventId => Leads.after Stays.read fun existing => Leads.after
    (present_stays ?_) fun commitmentId => Leads.bind (mark_named rfl) fun _ =>
    Leads.after (named_stays (backfill_writes leavesCandidates_scope _ _)) fun _ =>
    Leads.bind (linkRelated_joinedAs ?_) fun _ => Leads.done fun db hj => hj
  · exact Writes.foundOr (createCommitment_writes (fun _ _ _ _ => trivial) fun _ _ _ => trivial)
  · simp [entityRef]

section

variable (answer : Fields) (plan)

theorem markAnswered_joinedAs (ref : Fields) : Leads rules (JoinedAs rules candidate ref)
    (markAnswered rules candidate answer plan ref) fun _ => JoinedAs rules candidate ref := by
  have hm : Leads rules (JoinedAs rules candidate ref) (markCandidateResolution candidate
      (promotedTo ref [("resolution_answer", .object answer),
        ("resolution", .string plan.action.text),
        ("promotion_plan", { plan with canonicalRef := some ref }.toJson rules)]))
      fun _ => JoinedAs rules candidate ref := by
    intro db supply v after left hj hr
    have hw : ∀ resolution,
        Writes (Spares candidate.id) (markCandidateResolution candidate resolution) :=
      fun resolution => Writes.constrained rfl
    have hs : Spared candidate.id db after := (hw _).spared _ _ _ _ _ .refl hr
    exact ⟨mark_named rfl _ _ _ _ _ hj.1.present hr, hj.2.kept hs.others hs.links⟩
  exact Leads.bind hm fun _ => Leads.done fun _ hj => hj

theorem applyLinkExisting_joinedAs : Leads rules (Present candidate)
    (applyLinkExisting rules clock candidate answer plan) fun _ db => ∃ ref,
    JoinedAs rules candidate ref db := by
  refine Leads.ensured fun hf => ?_
  obtain ⟨ref, hr, hn⟩ : ∃ ref, plan.canonicalRef = some ref ∧ ref ≠ [] := by
    cases hr : plan.canonicalRef with
    | none => simp [hr] at hf
    | some ref => exact ⟨ref, rfl, by simpa [hr] using hf⟩
  rw [hr]
  refine Leads.bind (mark_named rfl) fun _ => Leads.after (named_stays ?_) fun _ =>
    Leads.bind (linkRelated_joinedAs hn) fun _ => Leads.done fun db hj => ⟨ref, hj⟩
  exact backfillRef_writes leavesCandidates_scope _

end

/-- The candidate is not resolved, or joined with its resolved relations. -/
def Settled (rules : SubstrateRules) (candidate : SubstrateCandidate) (db : SubstrateDb) : Prop :=
  (∃ row, db.candidates.get candidate.id = some row ∧ row.isResolved = false) ∨
    ∃ ref, JoinedAs rules candidate ref db

theorem mark_unresolved (hs : resolution.status ≠ .promoted) (hm : resolution.status ≠ .merged) :
    Leads rules (Present candidate) (markCandidateResolution candidate resolution)
      fun _ => Settled rules candidate := by
  intro db supply v after left hp hrt
  obtain ⟨row, hr, -⟩ := mark_row resolution _ _ _ _ _ hp hrt
  refine .inl ⟨_, hr, ?_⟩
  simp [isResolved, resolved, hs, hm]

theorem promotePattern_refused (hk : candidate.kind ≠ .pattern) (requireConstituents : Bool)
    (minConstituents : Nat) : Leads rules P
      (promotePatternSubstrateCandidate rules candidate requireConstituents minConstituents)
      fun _ _ => False :=
  Leads.ensured fun hp => absurd (of_decide_eq_true hp) hk

theorem answered_settles {answer : Fields} {promote : SubstrateTx PromotionResult}
    (hp : Leads rules (Present candidate) promote
      fun r => JoinedAs rules candidate r.canonicalRef) : Leads rules (Present candidate)
      (promote.bind fun r => markAnswered rules candidate answer plan r.canonicalRef)
      fun _ => Settled rules candidate := by
  refine hp.bind fun r s _ _ _ _ hs hd => .inr ⟨r.canonicalRef, ?_⟩
  exact markAnswered_joinedAs _ _ _ _ _ _ _ _ hs hd

theorem unresolved_settles (hs : resolution.status ≠ .promoted)
    (hm : resolution.status ≠ .merged) : Leads rules (Present candidate)
      ((markCandidateResolution candidate resolution).bind fun _ => .done plan)
      fun _ => Settled rules candidate :=
  Leads.bind (mark_unresolved hs hm) fun _ => Leads.done fun _ hse => hse

theorem applyPlan_settles (hk : candidate.kind ≠ .pattern)
    (hm : plan.action ≠ .merge) (hn : plan.action ≠ .noop)
    (hkp : plan.action ≠ .keepProvisional) :
    Leads rules (Present candidate) (applyPlan rules clock candidate answer plan)
      fun _ => Settled rules candidate := by
  unfold applyPlan
  split
  · exact unresolved_settles (by simp) (by simp)
  · next ha => exact absurd ha hm
  · exact answered_settles (promoteActor_joinedAs _)
  · exact answered_settles (promoteResource_joinedAs _)
  · exact answered_settles (promoteCommitment_joinedAs _)
  · refine Leads.bind (promotePattern_refused hk _ _) fun _ => ?_
    exact fun _ _ _ _ _ hf _ => hf.elim
  · intro db supply v after left hp hr
    exact .inr (applyLinkExisting_joinedAs _ _ _ _ _ _ _ hp hr)
  · exact unresolved_settles (by simp) (by simp)
  · next ha => exact absurd ha hn
  · next ha => exact absurd ha hkp

theorem autoPromote_settles (hk : candidate.kind ≠ .pattern) (hp : Present candidate db)
    (hr : Tx.Returns (apply rules)
      (autoPromoteCandidate rules clock candidate confidenceFloor commitmentConfidenceFloor) db
      supply v after left) : after = db ∨ Settled rules candidate after := by
  unfold autoPromoteCandidate at hr
  split at hr
  · obtain ⟨-, rfl, -⟩ := hr.ended
    exact .inl rfl
  · obtain ⟨plan, _, _, hpl, ht⟩ := hr.parts
    obtain ⟨-, rfl, rfl⟩ := returns_ofExcept.mp hpl
    have hs : ∀ {promote : SubstrateTx PromotionResult} {final : Option PromotionResult},
        Leads rules (Present candidate) promote (fun r => JoinedAs rules candidate r.canonicalRef) →
        Tx.Returns (apply rules) (promote.bind fun r => .done (some r)) db
          supply final after left → Settled rules candidate after := by
      intro promote final hpr hd
      obtain ⟨r, _, _, hprm, hl⟩ := hd.parts
      obtain ⟨-, rfl, -⟩ := hl.ended
      exact .inr ⟨r.canonicalRef, hpr _ _ _ _ _ hp hprm⟩
    split at ht
    · exact .inr (hs (promoteActor_joinedAs _) ht)
    · exact .inr (hs (promoteResource_joinedAs _) ht)
    · exact .inr (hs (promoteCommitment_joinedAs _) ht)
    · exact (promotePattern_refused hk _ _ _ _ _ _ _ hp ht).elim
    · obtain ⟨-, rfl, -⟩ := ht.ended
      exact .inl rfl

end Spared

def mergedRef (answer : Fields) (row : CandidateRow) : Option Fields :=
  match canonicalRefFromAnswer answer with
  | .ok canonicalRef => canonicalRef.or row.promotionRef
  | .error _ => none

/-- The call is the merge of one of the two into a row that no link joins with the row
of the other. -/
def MergesUnlinked (rules : SubstrateRules) (tenantId customerId commitmentId : Nat)
    (db : SubstrateDb) : SubstrateCall → Prop
  | .answer _ tenant id answer =>
    tenant = tenantId ∧ answerAction rules answer = some .merge ∧
      ∃ row ref resourceId commitment, db.candidates.get id = some row ∧
        mergedRef answer row = some ref ∧
        db.customerCommitments.get (resourceId, commitment) = none ∧
        (id = customerId ∧ customerResourceIdFromRef rules ref row.kind = some resourceId ∧
            canonicalCommitment rules db commitmentId = some commitment ∨
          id = commitmentId ∧ commitmentIdFromRef rules ref = some commitment ∧
            canonicalCustomer rules db customerId = some resourceId)
  | _ => False

/-- Candidates are resolved by promotions and answers: a discovery comes with none of
their statuses. -/
def OnlyDiscovers : SubstrateCall → Prop
  | .upsert args => args.status ≠ "promoted" ∧ args.status ≠ "merged"
  | _ => True

section Pair

variable {rules : SubstrateRules} {tenantId customerId commitmentId : Nat}
  {db after : SubstrateDb} {candidate : SubstrateCandidate}

theorem linkedOnce_iff : LinkedOnce rules customerId commitmentId db ↔
    ∀ resourceId commitment, canonicalCustomer rules db customerId = some resourceId →
      canonicalCommitment rules db commitmentId = some commitment →
      (db.customerCommitments.get (resourceId, commitment)).isSome := by
  simp [LinkedOnce, count_link_eq_one_iff]

theorem Related.ne (hrl : Related tenantId customerId commitmentId db) :
    customerId ≠ commitmentId := by
  rintro rfl
  obtain ⟨⟨row, hr, hcs⟩, other, ho, hc⟩ := hrl
  rw [hr] at ho
  cases ho
  have hs := hcs.kind.symm.trans hc.kind
  cases hs

variable {id target newId supply left : Nat} {row excluded : CandidateRow} {ref answer : Fields}
  {kind : SubstrateKind} {plan : CandidatePromotionPlan}

theorem canonicalCustomer_eq_some (hc : canonicalCustomer rules db id = some resourceId) :
    ∃ row ref, db.candidates.get id = some row ∧ row.isResolved ∧
      row.promotionRef = some ref ∧ customerResourceIdFromRef rules ref row.kind = some resourceId := by
  obtain ⟨row, hr, hrs⟩ := bind_eq_some_iff.mp hc
  obtain ⟨ref, hrf, hi⟩ := bind_eq_some_iff.mp hrs
  rw [canonicalRef] at hrf
  split at hrf
  · next his => exact ⟨row, ref, hr, his, hrf, hi⟩
  · cases hrf

theorem canonicalCommitment_eq_some (hc : canonicalCommitment rules db id = some commitment) :
    ∃ row ref, db.candidates.get id = some row ∧ row.isResolved ∧
      row.promotionRef = some ref ∧ commitmentIdFromRef rules ref = some commitment := by
  obtain ⟨row, hr, hrs⟩ := bind_eq_some_iff.mp hc
  obtain ⟨ref, hrf, hi⟩ := bind_eq_some_iff.mp hrs
  rw [canonicalRef] at hrf
  split at hrf
  · next his => exact ⟨row, ref, hr, his, hrf, hi⟩
  · cases hrf

theorem CandidateRow.linkRef_of_promoted
    (hp : row.promotionRef = some ref) : row.linkRef = some ref := by
  rw [linkRef, hp, some_or]

section

variable (hs : Spared target db after)

include hs

theorem Spared.lists (hls : ∃ row, db.candidates.get id = some row ∧
    Lists tenantId kind other row) : ∃ row, after.candidates.get id = some row ∧
    Lists tenantId kind other row := by
  obtain ⟨row, hr, hls⟩ := hls
  by_cases ho : id = target
  · subst ho
    obtain ⟨u, hl, ht, hk, hrl⟩ := hs.own row hr
    exact ⟨u, hl, ht.trans hls.tenant, hk.trans hls.kind, hrl ▸ hls.lists⟩
  · exact ⟨row, (hs.others id ho).trans hr, hls⟩

theorem Spared.related (hr : Related tenantId customerId commitmentId db) :
    Related tenantId customerId commitmentId after :=
  ⟨hs.lists hr.customer, hs.lists hr.commitment⟩

theorem Spared.linkedOnce (hcs : customerId ≠ target) (hc : commitmentId ≠ target)
    (hl : LinkedOnce rules customerId commitmentId db) :
    LinkedOnce rules customerId commitmentId after := by
  rw [linkedOnce_iff] at hl ⊢
  intro resourceId commitment
  rw [canonicalCustomer, hs.others customerId hcs, canonicalCommitment, hs.others commitmentId hc]
  exact fun hr hf => hs.links _ (hl resourceId commitment hr hf)

end

theorem Settled.joined (hs : Settled rules candidate db)
    (hr : db.candidates.get candidate.id = some row) (hrs : row.isResolved)
    (hrf : row.promotionRef = some ref) : Joined rules candidate ref db := by
  rcases hs with ⟨own, hw, ho⟩ | ⟨joinedRef, ⟨own, hw, -, how⟩, hj⟩
  · rw [hr] at hw
    cases hw
    rw [hrs] at ho
    cases ho
  · rw [hr] at hw
    cases hw
    rw [hrf] at how
    cases how
    exact hj

theorem Settled.customer_linked (hs : Settled rules candidate db)
    (hi : candidate.id = customerId) (hk : candidate.kind = .customer)
    (ht : candidate.tenantId = tenantId) (hls : commitmentId ∈ candidate.relatedCandidateIds)
    (hrl : Related tenantId customerId commitmentId db) :
    LinkedOnce rules customerId commitmentId db := by
  rw [linkedOnce_iff]
  intro resourceId commitment hrs hc
  obtain ⟨row, ref, hr, hre, hrf, hi'⟩ := canonicalCustomer_eq_some hrs
  obtain ⟨other, otherRef, ho, hother, hoth, hotherId⟩ :=
    canonicalCommitment_eq_some hc
  obtain ⟨listed, hl, hcs⟩ := hrl.customer
  rw [hr] at hl
  cases hl
  obtain ⟨found, hf, hcm⟩ := hrl.commitment
  rw [ho] at hf
  cases hf
  refine hs.joined (hi ▸ hr) hre hrf commitmentId other (resourceId, commitment)
    (hi ▸ hrl.ne.symm) hls ho (hcm.tenant.trans ht.symm) hother ?_
  rw [hk, ← hcs.kind, hi', linkedPair, linkRef_of_promoted hoth]
  simp [hcm.kind, hotherId]

theorem customerResourceIdFromRef_commitment
    (hc : commitmentIdFromRef rules ref = some commitment) :
    customerResourceIdFromRef rules ref kind = none := by
  unfold commitmentIdFromRef at hc
  split at hc
  · next ht => simp [customerResourceIdFromRef, ht]
  · cases hc

theorem Settled.commitment_linked (hs : Settled rules candidate db)
    (hi : candidate.id = commitmentId) (ht : candidate.tenantId = tenantId)
    (hl : customerId ∈ candidate.relatedCandidateIds)
    (hrl : Related tenantId customerId commitmentId db) :
    LinkedOnce rules customerId commitmentId db := by
  rw [linkedOnce_iff]
  intro resourceId commitment hrs hc
  obtain ⟨row, ref, hr, hre, hrf, hi'⟩ := canonicalCommitment_eq_some hc
  obtain ⟨other, otherRef, ho, hother, hoth, hotherId⟩ :=
    canonicalCustomer_eq_some hrs
  obtain ⟨found, hf, hcs⟩ := hrl.customer
  rw [ho] at hf
  cases hf
  refine hs.joined (hi ▸ hr) hre hrf customerId other (resourceId, commitment)
    (hi ▸ hrl.ne) hl ho (hcs.tenant.trans ht.symm) hother ?_
  rw [customerResourceIdFromRef_commitment hi', hi', linkedPair, linkRef_of_promoted hoth]
  simp [hcs.kind, ← hotherId]

theorem mem_distinctIds : id ∈ distinctIds ids others ↔ id ∈ ids ∨ id ∈ others := by
  simp [distinctIds]

theorem mergedWith_isResolved (ho : excluded.isResolved = false)
    (hr : (row.mergedWith rules excluded).isResolved) : row.isResolved := by
  have hs : row.status.mergedWith excluded.status = .promoted ∨
      row.status.mergedWith excluded.status = .merged := of_decide_eq_true hr
  unfold SubstrateStatus.mergedWith at hs
  split at hs
  · next hp => exact decide_eq_true (.inl hp)
  · split at hs
    · exact absurd hs (of_decide_eq_false ho)
    · exact decide_eq_true hs

theorem discovery_lists
    (hls : ∃ row, db.candidates.get id = some row ∧ Lists tenantId kind other row) :
    ∃ row, (db.apply rules (.upsertCandidate newId excluded)).candidates.get id = some row ∧
      Lists tenantId kind other row := by
  obtain ⟨row, hr, hls⟩ := hls
  obtain ⟨u, hl, rfl | ⟨-, rfl⟩⟩ := get_upsertCandidate rules newId excluded hr
  · exact ⟨u, hl, hls⟩
  · exact ⟨_, hl, hls.tenant, hls.kind, mem_distinctIds.mpr (.inl hls.lists)⟩

theorem discovery_canonicalRef (ho : excluded.isResolved = false)
    (hr : db.candidates.get id = some row)
    (hl : (db.apply rules (.upsertCandidate newId excluded)).candidates.get id = some u)
    (hrs : u.isResolved) (hrf : u.promotionRef = some ref) :
    u.kind = row.kind ∧ row.canonicalRef = some ref := by
  obtain ⟨found, hf, rfl | ⟨-, rfl⟩⟩ := get_upsertCandidate rules newId excluded hr
  · rw [hl] at hf
    cases hf
    exact ⟨rfl, by rw [canonicalRef, if_pos hrs, hrf]⟩
  · rw [hl] at hf
    cases hf
    refine ⟨rfl, ?_⟩
    rw [canonicalRef, if_pos (mergedWith_isResolved ho hrs)]
    exact hrf

theorem discovery_related (hr : Related tenantId customerId commitmentId db) :
    Related tenantId customerId commitmentId (db.apply rules (.upsertCandidate newId excluded)) :=
  ⟨discovery_lists hr.customer, discovery_lists hr.commitment⟩

theorem discovery_linkedOnce (hop : excluded.isResolved = false)
    (hrl : Related tenantId customerId commitmentId db)
    (hl : LinkedOnce rules customerId commitmentId db) : LinkedOnce rules customerId commitmentId
      (db.apply rules (.upsertCandidate newId excluded)) := by
  rw [linkedOnce_iff] at hl ⊢
  intro resourceId commitment hrs hc
  obtain ⟨row, ref, hr, hre, hrf, hi⟩ := canonicalCustomer_eq_some hrs
  obtain ⟨other, otherRef, ho, hother, hotherRef, hotherId⟩ :=
    canonicalCommitment_eq_some hc
  obtain ⟨customer, hcs, -⟩ := hrl.customer
  obtain ⟨found, hf, -⟩ := hrl.commitment
  obtain ⟨hk, hb⟩ := discovery_canonicalRef hop hcs hr hre hrf
  obtain ⟨-, hoth⟩ := discovery_canonicalRef hop hf ho hother hotherRef
  refine links_apply _ (hl resourceId commitment ?_ ?_)
  · rw [canonicalCustomer, hcs, bind_some, hb, bind_some, ← hk, hi]
  · rw [canonicalCommitment, hf, bind_some, hoth, bind_some, hotherId]

theorem returns_validate (hr : Tx.Returns (apply rules) (validateCandidateInputs rules a) db supply
      named after left) : named.2.text = a.status ∧ db = after ∧ supply = left := by
  obtain ⟨kind, _, _, hk, ht⟩ := hr.parts
  obtain ⟨-, rfl, rfl⟩ := Tx.returns_orRaise.mp hk
  obtain ⟨status, _, _, hst, hc⟩ := ht.parts
  obtain ⟨hf, rfl, rfl⟩ := Tx.returns_orRaise.mp hst
  simp only [Tx.bind_eq_bind, Tx.returns_bind, Tx.returns_ensure, Tx.pure_eq_done,
    Tx.returns_done] at hc
  obtain ⟨_, _, _, ⟨-, rfl, rfl⟩, _, _, _, ⟨-, rfl, rfl⟩, _, _, _, ⟨-, rfl, rfl⟩, rfl, ha, hl⟩ := hc
  have hs := List.find?_some hf
  exact ⟨by simpa using hs, ha, hl⟩

theorem returns_upsert (hr : Tx.Returns (apply rules) (upsertSubstrateCandidate rules a) db supply
      v after left) :
    ∃ newId excluded, after = db.apply rules (.upsertCandidate newId excluded) ∧
      excluded.status.text = a.status := by
  obtain ⟨⟨kind, status⟩, _, _, hv, ht⟩ := hr.parts
  obtain ⟨hs, rfl, rfl⟩ := returns_validate hv
  obtain ⟨_, _, _, hw, hrd⟩ := returns_bind.mp (returns_newId_bind.mp ht)
  obtain ⟨-, rfl, -⟩ := returns_constrained.mp hw
  obtain ⟨-, rfl, -⟩ := returns_read.mp hrd
  exact ⟨_, _, rfl, hs⟩

theorem returns_onCandidate (hrt : Tx.Returns (apply rules) (onCandidate tenant id body) db supply v
      after left) : after = db ∧ (∀ row, db.candidates.get id = some row → row.tenantId ≠ tenant) ∨
      ∃ row : CandidateRow, db.candidates.get id = some row ∧ row.tenantId = tenant ∧
        Tx.Returns (apply rules) (body { row with id }) db supply v after left := by
  rcases returns_forSome.mp hrt with
    ⟨hm, rfl, -⟩ | ⟨candidate, hf, hb⟩
  · left
    refine ⟨rfl, fun row hr ht => ?_⟩
    simp [hr, ht, Option.filter] at hm
  · obtain ⟨row, hr, rfl⟩ := map_eq_some_iff.mp hf
    obtain ⟨hg, ht⟩ := filter_eq_some_iff.mp hr
    exact .inr ⟨row, hg, of_decide_eq_true ht, hb⟩

theorem settled_linkedOnce (hrl : Related tenantId customerId commitmentId db)
    (hl : LinkedOnce rules customerId commitmentId db) (hr : db.candidates.get id = some row)
    (hsp : Spared id db after) (hs : row.kind ≠ .pattern →
      after = db ∨ Settled rules { row with id } after) :
    LinkedOnce rules customerId commitmentId after := by
  by_cases hcs : id = customerId
  · subst hcs
    obtain ⟨found, hf, hls⟩ := hrl.customer
    rw [hr] at hf
    cases hf
    rcases hs (by simp [hls.kind]) with rfl | hs
    · exact hl
    · exact hs.customer_linked rfl hls.kind hls.tenant hls.lists (hsp.related hrl)
  · by_cases hc : id = commitmentId
    · subst hc
      obtain ⟨found, hf, hls⟩ := hrl.commitment
      rw [hr] at hf
      cases hf
      rcases hs (by simp [hls.kind]) with rfl | hs
      · exact hl
      · exact hs.commitment_linked rfl hls.tenant hls.lists (hsp.related hrl)
    · exact hsp.linkedOnce (Ne.symm hcs) (Ne.symm hc) hl

def OnlyScopes : SubstrateWrite → Prop
  | .setModelScopes _ _ _ _ | .upsertScopeActor _ _ _ | .upsertScopeEntity _ _ _ _ => True
  | _ => False

theorem applyMerge_effect (hp : Present candidate db)
    (hrt : Tx.Returns (apply rules) (applyMerge rules clock candidate answer plan)
      db supply v after left) :
    ∃ (row : CandidateRow) (resolution : Resolution), db.candidates.get candidate.id = some row ∧
        after.candidates.get candidate.id = some (row.resolved resolution) ∧
        resolution.status = .merged ∧ resolution.promotionRef = plan.canonicalRef ∧
        after.customerCommitments = db.customerCommitments := by
  obtain ⟨row, hr, ht⟩ := hp
  obtain ⟨mergeTargetId, _, _, htg, hrs⟩ := hrt.parts
  obtain ⟨-, rfl, rfl⟩ := returns_ofExcept.mp htg
  obtain ⟨_, _, _, he, hmk⟩ := hrs.parts
  obtain ⟨-, rfl, rfl⟩ := returns_ensure.mp he
  obtain ⟨_, marked, _, hmr, hb⟩ := hmk.parts
  obtain ⟨-, hm, -⟩ := returns_constrained.mp hmr
  obtain ⟨_, _, _, hsc, hd⟩ := hb.parts
  obtain ⟨-, rfl, -⟩ := hd.ended
  have hw : Writes OnlyScopes
      (backfillCanonicalRefForCandidate rules clock candidate plan.canonicalRef) :=
    backfillRef_writes (fun _ => ⟨fun _ _ => trivial, fun _ => trivial, fun _ _ => trivial⟩) _
  have hs := hw.of_returns (P := fun s => s.candidates = marked.candidates ∧
      s.customerCommitments = marked.customerCommitments)
    (fun s w hs ho => by cases w <;> first | exact hs | exact ho.elim)
    ⟨rfl, rfl⟩ hsc
  have hg := get_resolveCandidate rules db candidate.tenantId candidate.id candidate.id
    { status := .merged
      promotionRef := plan.canonicalRef
      mergeTargetId := mergeTargetId
      metadataPatch :=
        [("resolution_answer", .object answer), ("resolution", .string "merge")] }
  rw [← hm, ← hs.1, hr, map_some, if_pos ⟨rfl, ht⟩] at hg
  refine ⟨row, _, hr, hg, rfl, rfl, hs.2.trans ?_⟩
  rw [hm]
  rfl

theorem CandidateRow.resolved_merged (hm : resolution.status = .merged) :
    (row.resolved resolution).canonicalRef = resolution.promotionRef.or row.promotionRef := by
  rw [canonicalRef, if_pos]
  · rfl
  · exact decide_eq_true (.inr hm)

theorem merge_linkedOnce_iff (hrl : Related tenantId customerId commitmentId db)
    (hr : db.candidates.get id = some row) (hac : answerAction rules answer = some .merge)
    (hcn : canonicalRefFromAnswer answer = .ok plan.canonicalRef)
    (hlnk : LinkedOnce rules customerId commitmentId db)
    (hrt : Tx.Returns (apply rules)
      (applyMerge rules clock { row with id } answer plan) db supply v after left) :
    LinkedOnce rules customerId commitmentId after ↔
      ¬ MergesUnlinked rules tenantId customerId commitmentId db
        (.answer clock row.tenantId id answer) := by
  have hsp : Spared id db after :=
    (applyMerge_writes allows_spares answer plan).spared _ _ _ _ _ .refl hrt
  obtain ⟨found, resolution, hf, hl, hmr, hrf, hln⟩ := applyMerge_effect ⟨row, hr, rfl⟩ hrt
  rw [show db.candidates.get ({ row with id } : SubstrateCandidate).id = some row from hr] at hf
  cases hf
  have ha : (row.resolved resolution).canonicalRef = mergedRef answer row := by
    rw [resolved_merged hmr, hrf, mergedRef, hcn]
  have hl' : after.candidates.get id = some (row.resolved resolution) := hl
  have hcs : canonicalCustomer rules after id = (mergedRef answer row).bind fun ref =>
      customerResourceIdFromRef rules ref row.kind := by
    rw [canonicalCustomer, hl', bind_some, ha]
    rfl
  have hc : canonicalCommitment rules after id = (mergedRef answer row).bind fun ref =>
      commitmentIdFromRef rules ref := by
    rw [canonicalCommitment, hl', bind_some, ha]
  have ht : id = customerId ∨ id = commitmentId → row.tenantId = tenantId := by
    rintro (rfl | rfl)
    · obtain ⟨found, hf, hls⟩ := hrl.customer
      rw [hr] at hf
      cases hf
      exact hls.tenant
    · obtain ⟨found, hf, hls⟩ := hrl.commitment
      rw [hr] at hf
      cases hf
      exact hls.tenant
  constructor
  · rintro hb ⟨-, -, found, ref, resourceId, commitment, hf, hm, hn, hon⟩
    rw [hr] at hf
    cases hf
    have hs := linkedOnce_iff.mp hb resourceId commitment
    rw [hln, hn] at hs
    rcases hon with ⟨rfl, hrs, ho⟩ | ⟨rfl, hw, ho⟩
    · refine absurd (hs ?_ ?_) (by simp)
      · rw [hcs, hm, bind_some, hrs]
      · rw [canonicalCommitment, hsp.others _ hrl.ne.symm]
        exact ho
    · refine absurd (hs ?_ ?_) (by simp)
      · rw [canonicalCustomer, hsp.others _ hrl.ne]
        exact ho
      · rw [hc, hm, bind_some, hw]
  · intro hnt
    by_cases hi : id = customerId
    · subst hi
      rw [linkedOnce_iff]
      intro resourceId commitment hrs ho
      rw [hcs] at hrs
      obtain ⟨ref, hm, hrs⟩ := bind_eq_some_iff.mp hrs
      rw [canonicalCommitment, hsp.others _ hrl.ne.symm] at ho
      by_contra hn
      rw [hln, not_isSome_iff_eq_none] at hn
      exact hnt ⟨ht (.inl rfl), hac, row, ref, resourceId, commitment, hr, hm, hn,
        .inl ⟨rfl, hrs, ho⟩⟩
    · by_cases hi' : id = commitmentId
      · subst hi'
        rw [linkedOnce_iff]
        intro resourceId commitment ho hw
        rw [hc] at hw
        obtain ⟨ref, hm, hw⟩ := bind_eq_some_iff.mp hw
        rw [canonicalCustomer, hsp.others _ hrl.ne] at ho
        by_contra hn
        rw [hln, not_isSome_iff_eq_none] at hn
        exact hnt ⟨ht (.inr rfl), hac, row, ref, resourceId, commitment, hr, hm,
          hn, .inr ⟨rfl, hw, ho⟩⟩
      · exact hsp.linkedOnce (Ne.symm hi) (Ne.symm hi') hlnk

theorem planFromAnswer_merge (ha : answerAction rules answer = some .merge)
    (hp : planFromAnswer rules candidate answer = .ok plan) :
    canonicalRefFromAnswer answer = .ok plan.canonicalRef := by
  rw [planFromAnswer, ha] at hp
  obtain ⟨canonicalRef, hc, hd⟩ := bind_eq_ok_iff.mp hp
  cases hd
  exact hc

section

variable (hrl : Related tenantId customerId commitmentId db)

include hrl

theorem call_related
    (hrt : Tx.Returns (apply rules) (substrateProgram rules call) db supply () after left) :
    Related tenantId customerId commitmentId after := by
  cases call with
  | upsert a =>
    obtain ⟨_, _, _, hu, hd⟩ := hrt.parts
    obtain ⟨-, rfl, -⟩ := hd.ended
    obtain ⟨newId, excluded, rfl, -⟩ := returns_upsert hu
    exact discovery_related hrl
  | autoPromote clock tenant id confidenceFloor commitmentConfidenceFloor =>
    rcases returns_onCandidate hrt with ⟨rfl, -⟩ | ⟨row, hr, -, hb⟩
    · exact hrl
    · exact (spared ((autoPromote_writes allows_spares.toAllowsCall _ _).bind fun _ => done)
        _ _ _ _ _ Spared.refl hb).related hrl
  | answer clock tenant id answer =>
    rcases returns_onCandidate hrt with ⟨rfl, -⟩ | ⟨row, hr, -, hb⟩
    · exact hrl
    · exact (spared ((applyAnswer_writes allows_spares _).bind fun _ => done)
        _ _ _ _ _ Spared.refl hb).related hrl

theorem call_linkedOnce_iff (hl : LinkedOnce rules customerId commitmentId db)
    (hon : OnlyDiscovers call)
    (hrt : Tx.Returns (apply rules) (substrateProgram rules call) db supply () after left) :
    LinkedOnce rules customerId commitmentId after ↔
    ¬ MergesUnlinked rules tenantId customerId commitmentId db call := by
  cases call with
  | upsert a =>
    obtain ⟨_, _, _, hu, hd⟩ := hrt.parts
    obtain ⟨-, rfl, -⟩ := hd.ended
    obtain ⟨newId, excluded, rfl, hst⟩ := returns_upsert hu
    have ho : excluded.isResolved = false := by
      apply decide_eq_false
      rintro (hp | hme)
      · exact hon.1 (by rw [← hst, hp]; rfl)
      · exact hon.2 (by rw [← hst, hme]; rfl)
    exact ⟨fun _ hfl => hfl, fun _ => discovery_linkedOnce ho hrl hl⟩
  | autoPromote clock tenant id confidenceFloor commitmentConfidenceFloor =>
    refine ⟨fun _ hfl => hfl, fun _ => ?_⟩
    rcases returns_onCandidate hrt with ⟨rfl, -⟩ | ⟨row, hr, -, hb⟩
    · exact hl
    · have hs : Spared id db after := spared
        ((autoPromote_writes allows_spares.toAllowsCall _ _).bind fun _ => done) _ _ _ _ _ Spared.refl
        hb
      refine settled_linkedOnce hrl hl hr hs fun hk => ?_
      obtain ⟨_, _, _, hat, hd⟩ := hb.parts
      obtain ⟨-, rfl, -⟩ := hd.ended
      exact autoPromote_settles hk ⟨row, hr, rfl⟩ hat
  | answer clock tenant id answer =>
    rcases returns_onCandidate hrt with ⟨rfl, hms⟩ | ⟨row, hr, rfl, hb⟩
    · refine ⟨fun _ hmr => ?_, fun _ => hl⟩
      obtain ⟨rfl, -, row, _, _, _, hr, -, -, ⟨rfl, -⟩ | ⟨rfl, -⟩⟩ := hmr
      · obtain ⟨found, hf, hls⟩ := hrl.customer
        exact hms found hf hls.tenant
      · obtain ⟨found, hf, hls⟩ := hrl.commitment
        exact hms found hf hls.tenant
    · have hs : Spared id db after := spared
        ((applyAnswer_writes allows_spares _).bind fun _ => done) _ _ _ _ _ Spared.refl hb
      obtain ⟨_, _, _, ha, hd⟩ := hb.parts
      obtain ⟨-, rfl, -⟩ := hd.ended
      obtain ⟨plan, _, _, hpl, hap⟩ := ha.parts
      obtain ⟨hpln, rfl, rfl⟩ := returns_ofExcept.mp hpl
      have hac := (planFromAnswer_spec hpln).1
      by_cases hm : plan.action = .merge
      · rw [hm] at hac
        simp only [applyPlan, hm] at hap
        exact merge_linkedOnce_iff hrl hr hac (planFromAnswer_merge hac hpln) hl hap
      · refine ⟨fun _ hmr => ?_, fun _ => ?_⟩
        · rw [hmr.2.1] at hac
          exact hm (Option.some.inj hac).symm
        · obtain ⟨hn, hkp⟩ := actionOfWord_ne hac
          refine settled_linkedOnce hrl hl hr hs fun hk => .inr ?_
          exact applyPlan_settles hk hm hn hkp _ _ _ _ _ ⟨row, hr, rfl⟩ hap

end

/-- In every run the two candidates are linked once both have canonical rows, as long as
no merge leaves them unlinked; and such a merge does. -/
theorem linked_in_every_order {start db : Database SubstrateDb}
    (hrelated : Related tenantId customerId commitmentId start.state)
    (hstart : LinkedOnce rules customerId commitmentId start.state)
    (hreach : Transition.Reach (Database.step (apply rules) (substrateProgram rules))
      (fun db call => OnlyDiscovers call ∧
        ¬ MergesUnlinked rules tenantId customerId commitmentId db.state call) start db) :
    LinkedOnce rules customerId commitmentId db.state ∧ ∀ call after left, OnlyDiscovers call →
        Tx.Returns (apply rules) (substrateProgram rules call) db.state db.supply ()
          after left → (LinkedOnce rules customerId commitmentId after ↔
          ¬ MergesUnlinked rules tenantId customerId commitmentId db.state call) := by
  have hboth : Related tenantId customerId commitmentId db.state ∧
      LinkedOnce rules customerId commitmentId db.state := by
    refine Database.invariant_of_returns (P := fun state =>
      Related tenantId customerId commitmentId state ∧ LinkedOnce rules customerId commitmentId state)
      hreach ⟨hrelated, hstart⟩ ?_
    rintro before call ⟨⟩ after left ⟨hbefore, hlinked⟩ ⟨honly, hallowed⟩ hreturns
    exact ⟨call_related hbefore hreturns,
      (call_linkedOnce_iff hbefore hlinked honly hreturns).mpr hallowed⟩
  exact ⟨hboth.2, fun call after left honly hreturns =>
    call_linkedOnce_iff hboth.1 hboth.2 honly hreturns⟩

end Pair

def acmeRow : CandidateRow where
  tenantId := 1
  kind := .customer
  label := "Acme"
  confidence := 9 / 10
  fingerprint := "acme"
  evidenceObservationIds := [40]
  relatedCandidateIds := [21]

def deliveryRow : CandidateRow where
  tenantId := 1
  kind := .commitment
  label := "Deliver to Acme"
  confidence := 9 / 10
  fingerprint := "deliver"
  evidenceObservationIds := [40]
  relatedCandidateIds := [20]

def acmeDelivery : Database SubstrateDb where
  state :=
    { acts :=
        { tenants := [1]
          observations := (∅ : Table Nat Acts.ObservationRow).put 40
            { tenantId := 1
              occurredAt := 0
              ingestedAt := 0
              content := .lifecycle 0 "seen" none none
              contentText := "seen"
              causeId := none
              entitiesMentioned := [] } }
      candidates := ((∅ : Table Nat CandidateRow).put 20 acmeRow).put 21 deliveryRow
      resources := (∅ : Table Nat ResourceRow).put 30
        { tenantId := 1, kind := .relational, identity := "Acme Inc", currentValue := [] } }
  supply := 100

def atZero : Clock where
  processNow := 0
  transactionNow := 0

def afterDelivery (call : SubstrateCall) : Database SubstrateDb :=
  (acmeDelivery.run (apply plainRules) (substrateProgram plainRules
    (.autoPromote atZero 1 21 (72 / 100) (78 / 100)))).run (apply plainRules)
      (substrateProgram plainRules call)

theorem related_acmeDelivery : Related 1 20 21 acmeDelivery.state where
  customer := ⟨acmeRow, rfl, rfl, rfl, mem_singleton_self _⟩
  commitment := ⟨deliveryRow, rfl, rfl, rfl, mem_singleton_self _⟩

theorem linked_in_every_order_delivery : LinkedOnce plainRules 20 21
        (afterDelivery (.autoPromote atZero 1 20 (72 / 100) (78 / 100))).state ∧
      canonicalCustomer plainRules
        (afterDelivery (.autoPromote atZero 1 20 (72 / 100) (78 / 100))).state 20 = some 102 ∧
      canonicalCommitment plainRules
        (afterDelivery (.autoPromote atZero 1 20 (72 / 100) (78 / 100))).state 21 = some 100 := by
  have hstart : LinkedOnce plainRules 20 21 acmeDelivery.state := by
    intro resourceId commitment hresource
    cases hresource
  refine ⟨(linked_in_every_order related_acmeDelivery hstart ?_).1, by decide +kernel,
    by decide +kernel⟩
  have hcommitment : Transition.Reach
      (Database.step (apply plainRules) (substrateProgram plainRules))
      (fun db call => OnlyDiscovers call ∧ ¬ MergesUnlinked plainRules 1 20 21 db.state call)
      acmeDelivery (acmeDelivery.run (apply plainRules) (substrateProgram plainRules
        (.autoPromote atZero 1 21 (72 / 100) (78 / 100)))) :=
    Transition.Reach.start.next (a := .autoPromote atZero 1 21 (72 / 100) (78 / 100))
      ⟨trivial, id⟩ rfl
  exact hcommitment.next (a := .autoPromote atZero 1 20 (72 / 100) (78 / 100)) ⟨trivial, id⟩ rfl

def sameAsAcmeInc : Fields :=
  [("action", .string "merge"),
    ("canonical_ref", .object [("type", .string "resource"), ("id", .string "30")])]

/-- The customer is merged after the commitment was promoted: both have canonical rows,
and no row joins them. -/
theorem merged_second_unlinked : Related 1 20 21 acmeDelivery.state ∧
      canonicalCustomer plainRules (afterDelivery (.answer atZero 1 20 sameAsAcmeInc)).state 20 =
        some 30 ∧
      canonicalCommitment plainRules (afterDelivery (.answer atZero 1 20 sameAsAcmeInc)).state 21 =
        some 100 ∧
      ¬ LinkedOnce plainRules 20 21 (afterDelivery (.answer atZero 1 20 sameAsAcmeInc)).state := by
  refine ⟨related_acmeDelivery, by decide +kernel, by decide +kernel, fun hlinked => ?_⟩
  have hone := hlinked 30 100 (by decide +kernel) (by decide +kernel)
  revert hone
  decide +kernel

end FyralisCore.Substrate
