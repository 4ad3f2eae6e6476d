import FyralisCore.Models.Archive
import FyralisCore.Models.BatchPlan
import FyralisCore.Models.InsertEffects

/-! The dual write of a model's relations, as typed edges and in its array
columns: what the calls of the model repository do to the agreement that the
drift worker checks. -/
namespace FyralisCore.Models

open Relational Transaction Transition List RegistryKind ModelDb

variable {rules : InsertRules} {db m after : ModelDb} {n left now : Nat}

structure ArraysAgree (db : ModelDb) (modelId : Nat) (row : ModelRow) : Prop where
  supporting : ∀ item, item ∈ row.supportingModelIds ↔
    ActiveAt db ⟨row.tenantId, item, modelId, supports⟩ ∨
      ActiveAt db ⟨row.tenantId, modelId, item, instanceOf⟩
  contributing : ∀ item, item ∈ row.contributingModels ↔
    ActiveAt db ⟨row.tenantId, item, modelId, contributesToResolution⟩

def DualWritten (db : ModelDb) : Prop :=
  ∀ modelId row, db.models.get modelId = some row → row.status = .active →
    ArraysAgree db modelId row

def ListedAt (key : EdgeKey) (modelId : Nat) : Prop :=
  (key.target = modelId ∧ (key.kind = supports ∨ key.kind = contributesToResolution)) ∨
    (key.source = modelId ∧ key.kind = instanceOf)

section

variable (tenantId source target : Nat)

theorem listedAt_supports : ListedAt ⟨tenantId, source, target, supports⟩ target :=
  .inl ⟨rfl, .inl rfl⟩

theorem listedAt_contributes : ListedAt ⟨tenantId, source, target,
    contributesToResolution⟩ target :=
  .inl ⟨rfl, .inr rfl⟩

theorem listedAt_instanceOf : ListedAt ⟨tenantId, source, target, instanceOf⟩ source :=
  .inr ⟨rfl, rfl⟩

end

variable {key : EdgeKey} {modelId : Nat} {proposed : ModelCreate} {args : RelationArgs}

theorem ListedAt.unique (hl : ListedAt key modelId)
    (ho : ListedAt key other) : modelId = other := by
  rcases hl with ⟨rfl, hk⟩ | ⟨rfl, hk⟩ <;> rcases ho with ⟨rfl, hk'⟩ | ⟨rfl, hk'⟩
  · rfl
  · rcases hk with hk | hk <;> rw [hk] at hk' <;> cases hk'
  · rcases hk' with hk' | hk' <;> rw [hk] at hk' <;> cases hk'
  · rfl

theorem arraysAgree_congr (he : ∀ key, ListedAt key modelId → key.tenantId = row.tenantId →
      (ActiveAt after key ↔ ActiveAt db key)) :
    ArraysAgree after modelId row ↔ ArraysAgree db modelId row := by
  have hs := fun item => he _ (listedAt_supports row.tenantId item modelId) rfl
  have hi := fun item => he _ (listedAt_instanceOf row.tenantId modelId item) rfl
  have hc := fun item => he _ (listedAt_contributes row.tenantId item modelId) rfl
  constructor
  · rintro ⟨hsp, hcb⟩
    exact ⟨fun item => by rw [hsp, hs, hi], fun item => by rw [hcb, hc]⟩
  · rintro ⟨hsp, hcb⟩
    exact ⟨fun item => by rw [hsp, hs, hi], fun item => by rw [hcb, hc]⟩

/-- A call that leaves the other models and their listed edges alone keeps the
contract if the models it touches satisfy it. -/
theorem DualWritten.touch (touched : Nat → Prop) (hb : DualWritten db)
    (hmd : ∀ modelId, ¬ touched modelId → after.models.get modelId = db.models.get modelId)
    (he : ∀ key modelId, ¬ touched modelId → ListedAt key modelId →
      after.edges.get key = db.edges.get key)
    (ht : ∀ modelId row, touched modelId → after.models.get modelId = some row →
      row.status = .active → ArraysAgree after modelId row) : DualWritten after := by
  intro modelId row hr ha
  by_cases hm : touched modelId
  · exact ht modelId row hm hr ha
  · rw [hmd modelId hm] at hr
    exact (arraysAgree_congr fun key hl _ => activeAt_congr (he key modelId hm hl)).mpr
      (hb modelId row hr ha)

/-- The edges that stand at an identifier before its model is inserted are
active ones to models that the draft lists. -/
structure EdgesListed (db : ModelDb) (modelId : Nat) (proposed : ModelCreate) : Prop where
  supports : ∀ item, ActiveAt db ⟨proposed.tenantId, item, modelId, supports⟩ →
    item ∈ proposed.supportingModelIds
  instanceOf : ∀ item, ActiveAt db ⟨proposed.tenantId, modelId, item, instanceOf⟩ →
    item ∈ proposed.supportingModelIds
  contributes : ∀ item,
    ActiveAt db ⟨proposed.tenantId, item, modelId, contributesToResolution⟩ →
      item ∈ proposed.contributingModels
  freshSupports : ∀ item ∈ proposed.supportingModelIds,
    ¬ StaleAt db ⟨proposed.tenantId, item, modelId, RegistryKind.supports⟩
  freshContributes : ∀ item ∈ proposed.contributingModels,
    ¬ StaleAt db ⟨proposed.tenantId, item, modelId, contributesToResolution⟩

theorem EdgesListed.congr (hl : EdgesListed db modelId proposed)
    (he : ∀ key, ListedAt key modelId → after.edges.get key = db.edges.get key) :
    EdgesListed after modelId proposed where
  supports item hact :=
    hl.supports item ((activeAt_congr (he _ (listedAt_supports _ _ _))).mp hact)
  instanceOf item hact :=
    hl.instanceOf item ((activeAt_congr (he _ (listedAt_instanceOf _ _ _))).mp hact)
  contributes item hact :=
    hl.contributes item ((activeAt_congr (he _ (listedAt_contributes _ _ _))).mp hact)
  freshSupports item hm hsl :=
    hl.freshSupports item hm ((staleAt_congr (he _ (listedAt_supports _ _ _))).mp hsl)
  freshContributes item hm hsl := hl.freshContributes item hm
    ((staleAt_congr (he _ (listedAt_contributes _ _ _))).mp hsl)

/-- The row of an insert agrees with its edges when just the listed models have
an active edge of the kind. -/
theorem EdgesListed.arraysAgree (hl : EdgesListed db modelId proposed)
    (hs : ∀ item, ActiveAt after ⟨proposed.tenantId, item, modelId, RegistryKind.supports⟩ ↔
      item ∈ proposed.supportingModelIds) (hc : ∀ item,
      ActiveAt after ⟨proposed.tenantId, item, modelId, contributesToResolution⟩ ↔
        item ∈ proposed.contributingModels) (hi : ∀ item,
      after.edges.get ⟨proposed.tenantId, modelId, item, RegistryKind.instanceOf⟩ =
        db.edges.get ⟨proposed.tenantId, modelId, item, RegistryKind.instanceOf⟩) :
    ArraysAgree after modelId (proposed.row now) where
  supporting item := by
    change item ∈ proposed.supportingModelIds ↔ _
    rw [← hs item]
    refine ⟨Or.inl, fun he => he.elim id fun ha => ?_⟩
    exact (hs item).mpr (hl.instanceOf item ((activeAt_congr (hi item)).mp ha))
  contributing item := (hc item).symm

section

variable (args) (item : Nat)

@[simp] theorem supportsKey_kind :
    (supportsKey args item).kind = supports := rfl

@[simp] theorem contributesKey_kind :
    (contributesKey args item).kind = contributesToResolution := rfl

@[simp] theorem instanceKey_kind :
    (instanceKey args item).kind = instanceOf := rfl

end

theorem supportsKey_ne (hk : key.kind ≠ supports) (item : Nat) : supportsKey args item ≠ key := by
  rintro rfl
  exact hk rfl

theorem contributesKey_ne (hk : key.kind ≠ contributesToResolution) (item : Nat) :
    contributesKey args item ≠ key := by
  rintro rfl
  exact hk rfl

theorem instanceKey_ne (hk : key.kind ≠ instanceOf) (item : Nat) : instanceKey args item ≠ key := by
  rintro rfl
  exact hk rfl

section

variable (hl : ListedAt key modelId)

include hl

theorem ListedAt.not_supersededBy : key.kind ≠ .registry .supersededBy := by
  rcases hl with ⟨-, hk | hk⟩ | ⟨-, hk⟩ <;> rw [hk] <;> nofun

section

variable (ho : modelId ≠ args.modelId ∨ key.tenantId ≠ args.tenantId)

include ho

/-- The relations of a model touch no edge that is listed at another one, nor
one of another tenant. -/
theorem ListedAt.ne {touched : EdgeKey} (ht : touched.tenantId = args.tenantId)
    (hlt : ListedAt touched args.modelId) : touched ≠ key := by
  rintro rfl
  rcases ho with hm | hn
  · exact hm (hl.unique hlt)
  · exact hn ht

theorem ListedAt.supportsKey_ne (item : Nat) : supportsKey args item ≠ key :=
  hl.ne ho rfl (listedAt_supports _ _ _)

theorem ListedAt.contributesKey_ne (item : Nat) : contributesKey args item ≠ key :=
  hl.ne ho rfl (listedAt_contributes _ _ _)

theorem ListedAt.instanceKey_ne (item : Nat) : instanceKey args item ≠ key :=
  hl.ne ho rfl (listedAt_instanceOf _ _ _)

end

end

/-- What an insert leaves alone, and what it leaves of its own model. -/
structure InsertedOne (db after : ModelDb) (now modelId : Nat) (proposed : ModelCreate) : Prop where
  absent : db.models.get modelId = none
  models : ∀ id, after.models.get id =
    if id = modelId then some (proposed.row now) else db.models.get id
  edges : ∀ key id, id ≠ modelId → ListedAt key id → after.edges.get key = db.edges.get key
  instanceOf : ∀ item,
    after.edges.get ⟨proposed.tenantId, modelId, item, instanceOf⟩ =
      db.edges.get ⟨proposed.tenantId, modelId, item, instanceOf⟩
  supports : EdgesListed db modelId proposed → ∀ item,
    ActiveAt after ⟨proposed.tenantId, item, modelId, supports⟩ ↔ item ∈ proposed.supportingModelIds
  contributes : EdgesListed db modelId proposed → ∀ item,
    ActiveAt after ⟨proposed.tenantId, item, modelId, contributesToResolution⟩ ↔
      item ∈ proposed.contributingModels

theorem insertedOne_of_returns
    (hrt : Tx.Returns apply (insertConstructed rules now proposed) db n modelId
      after left) : InsertedOne db after now modelId proposed := by
  obtain ⟨ha, inserted, hmd, he, hr⟩ := returns_insertConstructed hrt
  have hi : ∀ id, inserted.models.get id =
      if id = modelId then some (proposed.row now) else db.models.get id := by
    intro id
    rw [hmd, Table.get_put]
  have hg : ∀ key, inserted.edges.get key = db.edges.get key := fun key => by rw [he]
  rcases hr with ⟨hsp, hcb, rfl⟩ | ⟨supported, hsu, hct⟩
  · refine ⟨ha, hi, fun key _ _ _ => hg key, fun _ => hg _, fun hl item => ?_, fun hl item => ?_⟩
    · rw [activeAt_congr (hg _)]
      refine ⟨hl.supports item, fun hm => ?_⟩
      rw [hsp] at hm
      cases hm
    · rw [activeAt_congr (hg _)]
      refine ⟨hl.contributes item, fun hm => ?_⟩
      rw [hcb] at hm
      cases hm
  · have hs : ConvergedIfGiven inserted supported now (proposed.relations modelId)
        (supportsKey (proposed.relations modelId)) (some proposed.supportingModelIds) := hsu
    have hc : ConvergedIfGiven supported after now (proposed.relations modelId)
        (contributesKey (proposed.relations modelId)) (some proposed.contributingModels) := hct
    have hf : ∀ key, (∀ item, supportsKey (proposed.relations modelId) item ≠ key) →
        (∀ item, contributesKey (proposed.relations modelId) item ≠ key) →
        after.edges.get key = db.edges.get key := by
      intro key hnt hn
      rw [hct.frame key hn, hsu.frame key hnt, hg]
    refine ⟨ha, fun id => ?_, fun key id ho hl => ?_, fun item => ?_,
      fun hl item => ?_, fun hl item => ?_⟩
    · rw [hct.edgesOnly.models, hsu.edgesOnly.models, hi]
    · exact hf key (hl.supportsKey_ne (.inl ho)) (hl.contributesKey_ne (.inl ho))
    · exact hf _ (supportsKey_ne nofun) (contributesKey_ne nofun)
    · have hk := hct.frame ⟨proposed.tenantId, item, modelId, supports⟩ (contributesKey_ne nofun)
      rw [activeAt_congr hk]
      refine (hs.activeAt_iff item).trans ⟨And.left, fun hm => ⟨hm, fun hsl => ?_⟩⟩
      exact hl.freshSupports item hm ((staleAt_congr (hg _)).mp hsl)
    · refine (hc.activeAt_iff item).trans ⟨And.left, fun hm => ⟨hm, fun hsl => ?_⟩⟩
      have hk := hsu.frame ⟨proposed.tenantId, item, modelId, contributesToResolution⟩
        (supportsKey_ne nofun)
      exact hl.freshContributes item hm ((staleAt_congr (hk.trans (hg _))).mp hsl)

theorem InsertedOne.dualWritten (hi : InsertedOne db after now modelId proposed)
    (hb : DualWritten db) (hl : EdgesListed db modelId proposed) : DualWritten after := by
  refine hb.touch (· = modelId) (fun id ho => ?_)
    (fun key id ho hk => hi.edges key id ho hk) fun id row hid hr _ => ?_
  · rw [hi.models, if_neg ho]
  · subst hid
    rw [hi.models, if_pos rfl] at hr
    cases hr
    exact hl.arraysAgree (hi.supports hl) (hi.contributes hl) hi.instanceOf

theorem NamesEdge.listedAt (hn : NamesEdge planned key) : ListedAt key planned.id := by
  obtain ⟨-, ht, -, ⟨hk, -⟩ | ⟨hk, -⟩⟩ := hn
  · exact .inl ⟨ht, .inl hk⟩
  · exact .inl ⟨ht, .inr hk⟩

def NotSelfListed (planned : PlannedModel) : Prop :=
  (∀ id ∈ planned.proposed.supportingModelIds, id ≠ planned.id) ∧
    ∀ id ∈ planned.proposed.contributingModels, id ≠ planned.id

section

variable {stratum : List PlannedModel}

section

variable (hi : StratumInserted rules db after now stratum)

include hi

theorem StratumInserted.edges_frame (ho : ∀ planned ∈ stratum, planned.id ≠ modelId)
    (hl : ListedAt key modelId) : after.edges.get key = db.edges.get key :=
  hi.otherEdges key fun planned hm hn =>
    ho planned hm (hn.listedAt.unique hl)

/-- The edges into a model of the stratum are those it names and those that were
there before. -/
theorem StratumInserted.activeAt_iff (hm : planned ∈ stratum) (hk : ListedAt key planned.id) :
    ActiveAt after key ↔ NamesEdge planned key ∨ ActiveAt db key := by
  by_cases hn : NamesEdge planned key
  · obtain ⟨-, id, hr⟩ := hi.edges planned hm key hn
    exact ⟨fun _ => .inl hn, fun _ => ⟨_, hr, rfl⟩⟩
  · have hnb : ∀ other ∈ stratum, ¬ NamesEdge other key := by
      intro other ho hname
      obtain rfl := inj_on_of_nodup_map hi.nodup ho hm (hname.listedAt.unique hk)
      exact hn hname
    rw [activeAt_congr (hi.otherEdges key hnb)]
    exact ⟨Or.inr, fun he => he.resolve_left hn⟩

end

theorem StratumInserted.arraysAgree (hin : StratumInserted rules db after now stratum)
    (hm : planned ∈ stratum) (hs : NotSelfListed planned)
    (hl : EdgesListed db planned.id planned.proposed) :
    ArraysAgree after planned.id (planned.proposed.row now) := by
  refine hl.arraysAgree (fun item => ?_) (fun item => ?_) fun item => ?_
  · rw [hin.activeAt_iff hm (listedAt_supports _ _ _)]
    constructor
    · rintro (⟨-, -, -, ⟨-, hi⟩ | ⟨hk, -⟩⟩ | ha)
      · exact hi
      · cases hk
      · exact hl.supports item ha
    · exact fun hi => .inl ⟨rfl, rfl, hs.1 item hi, .inl ⟨rfl, hi⟩⟩
  · rw [hin.activeAt_iff hm (listedAt_contributes _ _ _)]
    constructor
    · rintro (⟨-, -, -, ⟨hk, -⟩ | ⟨-, hi⟩⟩ | ha)
      · cases hk
      · exact hi
      · exact hl.contributes item ha
    · exact fun hi => .inl ⟨rfl, rfl, hs.2 item hi, .inr ⟨rfl, hi⟩⟩
  · refine hin.otherEdges _ fun other ho hn => ?_
    obtain ⟨-, -, -, ⟨hk, -⟩ | ⟨hk, -⟩⟩ := hn <;> cases hk

theorem StratumInserted.dualWritten (hi : StratumInserted rules db after now stratum)
    (hb : DualWritten db) (hs : ∀ planned ∈ stratum, NotSelfListed planned)
    (hl : ∀ planned ∈ stratum, EdgesListed db planned.id planned.proposed) : DualWritten after := by
  refine hb.touch (fun id => ∃ planned ∈ stratum, planned.id = id) (fun id ho => ?_)
    (fun key id ho hk => ?_) ?_
  · exact hi.otherModels id fun planned hm hid => ho ⟨planned, hm, hid⟩
  · exact hi.edges_frame (fun planned hm hid => ho ⟨planned, hm, hid⟩) hk
  · rintro id row ⟨planned, hm, rfl⟩ hr -
    rw [hi.models planned hm] at hr
    cases hr
    exact hi.arraysAgree hm (hs planned hm) (hl planned hm)

end

variable {r : Unit} {supplied : Option (List Nat)} {tenantId : Nat}
  {reason : ModelArchiveReason}

theorem dualWritten_bulk (hb : DualWritten db) (hids : (strata.flatten.map PlannedModel.id).Nodup)
    (hs : ∀ planned ∈ strata.flatten, NotSelfListed planned)
    (hl : ∀ planned ∈ strata.flatten, EdgesListed db planned.id planned.proposed)
    (hr : Tx.Returns apply (Tx.forEach strata (bulkInsertStratum rules now)) db n
      r after left) : DualWritten after := by
  induction strata generalizing db n with
  | nil =>
    obtain ⟨rfl, -⟩ := Tx.returns_forEach_nil.mp hr
    exact hb
  | cons stratum u ih =>
    obtain ⟨m, _, hst, hlt⟩ := Tx.returns_forEach_cons.mp hr
    obtain ⟨-, hi⟩ := returns_bulkInsertStratum hst
    rw [flatten_cons, map_append] at hids
    obtain ⟨-, hidsLater, hd⟩ := nodup_append'.mp hids
    simp only [flatten_cons, mem_append] at hs hl
    refine ih (hi.dualWritten hb (fun planned hm => hs planned (.inl hm))
      fun planned hm => hl planned (.inl hm)) hidsLater
      (fun planned hm => hs planned (.inr hm)) (fun planned hm => ?_) hlt
    refine (hl planned (.inr hm)).congr fun key hk =>
      hi.edges_frame (fun other ho hid => ?_) hk
    exact hd (mem_map_of_mem ho) (hid ▸ mem_map_of_mem hm)

theorem dualWritten_serial (hb : DualWritten db) (hids : (planned.map PlannedModel.id).Nodup)
    (hg : ∀ item ∈ planned, item.proposed.id = some item.id)
    (hl : ∀ item ∈ planned, EdgesListed db item.id item.proposed) (hr : Tx.Returns apply
      (Tx.forEach planned fun item =>
        (insertConstructed rules now item.proposed).bind fun _ => .done ()) db n r after
      left) : DualWritten after := by
  induction planned generalizing db n with
  | nil =>
    obtain ⟨rfl, -⟩ := Tx.returns_forEach_nil.mp hr
    exact hb
  | cons item rest ih =>
    obtain ⟨m, _, hi, ht⟩ := Tx.returns_forEach_cons.mp hr
    obtain ⟨modelId, hin⟩ := returns_ignore.mp hi
    obtain rfl : modelId = item.id := id_of_returns_insertConstructed (hg item (.head _)) hin
    have hins := insertedOne_of_returns hin
    obtain ⟨hn, hidsRest⟩ := nodup_cons.mp hids
    refine ih (hins.dualWritten hb (hl item (.head _))) hidsRest
      (fun other hm => hg other (.tail _ hm)) (fun other hm => ?_) ht
    refine (hl other (.tail _ hm)).congr fun key hk =>
      hins.edges key other.id (fun hid => ?_) hk
    exact hn (hid ▸ mem_map_of_mem hm)

theorem returns_assignIds {proposed : List ModelCreate}
    (hr : Tx.Returns apply (Tx.mapEach proposed assignId) db n assigned after left) :
    db = after ∧ List.Forall₂ (fun draft (e : Nat × ModelCreate) =>
      TakesId n draft e.1 ∧ e.2 = { draft with id := some e.1 })
        proposed assigned := by
  suffices hg : ∀ low ≤ n, db = after ∧ List.Forall₂ (fun draft (e : Nat × ModelCreate) =>
        TakesId low draft e.1 ∧ e.2 = { draft with id := some e.1 })
          proposed assigned from hg n le_rfl
  induction proposed generalizing db n assigned with
  | nil =>
    obtain ⟨rfl, rfl, -⟩ := hr.ended
    exact fun _ _ => ⟨rfl, .nil⟩
  | cons draft rest ih =>
    intro low hl
    obtain ⟨e, _, _, he, hr⟩ := hr.parts
    obtain ⟨others, _, _, ho, hd⟩ := hr.parts
    obtain ⟨rfl, rfl, rfl⟩ := hd.ended
    obtain ⟨id, _, _, hi, hm⟩ := he.parts
    obtain ⟨rfl, rfl, rfl⟩ := hm.ended
    cases hgv : draft.id with
    | some given =>
      rw [hgv] at hi
      obtain ⟨rfl, rfl, rfl⟩ := hi.ended
      obtain ⟨rfl, ha⟩ := ih ho low hl
      exact ⟨rfl, .cons ⟨.inl hgv, rfl⟩ ha⟩
    | none =>
      rw [hgv] at hi
      obtain ⟨rfl, rfl, rfl⟩ := Tx.returns_newId.mp hi
      obtain ⟨rfl, ha⟩ := ih ho low (Nat.le_succ_of_le hl)
      exact ⟨rfl, .cons ⟨.inr ⟨hgv, hl⟩, rfl⟩ ha⟩

theorem returns_planModelBatch {proposed : List ModelCreate}
    (hr : Tx.Returns apply (planModelBatch rules proposed) db n plan after left) :
    db = after ∧ ∃ assigned, PlanOf assigned plan ∧
      List.Forall₂ (fun draft (e : Nat × ModelCreate) =>
        TakesId n draft e.1 ∧ e.2 = { draft with id := some e.1 })
          proposed assigned := by
  obtain ⟨assigned, _, _, hasg, hp⟩ := hr.parts
  obtain ⟨ho, rfl, -⟩ := Tx.returns_ofExcept.mp hp
  obtain ⟨rfl, ha⟩ := returns_assignIds hasg
  exact ⟨rfl, assigned, planAssigned_eq_ok ho, ha⟩

theorem PlanOf.takesId {proposed : List ModelCreate}
    {plan : ModelBatchPlan} (hp : PlanOf assigned plan)
    (ha : List.Forall₂ (fun draft (e : Nat × ModelCreate) =>
      TakesId n draft e.1 ∧ e.2 = { draft with id := some e.1 })
        proposed assigned) {planned : PlannedModel} (hm : planned ∈ plan.models) :
    ∃ draft ∈ proposed, TakesId n draft planned.id ∧
      planned.proposed = { draft with id := some planned.id } := by
  obtain ⟨e, he, hi, hd⟩ := exists_of_mem_right hp.drafts hm
  obtain ⟨draft, hmm, ht, hmd⟩ := exists_of_mem_right ha he
  exact ⟨draft, hmm, hi ▸ ht, by rw [hd, hmd, hi]⟩

theorem dualWritten_insertMany {proposed : List ModelCreate} (hb : DualWritten db)
    (hl : ∀ draft ∈ proposed, ∀ modelId, TakesId n draft modelId → EdgesListed db modelId draft)
    (hr : Tx.Returns apply (insertMany rules now proposed) db n ids after
      left) : DualWritten after := by
  unfold insertMany at hr
  split at hr
  · obtain ⟨-, rfl, -⟩ := hr.ended
    exact hb
  · obtain ⟨plan, _, _, hpl, hr⟩ := hr.parts
    obtain ⟨rfl, assigned, hp, hasg⟩ := returns_planModelBatch hpl
    have hi : (plan.strata.flatten.map PlannedModel.id).Nodup :=
      ((hp.strata.map PlannedModel.id).nodup_iff).mpr hp.nodup
    have hmd : ∀ planned ∈ plan.strata.flatten, planned ∈ plan.models :=
      fun planned hm => hp.strata.mem_iff.mp hm
    have hdr : ∀ planned ∈ plan.strata.flatten, planned.proposed.id = some planned.id ∧
          EdgesListed db planned.id planned.proposed := by
      intro planned hm
      obtain ⟨draft, hdrf, ht, hma⟩ := hp.takesId hasg (hmd planned hm)
      have he := hl draft hdrf planned.id ht
      rw [hma]
      exact ⟨rfl, he.supports, he.instanceOf, he.contributes, he.freshSupports, he.freshContributes⟩
    split at hr
    · obtain ⟨_, _, _, hs, hd⟩ := hr.parts
      obtain ⟨-, rfl, -⟩ := hd.ended
      exact dualWritten_serial hb hi (fun planned hm => (hdr planned hm).1)
        (fun planned hm => (hdr planned hm).2) hs
    · unfold insertManyBulk at hr
      obtain ⟨_, _, _, ha, hr⟩ := hr.parts
      obtain ⟨-, rfl, -⟩ := returns_validateBatchScopeActors.mp ha
      obtain ⟨_, _, _, hst, hd⟩ := hr.parts
      obtain ⟨-, rfl, -⟩ := hd.ended
      refine dualWritten_bulk hb hi (fun planned hm => ⟨fun id hid => ?_, fun id hid => ?_⟩)
        (fun planned hm => (hdr planned hm).2) hst
      · exact (hp.supporting planned (hmd planned hm) id hid).1
      · exact (hp.contributing planned (hmd planned hm) id hid).1

/-- What a call of `_set_model_relations` leaves of the listed edges and of the
arrays. -/
structure RelationsSet (db after : ModelDb) (args : RelationArgs) : Prop where
  edges : ∀ key modelId, ListedAt key modelId →
    modelId ≠ args.modelId ∨ key.tenantId ≠ args.tenantId → after.edges.get key = db.edges.get key
  supports : ∀ item, ActiveAt after (supportsKey args item) ↔
    Desired db (supportsKey args) args.supports item ∧ ¬ StaleAt db (supportsKey args item)
  contributes : ∀ item, ActiveAt after (contributesKey args item) ↔
    Desired db (contributesKey args) args.contributesTo item ∧
      ¬ StaleAt db (contributesKey args item)
  instanceOf : ∀ item, ActiveAt after (instanceKey args item) ↔
    Desired db (instanceKey args) args.instanceOf item ∧ ¬ StaleAt db (instanceKey args item)
  models : ∀ id ≠ args.modelId, after.models.get id = db.models.get id
  absent : db.models.get args.modelId = none → after.models.get args.modelId = none
  row : ∀ row, db.models.get args.modelId = some row → ∃ supporting,
    (args.updateArrays = false ∧ supporting = row.supportingModelIds ∧
        after.models.get args.modelId = some row) ∨
      (args.updateArrays ∧ after.models.get args.modelId = some { row with
          supportingModelIds := supporting
          contributingModels := args.contributesTo.getD row.contributingModels } ∧
        ((args.supports.isSome ∨ args.instanceOf.isSome) →
          ∀ item, item ∈ supporting ↔ InPart after args.modelId .supports args.supports item ∨
            InPart after args.modelId .instanceOf args.instanceOf item) ∧
        (¬ (args.supports.isSome ∨ args.instanceOf.isSome) → supporting = row.supportingModelIds))

theorem desired_congr (hg : after.edges.get (keyOf item) = db.edges.get (keyOf item)) :
    Desired after keyOf supplied item ↔ Desired db keyOf supplied item := by
  cases supplied with
  | none => exact activeAt_congr hg
  | some items => exact Iff.rfl

theorem inPart_congr (he : after.edges = db.edges) :
    InPart after modelId kind supplied item ↔ InPart db modelId kind supplied item := by
  cases supplied with
  | none => simp [InPart, ActiveAt, he]
  | some items => exact Iff.rfl

theorem relationsSet_of_returns (hrt : Tx.Returns apply (setModelRelations now args) db n r after
      left) : RelationsSet db after args := by
  obtain ⟨supported, contributed, instanced, superseded, hsu, hc, hi,
    hsp, har⟩ := returns_setModelRelations hrt
  have ha : after.edges = superseded.edges := by
    rcases har with ⟨-, hmr⟩ | ⟨-, rfl⟩
    · obtain ⟨_, rfl⟩ := hmr.modelsOnly
      rfl
    · rfl
  have hm : superseded.models = db.models := by
    rw [hsp.edgesOnly.models, hi.edgesOnly.models, hc.edgesOnly.models, hsu.edgesOnly.models]
  have hlt : ∀ key : EdgeKey, key.kind ≠ .registry .supersededBy →
      after.edges.get key = instanced.edges.get key := by
    intro key hk
    rw [ha, hsp.frame key hk]
  refine ⟨fun key modelId hl ho => ?_, fun item => ?_, fun item => ?_, fun item => ?_,
    fun id hid => ?_, fun hn => ?_, fun row hr => ?_⟩
  · rw [hlt key hl.not_supersededBy, hi.frame (hl.instanceKey_ne ho),
      hc.frame (hl.contributesKey_ne ho), hsu.frame (hl.supportsKey_ne ho)]
  · have hkp : after.edges.get (supportsKey args item) =
        supported.edges.get (supportsKey args item) := by
      rw [hlt _ (by simp), hi.frame (instanceKey_ne (by simp)),
        hc.frame (contributesKey_ne (by simp))]
    rw [activeAt_congr hkp]
    exact hsu.activeAt_iff item
  · have hkp : after.edges.get (contributesKey args item) =
        contributed.edges.get (contributesKey args item) := by
      rw [hlt _ (by simp), hi.frame (instanceKey_ne (by simp))]
    have hb : supported.edges.get (contributesKey args item) =
        db.edges.get (contributesKey args item) :=
      hsu.frame (supportsKey_ne (by simp))
    rw [activeAt_congr hkp, hc.activeAt_iff item, desired_congr hb, staleAt_congr hb]
  · have hb : contributed.edges.get (instanceKey args item) =
        db.edges.get (instanceKey args item) := by
      rw [hc.frame (contributesKey_ne (by simp)), hsu.frame (supportsKey_ne (by simp))]
    rw [activeAt_congr (hlt _ (by simp)), hi.activeAt_iff item, desired_congr hb, staleAt_congr hb]
  · rcases har with ⟨-, hmr⟩ | ⟨-, rfl⟩
    · rw [hmr.frame id hid, hm]
    · rw [hm]
  · rcases har with ⟨-, hmr⟩ | ⟨-, rfl⟩
    · exact hmr.absent (by rw [hm, hn])
    · rw [hm, hn]
  · rcases har with ⟨hu, hmr⟩ | ⟨hu, rfl⟩
    · obtain ⟨supporting, hg, hgv, hkp⟩ := hmr.arrays row (by rw [hm, hr])
      refine ⟨supporting, .inr ⟨hu, hg, fun hs item => ?_, hkp⟩⟩
      rw [hgv hs item, inPart_congr ha, inPart_congr ha]
    · exact ⟨_, .inl ⟨hu, rfl, by rw [hm, hr]⟩⟩

/-- What the call desires of an active model is what its edges and arrays can
both show: of its own tenant, with no edge that has gone inert in the way, and
with the arrays written or right already. -/
structure RelationsCovered (db : ModelDb) (args : RelationArgs) (row : ModelRow) : Prop where
  tenant : row.tenantId = args.tenantId
  supporting : ∀ item, Desired db (supportsKey args) args.supports item ∨
      Desired db (instanceKey args) args.instanceOf item →
    (Desired db (supportsKey args) args.supports item ∧ ¬ StaleAt db (supportsKey args item)) ∨
      (Desired db (instanceKey args) args.instanceOf item ∧ ¬ StaleAt db (instanceKey args item))
  contributing : ∀ item, Desired db (contributesKey args) args.contributesTo item →
    ¬ StaleAt db (contributesKey args item)
  home : ∀ key, ListedAt key args.modelId → ActiveAt db key → key.tenantId = args.tenantId
  arrays : args.updateArrays ∨
    ((∀ item, item ∈ row.supportingModelIds ↔ Desired db (supportsKey args) args.supports item ∨
          Desired db (instanceKey args) args.instanceOf item) ∧
      ∀ item, item ∈ row.contributingModels ↔
        Desired db (contributesKey args) args.contributesTo item)

theorem inPart_iff_desired {kind : RegistryKind} (hs : RelationsSet db after args)
    (hhm : ∀ key, ListedAt key args.modelId → ActiveAt db key → key.tenantId = args.tenantId)
    (ha : ∀ item, ActiveAt after (keyOf item) ↔
      Desired db keyOf supplied item ∧ ¬ StaleAt db (keyOf item))
    (hky : ∀ item, keyOf item = if kind = .supports
      then ⟨args.tenantId, item, args.modelId, kind⟩ else ⟨args.tenantId, args.modelId, item, kind⟩)
    (hl : ∀ tenantId item, ListedAt (if kind = .supports
      then ⟨tenantId, item, args.modelId, kind⟩ else ⟨tenantId, args.modelId, item, kind⟩)
        args.modelId) (item : Nat) :
    InPart after args.modelId kind supplied item ↔ Desired db keyOf supplied item := by
  cases supplied with
  | some items => exact Iff.rfl
  | none =>
    constructor
    · rintro ⟨tenantId, ht⟩
      by_cases hw : tenantId = args.tenantId
      · subst hw
        rw [← hky] at ht
        exact ((ha item).mp ht).1
      · have hk : after.edges.get (if kind = .supports
            then ⟨tenantId, item, args.modelId, kind⟩ else ⟨tenantId, args.modelId, item, kind⟩) =
            db.edges.get (if kind = .supports
              then ⟨tenantId, item, args.modelId, kind⟩
              else ⟨tenantId, args.modelId, item, kind⟩) := by
          refine hs.edges _ args.modelId (hl tenantId item) (.inr ?_)
          split <;> exact hw
        have hh := hhm _ (hl tenantId item) ((activeAt_congr hk).mp ht)
        split at hh <;> exact absurd hh hw
    · intro hd
      refine ⟨args.tenantId, ?_⟩
      rw [← hky]
      refine (ha item).mpr ⟨hd, fun ⟨row, hg, hsl⟩ => ?_⟩
      obtain ⟨other, ho, hst⟩ := (show ActiveAt db (keyOf item) from hd)
      rw [hg] at ho
      exact hsl (Option.some.inj ho ▸ hst)

section

variable (hs : RelationsSet db after args)
  (hh : ∀ key, ListedAt key args.modelId → ActiveAt db key → key.tenantId = args.tenantId)
  (item : Nat)

include hs hh

theorem RelationsSet.supportsPart : InPart after args.modelId .supports args.supports item ↔
    Desired db (supportsKey args) args.supports item :=
  inPart_iff_desired hs hh hs.supports (fun _ => rfl) (fun _ _ => listedAt_supports _ _ _) item

theorem RelationsSet.instancePart : InPart after args.modelId .instanceOf args.instanceOf item ↔
    Desired db (instanceKey args) args.instanceOf item :=
  inPart_iff_desired hs hh hs.instanceOf (fun _ => rfl) (fun _ _ => listedAt_instanceOf _ _ _) item

end

theorem RelationsSet.arraysAgree {row : ModelRow} (hse : RelationsSet db after args)
    (hr : db.models.get args.modelId = some row)
    (hw : after.models.get args.modelId = some written)
    (hb : ArraysAgree db args.modelId row) (hc : RelationsCovered db args row) :
    ArraysAgree after args.modelId written := by
  have hsp : ∀ item, (Desired db (supportsKey args) args.supports item ∨
        Desired db (instanceKey args) args.instanceOf item) ↔
      ActiveAt after (supportsKey args item) ∨ ActiveAt after (instanceKey args item) := by
    intro item
    rw [hse.supports, hse.instanceOf]
    exact ⟨hc.supporting item, Or.imp And.left And.left⟩
  have hcb : ∀ item, Desired db (contributesKey args) args.contributesTo item ↔
      ActiveAt after (contributesKey args item) := by
    intro item
    rw [hse.contributes]
    exact ⟨fun hd => ⟨hd, hc.contributing item hd⟩, And.left⟩
  obtain ⟨supporting, ⟨hu, -, hg⟩ | ⟨hu, hg, hgv, hk⟩⟩ := hse.row row hr
  · cases hw.symm.trans hg
    rcases hc.arrays with ha | ⟨hls, hl⟩
    · rw [hu] at ha
      cases ha
    · refine ⟨fun item => ?_, fun item => ?_⟩
      · rw [hc.tenant]
        exact (hls item).trans (hsp item)
      · rw [hc.tenant]
        exact (hl item).trans (hcb item)
  · cases hw.symm.trans hg
    refine ⟨fun item => ?_, fun item => ?_⟩
    · change item ∈ supporting ↔ ActiveAt after ⟨row.tenantId, _, _, _⟩ ∨
        ActiveAt after ⟨row.tenantId, _, _, _⟩
      rw [hc.tenant]
      refine Iff.trans ?_ (hsp item)
      by_cases hs : args.supports.isSome ∨ args.instanceOf.isSome
      · rw [hgv hs item, hse.supportsPart hc.home, hse.instancePart hc.home]
      · rw [hk hs, hb.supporting item, hc.tenant]
        obtain ⟨hn, hnn⟩ := not_or.mp hs
        rw [Option.not_isSome_iff_eq_none] at hn hnn
        rw [hn, hnn]
        exact Iff.rfl
    · change item ∈ args.contributesTo.getD row.contributingModels ↔
        ActiveAt after ⟨row.tenantId, _, _, _⟩
      rw [hc.tenant]
      refine Iff.trans ?_ (hcb item)
      cases hsu : args.contributesTo with
      | some items => exact Iff.rfl
      | none =>
        change item ∈ row.contributingModels ↔ ActiveAt db _
        rw [hb.contributing item, hc.tenant]
        rfl

theorem RelationsSet.dualWritten (hs : RelationsSet db after args) (hb : DualWritten db)
    (hc : ∀ row, db.models.get args.modelId = some row → row.status = .active →
      RelationsCovered db args row) : DualWritten after := by
  refine hb.touch (· = args.modelId) (fun id ho => hs.models id ho)
    (fun key id ho hl => hs.edges key id hl (.inl ho)) fun id written hi hw ha => ?_
  subst hi
  cases hr : db.models.get args.modelId with
  | none =>
    rw [hs.absent hr] at hw
    cases hw
  | some row =>
    have hst : row.status = .active := by
      obtain ⟨_, ⟨-, -, hg⟩ | ⟨-, hg, -⟩⟩ := hs.row row hr
      · exact Option.some.inj (hw.symm.trans hg) ▸ ha
      · cases hw.symm.trans hg
        exact ha
    exact hs.arraysAgree hr hw (hb _ row hr hst) (hc row hr hst)

theorem graphUnchanged_enqueueReeval (hr : Tx.Returns apply
      (enqueueReeval now tenantId dependentId causeModelId causeKind) db n r after
      left) : GraphUnchanged db after := by
  unfold enqueueReeval at hr
  simp only [Tx.bind_eq_bind, Tx.returns_newId_bind] at hr
  obtain ⟨w, ha, rfl, -⟩ := returns_execute.mp hr
  split at ha
  · cases ha
    exact .refl _
  · split at ha
    · cases ha
    · cases ha
      exact ⟨rfl, rfl, rfl⟩

theorem graphUnchanged_cascade (hr : Tx.Returns apply
      (cascade now modelId tenantId reason callback otherEndpoint) db n r after left) :
    GraphUnchanged db after := by
  rcases Tx.returns_forSome.mp hr with ⟨-, rfl, -⟩ | ⟨_, -, hb⟩
  · exact .refl _
  · exact graphUnchanged_enqueueReeval hb

theorem returns_archive (hrt : Tx.Returns apply (archive now modelId reason) db n r after left) :
    ∃ row, db.models.get modelId = some row ∧
      after.models = db.models.update modelId (ModelRow.archived now reason) ∧
      after.edges = db.edges.updateWhere (touchesModel modelId row.tenantId)
        fun _ => EdgeRow.madeInert now "endpoint_archived" := by
  unfold archive at hrt
  simp only [Tx.bind_eq_bind, Tx.returns_read_bind] at hrt
  obtain ⟨row, _, _, hf, hrt⟩ := hrt.parts
  obtain ⟨hr, rfl, -⟩ := Tx.returns_orRaise.mp hf
  obtain ⟨_, _, _, hc, hrt⟩ := hrt.parts
  obtain ⟨rfl, -⟩ := returns_change.mp hc
  obtain ⟨forwardEdges, _, _, hfo, hrt⟩ := hrt.parts
  obtain ⟨-, rfl, -⟩ := Tx.returns_read.mp hfo
  obtain ⟨_, _, _, hfr, hrt⟩ := hrt.parts
  obtain ⟨backwardEdges, _, _, hbc, hrt⟩ := hrt.parts
  obtain ⟨-, rfl, -⟩ := Tx.returns_read.mp hbc
  obtain ⟨_, _, _, hb, hrt⟩ := hrt.parts
  obtain ⟨dependents, _, _, hrd, hrt⟩ := hrt.parts
  obtain ⟨-, rfl, -⟩ := Tx.returns_read.mp hrd
  obtain ⟨_, _, _, hd, hi⟩ := hrt.parts
  obtain ⟨_, hi⟩ := returns_ignore.mp hi
  obtain rfl := returns_markInert hi
  have hg := (graphUnchanged_forEach (fun _ _ _ _ _ => graphUnchanged_cascade) hfr).trans
    ((graphUnchanged_forEach (fun _ _ _ _ _ => graphUnchanged_cascade) hb).trans
      (graphUnchanged_forEach (fun _ _ _ _ _ => graphUnchanged_enqueueReeval) hd))
  refine ⟨row, hr, hg.models, ?_⟩
  unfold updateEdges
  rw [hg.edges]

def Unlisted (db : ModelDb) (modelId : Nat) : Prop :=
  ∀ row, db.models.get modelId = some row → ∀ other otherRow, other ≠ modelId →
    db.models.get other = some otherRow → otherRow.status = .active →
      otherRow.tenantId = row.tenantId →
        modelId ∉ otherRow.supportingModelIds ∧ modelId ∉ otherRow.contributingModels

theorem activeAt_madeInert {reason : String}
    (he : after.edges = db.edges.updateWhere (touchesModel modelId tenantId)
      fun _ => EdgeRow.madeInert now reason) (key : EdgeKey) :
    ActiveAt after key ↔ ActiveAt db key ∧
      ¬ (key.tenantId = tenantId ∧ (key.source = modelId ∨ key.target = modelId)) := by
  unfold ActiveAt
  rw [he, Table.get_updateWhere]
  cases db.edges.get key with
  | none => simp
  | some row =>
    simp only [Option.map_some, Option.some.injEq, exists_eq_left', Table.changed, touchesModel,
      decide_eq_true_eq]
    split
    · next htc => simp [htc]
    · next hu =>
      refine ⟨fun ha => ⟨ha, fun ht => hu ?_⟩, And.left⟩
      exact ⟨ht.1, ha, ht.2⟩

/-- From a state that satisfies the contract an archive keeps it just when no
other model lists the archived one. -/
theorem dualWritten_archive_iff (hb : DualWritten db)
    (hrt : Tx.Returns apply (archive now modelId reason) db n r after
      left) : DualWritten after ↔ Unlisted db modelId := by
  obtain ⟨row, hr, hmd, hed⟩ := returns_archive hrt
  have hothers : ∀ other ≠ modelId, after.models.get other = db.models.get other := by
    intro other ho
    rw [hmd, Table.get_update, if_neg ho]
  have hac : ∀ tenantId source target (kind : RegistryKind),
      ActiveAt after ⟨tenantId, source, target, kind⟩ ↔
        ActiveAt db ⟨tenantId, source, target, kind⟩ ∧
          ¬ (tenantId = row.tenantId ∧ (source = modelId ∨ target = modelId)) :=
    fun tenantId source target kind => activeAt_madeInert hed ⟨tenantId, source, target, kind⟩
  constructor
  · intro ha found hf other otherRow ho hoth hs ht
    cases hr.symm.trans hf
    have hag := ha other otherRow ((hothers other ho).trans hoth) hs
    refine ⟨fun hl => ?_, fun hl => ?_⟩
    · rcases (hag.supporting modelId).mp hl with he | he
      · exact ((hac _ _ _ _).mp he).2 ⟨ht, .inl rfl⟩
      · exact ((hac _ _ _ _).mp he).2 ⟨ht, .inr rfl⟩
    · exact ((hac _ _ _ _).mp ((hag.contributing modelId).mp hl)).2 ⟨ht, .inl rfl⟩
  · intro hu other otherRow hoth hs
    by_cases ho : other = modelId
    · subst ho
      rw [hmd, Table.get_update, if_pos rfl, hr] at hoth
      cases hoth
      cases hs
    · rw [hothers other ho] at hoth
      have hag := hb other otherRow hoth hs
      have hn : ∀ item, otherRow.tenantId = row.tenantId → item = modelId →
          item ∉ otherRow.supportingModelIds ∧ item ∉ otherRow.contributingModels := by
        rintro item ht rfl
        exact hu row hr other otherRow ho hoth hs ht
      refine ⟨fun item => ?_, fun item => ?_⟩
      · rw [hac, hac, hag.supporting item]
        constructor
        · intro het
          have hm := (hag.supporting item).mpr het
          refine het.imp (fun he => ⟨he, ?_⟩) fun he => ⟨he, ?_⟩
          · rintro ⟨ht, hi | heq⟩
            · exact (hn item ht hi).1 hm
            · exact ho heq
          · rintro ⟨ht, heq | hi⟩
            · exact ho heq
            · exact (hn item ht hi).1 hm
        · exact Or.imp And.left And.left
      · rw [hac, hag.contributing item]
        refine ⟨fun he => ⟨he, ?_⟩, And.left⟩
        rintro ⟨ht, hi | heq⟩
        · exact (hn item ht hi).2 ((hag.contributing item).mpr he)
        · exact ho heq

inductive ModelCall where
  | insert (now : Nat) (proposed : ModelCreate)
  | insertMany (now : Nat) (proposed : List ModelCreate)
  | setModelRelations (now : Nat) (args : RelationArgs)
  | archive (now modelId : Nat) (reason : ModelArchiveReason)

def ModelCall.run (rules : InsertRules) : ModelCall → ModelTx Unit
  | .insert now proposed => (insertConstructed rules now proposed).bind fun _ => .done ()
  | .insertMany now proposed => (Models.insertMany rules now proposed).bind fun _ => .done ()
  | .setModelRelations now args => Models.setModelRelations now args
  | .archive now modelId reason => Models.archive now modelId reason

/-- The model repository as a transition system, one transaction a call. -/
def modelStep (rules : InsertRules) : Database ModelDb → ModelCall → Option (Database ModelDb) :=
  Database.step apply (ModelCall.run rules)

/-- The call keeps the dual write: an insert finds no edge at its identifier
that its draft does not list, a relation call is covered, and an archived model
is listed nowhere. -/
def KeepsDualWrite (db : Database ModelDb) : ModelCall → Prop
  | .insert _ proposed => ∀ modelId, TakesId db.supply proposed modelId →
      EdgesListed db.state modelId proposed
  | .insertMany _ proposed => ∀ draft ∈ proposed, ∀ modelId, TakesId db.supply draft modelId →
      EdgesListed db.state modelId draft
  | .setModelRelations _ args => ∀ row, db.state.models.get args.modelId = some row →
      row.status = .active → RelationsCovered db.state args row
  | .archive _ modelId _ => Unlisted db.state modelId

theorem dualWritten_call (hb : DualWritten db) (hk : KeepsDualWrite ⟨db, n⟩ call)
    (hr : Tx.Returns apply (call.run rules) db n r after left) :
    DualWritten after := by
  cases call with
  | insert now proposed =>
    obtain ⟨modelId, hi⟩ := returns_ignore.mp hr
    exact (insertedOne_of_returns hi).dualWritten hb (hk modelId (takesId_of_returns hi))
  | insertMany now proposed =>
    obtain ⟨ids, hi⟩ := returns_ignore.mp hr
    exact dualWritten_insertMany hb hk hi
  | setModelRelations now args =>
    exact (relationsSet_of_returns hr).dualWritten hb hk
  | archive now modelId reason =>
    exact (dualWritten_archive_iff hb hr).mpr hk

/-- From a database without models, the contract holds in every state of a run
whose calls keep the dual write; and there an archive breaks it just when some
other active model lists the archived one. -/
theorem dual_write_of_kept {start db : Database ModelDb} (hempty : start.state.models = ∅)
    (hreach : Reach (modelStep rules) KeepsDualWrite start db) : DualWritten db.state ∧
      ∀ now modelId reason value after left,
        Tx.Returns apply (archive now modelId reason) db.state db.supply value after left →
          (DualWritten after ↔ Unlisted db.state modelId) := by
  have hstart : DualWritten start.state := by
    intro modelId row hrow
    rw [hempty] at hrow
    cases hrow
  have hwritten : DualWritten db.state :=
    Database.invariant_of_returns hreach hstart fun _ _ _ _ _ hbefore hkeeps hreturns =>
      dualWritten_call hbefore hkeeps hreturns
  exact ⟨hwritten, fun now modelId reason value after left hreturns =>
    dualWritten_archive_iff hwritten hreturns⟩

def plainRules : InsertRules where
  str _ := ""
  parseUuid _ := none
  isAdequateFalsifier _ := none
  validateRecommendation _ _ _ := none

def plainDraft (modelId : Nat) (supportingModelIds : List Nat) : ModelCreate :=
  { id := some modelId, tenantId := 0, bornFromEventId := 7, proposition := .object [],
    confidence := 1 / 2, supportingModelIds }

def called (db : Database ModelDb) (call : ModelCall) : Database ModelDb :=
  db.run apply (call.run plainRules)

def supportedModel : Database ModelDb :=
  called (called (called ⟨{}, 0⟩ (.insert 0 (plainDraft 1 []))) (.insert 0 (plainDraft 3 [])))
    (.insert 0 (plainDraft 2 [1]))

def toThird : RelationArgs :=
  { modelId := 2, tenantId := 0, detectedBy := "manual", supports := some [3] }

def regrouped : Database ModelDb := called supportedModel (.setModelRelations 0 toThird)

def movedSupporter : Database ModelDb := called regrouped (.archive 0 1 .deprecated)

/-- Model 2 moves from supporter 1 to supporter 3, and model 1 is archived. Archiving 3 next would
break the contract. -/
theorem dual_write_of_kept_moved : ∃ db, Reach (modelStep plainRules) KeepsDualWrite ⟨{}, 0⟩ db ∧
      (db.state.models.get 2).map (fun row => (row.tenantId, row.status, row.supportingModelIds)) =
        some (0, .active, [3]) ∧
      (db.state.models.get 1).map ModelRow.status = some .archived ∧ DualWritten db.state ∧
      ∀ value after left, Tx.Returns apply (archive 0 3 .deprecated) db.state db.supply value
        after left → ¬ DualWritten after := by
  have hinsert : ∀ db : Database ModelDb, db.state.edges.primaryKeys = [] → ∀ id supporters,
      KeepsDualWrite db (.insert 0 (plainDraft id supporters)) := by
    intro db hempty id supporters modelId _
    have hnone : ∀ key row, db.state.edges.get key ≠ some row := by
      intro key row hrow
      simpa [hempty] using (Table.mem_primaryKeys_iff _ _).mpr ⟨row, hrow⟩
    refine ⟨?_, ?_, ?_, ?_, ?_⟩ <;> intro item <;> simp [ActiveAt, StaleAt, hnone]
  have hactive : ∀ key, ActiveAt supportedModel.state key → key = ⟨0, 1, 2, supports⟩ := by
    rintro key ⟨row, hrow, -⟩
    have hkeys : supportedModel.state.edges.primaryKeys = [⟨0, 1, 2, supports⟩] := by
      decide +kernel
    simpa [hkeys] using (Table.mem_primaryKeys_iff _ _).mpr ⟨row, hrow⟩
  have hstale : ¬ StaleAt supportedModel.state ⟨0, 3, 2, supports⟩ := by
    rintro ⟨row, hrow, -⟩
    have hnone : supportedModel.state.edges.get ⟨0, 3, 2, supports⟩ = none := by decide +kernel
    cases hnone.symm.trans hrow
  have hcovered : KeepsDualWrite supportedModel (.setModelRelations 0 toThird) := by
    refine fun row hrow _ => ⟨?_, ?_, ?_, ?_, .inl rfl⟩
    · have htenants : ∀ pair ∈ supportedModel.state.models.rows, pair.2.tenantId = 0 := by
        decide +kernel
      exact htenants (2, row) ((Table.mem_rows_iff _ _ _).mpr hrow)
    · rintro item (hlisted | hpattern)
      · obtain rfl := mem_singleton.mp hlisted
        exact .inl ⟨hlisted, hstale⟩
      · cases hactive _ hpattern
    · intro item hcontributes
      cases hactive _ hcontributes
    · intro key _ hkey
      rw [hactive key hkey]
      rfl
  have hunlisted : KeepsDualWrite regrouped (.archive 0 1 .deprecated) := by
    intro row _ other otherRow hother hrow _ _
    have hrows : ∀ pair ∈ regrouped.state.models.rows,
        1 ∉ pair.2.supportingModelIds ∧ 1 ∉ pair.2.contributingModels := by decide +kernel
    exact hrows (other, otherRow) ((Table.mem_rows_iff _ _ _).mpr hrow)
  have hreach : Reach (modelStep plainRules) KeepsDualWrite ⟨{}, 0⟩ movedSupporter :=
    ((((Reach.start.next (hinsert _ rfl 1 []) rfl).next (hinsert _ (by decide +kernel) 3 [])
      rfl).next (hinsert _ (by decide +kernel) 2 [1]) rfl).next hcovered rfl).next hunlisted rfl
  obtain ⟨hwritten, harchive⟩ := dual_write_of_kept rfl hreach
  have hrow : (movedSupporter.state.models.get 2).map (fun row =>
      (row.tenantId, row.status, row.supportingModelIds)) = some (0, .active, [3]) := by
    decide +kernel
  have hsupporter : (movedSupporter.state.models.get 3).map ModelRow.tenantId = some 0 := by
    decide +kernel
  refine ⟨_, hreach, hrow, by decide +kernel, hwritten, ?_⟩
  intro value after left hreturns hafter
  obtain ⟨row, hget, hfields⟩ := Option.map_eq_some_iff.mp hrow
  obtain ⟨supporter, hfound, hhome⟩ := Option.map_eq_some_iff.mp hsupporter
  obtain ⟨htenant, hstatus, hlisted⟩ : row.tenantId = 0 ∧ row.status = .active ∧
      row.supportingModelIds = [3] := by
    simpa only [Prod.mk.injEq] using hfields
  refine ((harchive _ _ _ _ _ _ hreturns).mp hafter supporter hfound 2 row (by decide) hget
    hstatus (htenant.trans hhome.symm)).1 ?_
  rw [hlisted]
  exact mem_singleton_self 3

def archivedSupporter : Database ModelDb :=
  called (called (called ⟨{}, 0⟩ (.insert 0 (plainDraft 1 []))) (.insert 0 (plainDraft 2 [1])))
    (.archive 0 1 .deprecated)

/-- The array of model 2 still lists the archived model, whose edge is inert. -/
theorem archived_supporter_stays_listed :
    ∃ db, Reach (modelStep plainRules) anyStep ⟨{}, 0⟩ db ∧ ¬ DualWritten db.state := by
  refine ⟨archivedSupporter, ((Reach.start.next trivial rfl).next trivial rfl).next trivial rfl,
    fun hwritten => ?_⟩
  have hrow : ((archivedSupporter.state.models.get 2).map fun row =>
      (row.tenantId, row.status, row.supportingModelIds)) = some (0, .active, [1]) := by
    decide +kernel
  obtain ⟨row, hget, hfields⟩ := Option.map_eq_some_iff.mp hrow
  obtain ⟨htenant, hstatus, hsupporting⟩ : row.tenantId = 0 ∧ row.status = .active ∧
      row.supportingModelIds = [1] := by
    simpa only [Prod.mk.injEq] using hfields
  have hagree := (hwritten 2 row hget hstatus).supporting 1
  rw [hsupporting, htenant] at hagree
  have hinert : (archivedSupporter.state.edges.get ⟨0, 1, 2, supports⟩).map
      EdgeRow.status = some .inert := by
    decide +kernel
  have hnone : (archivedSupporter.state.edges.get ⟨0, 2, 1, instanceOf⟩).map
      EdgeRow.status = none := by
    decide +kernel
  rcases hagree.mp (mem_singleton_self 1) with ⟨edge, hedge, hactive⟩ | ⟨edge, hedge, -⟩
  · rw [hedge, Option.map_some, hactive] at hinert
    cases hinert
  · rw [hedge] at hnone
    cases hnone

end FyralisCore.Models
