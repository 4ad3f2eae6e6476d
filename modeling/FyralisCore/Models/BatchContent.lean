import FyralisCore.Models.BatchPlan
import FyralisCore.Models.CycleScopes
import FyralisCore.Models.InsertEffects

/-! What inserted models leave in the edges and the sidecars, as a relation that
both ways of inserting a batch satisfy, up to what the edges say of their
evidence. -/
namespace FyralisCore.Models

open Relational Transaction Relation List

variable {rules : InsertRules} {db m after : ModelDb} {supply left now : Nat}

/-- What an edge says besides identifiers and timestamps. -/
structure EdgeContent where
  status : EdgeStatus
  confidence : Rat
  evidenceEventIds : List Nat
  evidenceModelIds : List Nat
  reviewStatus : ReviewStatus
  confirmedCount : Nat
  deriving DecidableEq

def EdgeRow.content (row : EdgeRow) : EdgeContent where
  status := row.status
  confidence := row.confidence
  evidenceEventIds := row.evidenceEventIds
  evidenceModelIds := row.evidenceModelIds
  reviewStatus := row.reviewStatus
  confirmedCount := row.confirmedCount

def ScopeRow.content (row : ScopeRow) : ScopeRow :=
  { row with createdAt := 0 }

def CompositionRow.content (row : CompositionRow) : CompositionRow :=
  { row with createdAt := 0 }

structure SameContent (first second : ModelDb) : Prop where
  edges : ∀ key, (first.edges.get key).map EdgeRow.content =
    (second.edges.get key).map EdgeRow.content
  scopeActors : ∀ key, (first.scopeActors.get key).map ScopeRow.content =
    (second.scopeActors.get key).map ScopeRow.content
  scopeEntities : ∀ key, (first.scopeEntities.get key).map ScopeRow.content =
    (second.scopeEntities.get key).map ScopeRow.content
  compositionMembers : ∀ key, (first.compositionMembers.get key).map CompositionRow.content =
    (second.compositionMembers.get key).map CompositionRow.content

theorem SameContent.refl (db : ModelDb) : SameContent db db :=
  ⟨fun _ => rfl, fun _ => rfl, fun _ => rfl, fun _ => rfl⟩

structure SidecarsOf (rules : InsertRules) (after : ModelDb) (planned : PlannedModel) : Prop where
  scopeActors : ∀ actor, (after.scopeActors.get (planned.id, actor)).map ScopeRow.content =
    if actor ∈ planned.proposed.scopeActors then
      some { tenantId := planned.proposed.tenantId, createdAt := 0 } else none
  scopeEntities : ∀ entity, (after.scopeEntities.get (planned.id, entity)).map ScopeRow.content =
    if entity ∈ scopeEntityKeys rules planned.proposed.scopeEntities then
      some { tenantId := planned.proposed.tenantId, createdAt := 0 } else none
  compositionMembers : ∀ member,
    (after.compositionMembers.get (planned.id, member)).map CompositionRow.content =
      if member ∈ compositionMemberIds rules planned.id planned.proposed.proposition then
        some (compositionRow rules 0 planned.proposed.tenantId planned.proposed.proposition)
      else none

/-- The models are inserted, with `edgeContent` the content of the edges they
name; nothing is said of, or changed in, the rest. -/
structure Inserted (rules : InsertRules) (edgeContent : PlannedModel → EdgeKey → EdgeContent)
    (db after : ModelDb) (models : List PlannedModel) : Prop where
  rows : ∀ planned ∈ models, ∃ row, after.models.get planned.id = some row ∧
    row.supportingModelIds = planned.proposed.supportingModelIds
  otherRows : ∀ id, (∀ planned ∈ models, planned.id ≠ id) →
    after.models.get id = db.models.get id
  edges : ∀ planned ∈ models, ∀ key, NamesEdge planned key →
    (after.edges.get key).map EdgeRow.content = some (edgeContent planned key)
  otherEdges : ∀ key, (∀ planned ∈ models, ¬ NamesEdge planned key) →
    after.edges.get key = db.edges.get key
  sidecars : ∀ planned ∈ models, SidecarsOf rules after planned
  otherActors : ∀ key, (∀ planned ∈ models, planned.id ≠ key.1) →
    after.scopeActors.get key = db.scopeActors.get key
  otherEntities : ∀ key, (∀ planned ∈ models, planned.id ≠ key.1) →
    after.scopeEntities.get key = db.scopeEntities.get key
  otherMembers : ∀ key, (∀ planned ∈ models, planned.id ≠ key.1) →
    after.compositionMembers.get key = db.compositionMembers.get key
  actors : after.actors = db.actors

section

variable {edgeContent : PlannedModel → EdgeKey → EdgeContent} {models later : List PlannedModel}

theorem Inserted.nil (rules : InsertRules) (edgeContent : PlannedModel → EdgeKey → EdgeContent)
    (db : ModelDb) : Inserted rules edgeContent db db [] :=
  ⟨nofun, fun _ _ => rfl, nofun, fun _ _ => rfl, nofun, fun _ _ => rfl, fun _ _ => rfl,
    fun _ _ => rfl, rfl⟩

theorem NamesEdge.target_eq (hn : NamesEdge planned key) : key.target = planned.id :=
  hn.2.1

theorem SidecarsOf.congr (hs : SidecarsOf rules db planned)
    (ha : ∀ actor, after.scopeActors.get (planned.id, actor) =
      db.scopeActors.get (planned.id, actor))
    (he : ∀ entity, after.scopeEntities.get (planned.id, entity) =
      db.scopeEntities.get (planned.id, entity))
    (hm : ∀ member, after.compositionMembers.get (planned.id, member) =
      db.compositionMembers.get (planned.id, member)) : SidecarsOf rules after planned where
  scopeActors actor := by rw [ha, hs.scopeActors]
  scopeEntities entity := by rw [he, hs.scopeEntities]
  compositionMembers member := by rw [hm, hs.compositionMembers]

theorem Inserted.append (h1 : Inserted rules edgeContent db m models)
    (h2 : Inserted rules edgeContent m after later)
    (hd : ∀ planned ∈ models, ∀ other ∈ later, other.id ≠ planned.id) :
    Inserted rules edgeContent db after (models ++ later) := by
  have hn : ∀ planned ∈ models, ∀ key, NamesEdge planned key →
      ∀ other ∈ later, ¬ NamesEdge other key := fun planned hm key hn other ho hname =>
      hd planned hm other ho (hname.target_eq.symm.trans hn.target_eq)
  constructor
  · intro planned hm
    rcases mem_append.mp hm with hm | hm
    · rw [h2.otherRows planned.id fun other ho => hd planned hm other ho]
      exact h1.rows planned hm
    · exact h2.rows planned hm
  · intro id ho
    rw [h2.otherRows id fun planned hm => ho planned (mem_append_right _ hm),
      h1.otherRows id fun planned hm => ho planned (mem_append_left _ hm)]
  · intro planned hm key hk
    rcases mem_append.mp hm with hm | hm
    · rw [h2.otherEdges key (hn planned hm key hk)]
      exact h1.edges planned hm key hk
    · exact h2.edges planned hm key hk
  · intro key ho
    rw [h2.otherEdges key fun planned hm => ho planned (mem_append_right _ hm),
      h1.otherEdges key fun planned hm => ho planned (mem_append_left _ hm)]
  · intro planned hm
    rcases mem_append.mp hm with hm | hm
    · have ha : ∀ other ∈ later, other.id ≠ planned.id := hd planned hm
      exact (h1.sidecars planned hm).congr (fun _ => h2.otherActors _ ha)
        (fun _ => h2.otherEntities _ ha) fun _ => h2.otherMembers _ ha
    · exact h2.sidecars planned hm
  · intro key ho
    rw [h2.otherActors key fun planned hm => ho planned (mem_append_right _ hm),
      h1.otherActors key fun planned hm => ho planned (mem_append_left _ hm)]
  · intro key ho
    rw [h2.otherEntities key fun planned hm => ho planned (mem_append_right _ hm),
      h1.otherEntities key fun planned hm => ho planned (mem_append_left _ hm)]
  · intro key ho
    rw [h2.otherMembers key fun planned hm => ho planned (mem_append_right _ hm),
      h1.otherMembers key fun planned hm => ho planned (mem_append_left _ hm)]
  · rw [h2.actors, h1.actors]

theorem Inserted.perm (hi : Inserted rules edgeContent db after models)
    (hp : models.Perm later) : Inserted rules edgeContent db after later where
  rows planned hm := hi.rows planned (hp.mem_iff.mpr hm)
  otherRows id ho :=
    hi.otherRows id fun planned hm => ho planned (hp.mem_iff.mp hm)
  edges planned hm := hi.edges planned (hp.mem_iff.mpr hm)
  otherEdges key ho := hi.otherEdges key fun planned hm => ho planned (hp.mem_iff.mp hm)
  sidecars planned hm := hi.sidecars planned (hp.mem_iff.mpr hm)
  otherActors key ho := hi.otherActors key fun planned hm => ho planned (hp.mem_iff.mp hm)
  otherEntities key ho := hi.otherEntities key fun planned hm => ho planned (hp.mem_iff.mp hm)
  otherMembers key ho := hi.otherMembers key fun planned hm => ho planned (hp.mem_iff.mp hm)
  actors := hi.actors

end

/-- No edge leads to the identifier and it has no sidecar rows. -/
structure Unused (db : ModelDb) (modelId : Nat) : Prop where
  edges : ∀ key : EdgeKey, key.target = modelId → db.edges.get key = none
  scopeActors : ∀ actor, db.scopeActors.get (modelId, actor) = none
  scopeEntities : ∀ entity, db.scopeEntities.get (modelId, entity) = none
  compositionMembers : ∀ member, db.compositionMembers.get (modelId, member) = none

variable {edgeContent : PlannedModel → EdgeKey → EdgeContent} {models : List PlannedModel}
  {modelId other tenantId : Nat} {planned : PlannedModel} {scope : List EdgeKind}

theorem Inserted.unused (hi : Inserted rules edgeContent db after models) (hu : Unused db modelId)
    (ha : ∀ planned ∈ models, planned.id ≠ modelId) : Unused after modelId where
  edges key ht := by
    rw [hi.otherEdges key fun planned hm hn =>
      ha planned hm (hn.target_eq.symm.trans ht)]
    exact hu.edges key ht
  scopeActors actor := by rw [hi.otherActors _ ha, hu.scopeActors]
  scopeEntities entity := by rw [hi.otherEntities _ ha, hu.scopeEntities]
  compositionMembers member := by
    rw [hi.otherMembers _ ha, hu.compositionMembers]

/-- The kinds that list a dependency of a model or share a scope with one. -/
def dependencyKinds : List EdgeKind :=
  [RegistryKind.supports, RegistryKind.contributesToResolution, RegistryKind.instanceOf]

/-- A model or a draft lists the other one, or an active edge leads from it. -/
def DependsOn (db : ModelDb) (models : List PlannedModel) (modelId other : Nat) : Prop :=
  (∃ row, db.models.get modelId = some row ∧ other ∈ row.supportingModelIds) ∨
    (∃ key row, db.edges.get key = some row ∧ row.status = .active ∧
      key.kind ∈ dependencyKinds ∧ key.source = other ∧ key.target = modelId) ∨
    ∃ planned ∈ models, planned.id = modelId ∧
      (other ∈ planned.proposed.supportingModelIds ∨ other ∈ planned.proposed.contributingModels)

def NoDependencyCycle (db : ModelDb) (models : List PlannedModel) : Prop :=
  ∀ planned ∈ models, ¬ TransGen (DependsOn db models) planned.id planned.id

theorem DependsOn.of_listed (hm : planned ∈ models)
    (hl : other ∈ planned.proposed.supportingModelIds ∨
      other ∈ planned.proposed.contributingModels) : DependsOn db models planned.id other :=
  .inr (.inr ⟨planned, hm, rfl, hl⟩)

theorem NoDependencyCycle.not_listed (ha : NoDependencyCycle db models) (hm : planned ∈ models) :
    planned.id ∉ planned.proposed.supportingModelIds ∧
      planned.id ∉ planned.proposed.contributingModels :=
  ⟨fun hl => ha planned hm (.single (.of_listed hm (.inl hl))),
    fun hl => ha planned hm (.single (.of_listed hm (.inr hl)))⟩

section

variable (hi : Inserted rules edgeContent db after models)

include hi

theorem Inserted.dependsOn (hd : DependsOn after later modelId other) : DependsOn db
    (models ++ later) modelId other := by
  rcases hd with ⟨row, hg, hl⟩ | ⟨key, row, hg, ha, hk, hs, ht⟩ | ⟨planned, hm, hid, hl⟩
  · by_cases hn : ∃ planned ∈ models, planned.id = modelId
    · obtain ⟨planned, hm, rfl⟩ := hn
      obtain ⟨found, hf, hsp⟩ := hi.rows planned hm
      cases hg.symm.trans hf
      exact .of_listed (mem_append_left _ hm) (.inl (hsp ▸ hl))
    · rw [hi.otherRows modelId fun planned hm hid => hn ⟨planned, hm, hid⟩] at hg
      exact .inl ⟨row, hg, hl⟩
  · by_cases hname : ∃ planned ∈ models, NamesEdge planned key
    · obtain ⟨planned, hm, -, hid, -, hl⟩ := hname
      refine .inr (.inr ⟨planned, mem_append_left _ hm, hid.symm.trans ht, ?_⟩)
      rcases hl with ⟨-, hl⟩ | ⟨-, hl⟩
      · exact .inl (hs ▸ hl)
      · exact .inr (hs ▸ hl)
    · rw [hi.otherEdges key fun planned hm hna => hname ⟨planned, hm, hna⟩] at hg
      exact .inr (.inl ⟨key, row, hg, ha, hk, hs, ht⟩)
  · exact .inr (.inr ⟨planned, mem_append_right _ hm, hid, hl⟩)

theorem Inserted.noDependencyCycle (ha : NoDependencyCycle db (models ++ later)) :
    NoDependencyCycle after later :=
  fun planned hm hc => ha planned (mem_append_right _ hm)
    (TransGen.mono (fun _ _ => hi.dependsOn) _ _ hc)

end

def RefusedByStratum (rules : InsertRules) (db : ModelDb) (planned : PlannedModel) : Prop :=
  (db.models.get planned.id).isSome ∨ checkFalsifier rules planned.proposed ≠ .ok ()

def Rejected (rules : InsertRules) (db : ModelDb) (planned : PlannedModel) : Prop :=
  RefusedByStratum rules db planned ∨
    missingActors db planned.proposed.tenantId planned.proposed.scopeActors ≠ []

theorem dependsOn_of_scopeGraph (hs : scope ⊆ dependencyKinds)
    (he : scopeGraph db tenantId scope source target) : DependsOn db models target source := by
  obtain ⟨kind, hk, row, hg, ha⟩ := (scopeGraph_iff _ _ _ _ _).mp he
  exact .inr (.inl ⟨_, row, hg, ha, hs hk, rfl, rfl⟩)

theorem dependsOn_of_path (hs : scope ⊆ dependencyKinds)
    (hp : ReflTransGen (scopeGraph db tenantId scope) source target) :
    ReflTransGen (DependsOn db models) target source := by
  induction hp with
  | refl => exact .refl
  | tail _ he ih => exact .head (dependsOn_of_scopeGraph hs he) ih

theorem cycleError_eq_none_of_unused (hu : Unused db modelId) :
    cycleError db kind modelId targets tenantId scope = none := by
  unfold cycleError
  dsimp only
  split
  · rfl
  · rw [if_neg]
    intro hr
    obtain ⟨start, hs, hp⟩ := (mem_reachable_iff _ _ _).mp hr
    rcases ReflTransGen.cases_tail hp with rfl | ⟨last, -, he⟩
    · simp at hs
    · obtain ⟨_, -, row, hg, -⟩ := (scopeGraph_iff _ _ _ _ _).mp he
      rw [hu.edges _ rfl] at hg
      cases hg

theorem dependsOn_of_supportingArrays
    (he : EdgeOf (supportingArrays db) modelId other) : DependsOn db models modelId other := by
  obtain ⟨⟨found, row⟩, hr, hp⟩ := mem_flatMap.mp he
  obtain ⟨supporting, hs, heq⟩ := mem_map.mp hp
  obtain ⟨rfl, rfl⟩ := Prod.mk.inj heq
  exact .inl ⟨row, (Table.mem_rows_iff _ _ _).mp hr, hs⟩

theorem supportCycleError_eq_none (hu : Unused db planned.id)
    (ha : NoDependencyCycle db models) (hm : planned ∈ models) :
    supportCycleError db planned.id planned.proposed.supportingModelIds = none := by
  unfold supportCycleError
  by_cases hem : planned.proposed.supportingModelIds = []
  · rw [if_pos hem]
  · rw [if_neg hem, if_neg (ha.not_listed hm).1]
    dsimp only
    have hed : (do
        cycleError db RegistryKind.supports planned.id planned.proposed.supportingModelIds
          (← planned.proposed.supportingModelIds.findSome? fun support =>
            (db.models.get support).map ModelRow.tenantId)
          (← (edgeRegistry .supports).cycleScope) : Option ModelError) = none := by
      cases planned.proposed.supportingModelIds.findSome? fun support =>
          (db.models.get support).map ModelRow.tenantId with
      | none => rfl
      | some tenantId => exact cycleError_eq_none_of_unused hu
    rw [hed, Option.none_or, if_neg]
    intro hr
    obtain ⟨start, hs0, hp⟩ := (mem_reachable_iff _ _ _).mp hr
    obtain ⟨⟨support, first⟩, hs, rfl⟩ := mem_map.mp hs0
    obtain ⟨he, hl⟩ := mem_filter.mp hs
    -- The arrays lead from a supporter back to the draft, which lists it.
    have hb : ReflTransGen (DependsOn db models) support planned.id :=
      .head (dependsOn_of_supportingArrays ((edgeOf_iff _ _ _).mpr he))
        (ReflTransGen.mono (fun _ _ => dependsOn_of_supportingArrays) _ _ hp)
    exact ha planned hm (.head' (.of_listed hm (.inl (of_decide_eq_true hl))) hb)

/-- What the inserts of a batch take for granted of its drafts and of the state
they begin in. -/
structure Insertable (db : ModelDb) (models : List PlannedModel) : Prop where
  given : ∀ planned ∈ models, planned.proposed.id = some planned.id
  role : ∀ planned ∈ models, claimRole planned.proposed.proposition ≠ .recommendation
  nodup : (models.map PlannedModel.id).Nodup
  unused : ∀ planned ∈ models, db.models.get planned.id = none → Unused db planned.id
  acyclic : NoDependencyCycle db models

section

variable {edgeContent : PlannedModel → EdgeKey → EdgeContent} {models later : List PlannedModel}
  {refused : ModelDb → PlannedModel → Prop}

theorem Insertable.disjoint (hi : Insertable db (models ++ later)) :
    ∀ planned ∈ models, ∀ other ∈ later, other.id ≠ planned.id := by
  intro planned hm other ho he
  have hn := hi.nodup
  rw [map_append] at hn
  exact (nodup_append.mp hn).2.2 _ (mem_map_of_mem hm) _ (mem_map_of_mem ho) he.symm

theorem Insertable.subset (hi : Insertable db models) (hs : later ⊆ models)
    (hn : (later.map PlannedModel.id).Nodup) : Insertable db later where
  given planned hm := hi.given planned (hs hm)
  role planned hm := hi.role planned (hs hm)
  nodup := hn
  unused planned hm := hi.unused planned (hs hm)
  acyclic planned hm hc := by
    refine hi.acyclic planned (hs hm) (TransGen.mono (fun modelId other hd => ?_) _ _ hc)
    rcases hd with ha | he | ⟨listing, hls, hl⟩
    · exact .inl ha
    · exact .inr (.inl he)
    · exact .inr (.inr ⟨listing, hs hls, hl⟩)

theorem Insertable.first (hi : Insertable db (models ++ later)) : Insertable db models := by
  have hn := hi.nodup
  rw [map_append] at hn
  exact hi.subset (subset_append_left _ _) (nodup_append.mp hn).1

theorem Insertable.rest (hin : Insertable db (models ++ later))
    (hi : Inserted rules edgeContent db after models) : Insertable after later where
  given planned hm := hin.given planned (mem_append_right _ hm)
  role planned hm := hin.role planned (mem_append_right _ hm)
  nodup := by
    have hn := hin.nodup
    rw [map_append] at hn
    exact (nodup_append.mp hn).2.1
  unused planned hm hf := by
    have ha : ∀ other ∈ models, other.id ≠ planned.id := fun other ho =>
      (hin.disjoint other ho planned hm).symm
    rw [hi.otherRows planned.id ha] at hf
    exact hi.unused (hin.unused planned (mem_append_right _ hm) hf) ha
  acyclic := hi.noDependencyCycle hin.acyclic

theorem Insertable.perm (hi : Insertable db models) (hp : models.Perm later) :
    Insertable db later :=
  hi.subset hp.symm.subset (((hp.map PlannedModel.id).nodup_iff).mp hi.nodup)

/-- The body inserts the models with these edges, unless it refuses one. -/
structure Inserts (rules : InsertRules) (edgeContent : PlannedModel → EdgeKey → EdgeContent)
    (refused : ModelDb → PlannedModel → Prop) (body : ModelTx Unit) (db : ModelDb)
    (models : List PlannedModel) : Prop where
  returns : (∀ planned ∈ models, ¬ refused db planned) → ∀ supply, ∃ after left,
    Tx.Returns ModelDb.apply body db supply () after left
  accepted : ∀ supply after left, Tx.Returns ModelDb.apply body db supply () after left →
    ∀ planned ∈ models, ¬ refused db planned
  inserted : ∀ supply after left, Tx.Returns ModelDb.apply body db supply () after left →
    Inserted rules edgeContent db after models

/-- Whether a model is refused does not depend on the others inserted. -/
def Stable (rules : InsertRules) (edgeContent : PlannedModel → EdgeKey → EdgeContent)
    (refused : ModelDb → PlannedModel → Prop) : Prop :=
  ∀ db after models planned, Inserted rules edgeContent db after models →
    (∀ other ∈ models, other.id ≠ planned.id) → (refused after planned ↔ refused db planned)

theorem inserts_forEach (hsb : Stable rules edgeContent refused)
    (hb : ∀ item db, Insertable db (modelsOf item) →
      Inserts rules edgeContent refused (body item) db (modelsOf item))
    (hin : Insertable db (items.flatMap modelsOf)) :
    Inserts rules edgeContent refused (Tx.forEach items body) db (items.flatMap modelsOf) := by
  induction items generalizing db with
  | nil =>
    refine ⟨fun _ supply => ⟨db, supply, Tx.returns_forEach_nil.mpr ⟨rfl, rfl⟩⟩,
      fun _ _ _ _ _ hm => absurd hm not_mem_nil, fun supply after left hr => ?_⟩
    obtain ⟨rfl, -⟩ := Tx.returns_forEach_nil.mp hr
    exact .nil rules edgeContent db
  | cons item rest ih =>
    have h1 := hb item db hin.first
    -- What the first round leaves decides about the others as the start did.
    have hs : ∀ m, Inserted rules edgeContent db m (modelsOf item) →
        ∀ planned ∈ rest.flatMap modelsOf, (refused m planned ↔ refused db planned) :=
      fun m hins planned hm => hsb _ _ _ _ hins fun other ho =>
        (hin.disjoint other ho planned hm).symm
    constructor
    · intro ha supply
      obtain ⟨m, k, hi⟩ :=
        h1.returns (fun planned hm => ha planned (mem_append_left _ hm)) supply
      have hins := h1.inserted _ _ _ hi
      obtain ⟨after, left, ht⟩ := (ih (hin.rest hins)).returns
        (fun planned hm hrf => ha planned (mem_append_right _ hm) ((hs m hins planned hm).mp hrf)) k
      exact ⟨after, left, Tx.returns_forEach_cons.mpr ⟨m, k, hi, ht⟩⟩
    · intro supply after left hr planned hm
      obtain ⟨m, k, hi, ht⟩ := Tx.returns_forEach_cons.mp hr
      rcases mem_append.mp hm with hm | hm
      · exact h1.accepted _ _ _ hi planned hm
      · have hins := h1.inserted _ _ _ hi
        rw [← hs m hins planned hm]
        exact (ih (hin.rest hins)).accepted _ _ _ ht planned hm
    · intro supply after left hr
      obtain ⟨m, k, hi, ht⟩ := Tx.returns_forEach_cons.mp hr
      have hins := h1.inserted _ _ _ hi
      exact hins.append ((ih (hin.rest hins)).inserted _ _ _ ht) hin.disjoint

theorem stable_refusedByStratum : Stable rules edgeContent (RefusedByStratum rules) := by
  intro db after models planned hi ha
  unfold RefusedByStratum
  rw [hi.otherRows planned.id ha]

theorem stable_rejected : Stable rules edgeContent (Rejected rules) := by
  intro db after models planned hi ha
  unfold Rejected missingActors
  rw [stable_refusedByStratum db after models planned hi ha, hi.actors]

end

end FyralisCore.Models
