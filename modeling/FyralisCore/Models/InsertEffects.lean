import FyralisCore.Models.Batch
import FyralisCore.Models.RelationEffects

/-! What an insert leaves: of one model, and of a batch written set by set. -/
namespace FyralisCore.Models

open Relational Transaction List Tx

variable {rules : InsertRules} {db m after : ModelDb} {supply left now : Nat}

structure GraphUnchanged (db after : ModelDb) : Prop where
  models : after.models = db.models
  edges : after.edges = db.edges
  proposals : after.proposals = db.proposals

theorem GraphUnchanged.refl (db : ModelDb) : GraphUnchanged db db :=
  ⟨rfl, rfl, rfl⟩

theorem GraphUnchanged.trans (h1 : GraphUnchanged db m)
    (h2 : GraphUnchanged m after) : GraphUnchanged db after :=
  ⟨h2.models.trans h1.models, h2.edges.trans h1.edges, h2.proposals.trans h1.proposals⟩

variable {r : Unit} {modelId tenantId : Nat} {scopeActors : List Nat} {proposed : ModelCreate}
  {key : EdgeKey} {stratum : List PlannedModel}

theorem graphUnchanged_forEach (hb : ∀ item db supply after left,
      Tx.Returns ModelDb.apply (body item) db supply () after left → GraphUnchanged db after)
    (hr : Tx.Returns ModelDb.apply (Tx.forEach items body) db supply r after left) :
    GraphUnchanged db after := by
  induction items generalizing db supply with
  | nil =>
    obtain ⟨rfl, -⟩ := returns_forEach_nil.mp hr
    exact .refl _
  | cons item rest ih =>
    obtain ⟨m, k, hi, ht⟩ := returns_forEach_cons.mp hr
    exact (hb _ _ _ _ _ hi).trans (ih ht)

theorem graphUnchanged_change (hr : Tx.Returns ModelDb.apply (change w) db supply r after left)
    (hw : ∀ db, GraphUnchanged db (w db)) : GraphUnchanged db after := by
  obtain ⟨rfl, -⟩ := returns_change.mp hr
  exact hw db

theorem graphUnchanged_scopeSidecars (hr : Tx.Returns ModelDb.apply
      (syncModelScopeSidecars rules now modelId tenantId scopeActors scopeEntities) db supply
      r after left) : GraphUnchanged db after := by
  obtain ⟨_, _, _, ha, hr⟩ := hr.parts
  obtain ⟨_, _, _, hen, hr⟩ := hr.parts
  obtain ⟨_, _, _, hac, he⟩ := hr.parts
  refine (graphUnchanged_change ha fun _ => ⟨rfl, rfl, rfl⟩).trans ?_
  refine (graphUnchanged_change hen fun _ => ⟨rfl, rfl, rfl⟩).trans ?_
  refine (graphUnchanged_forEach (fun _ _ _ _ _ hi => ?_) hac).trans
    (graphUnchanged_forEach (fun _ _ _ _ _ hi => ?_) he)
  · exact graphUnchanged_change hi fun _ => ⟨rfl, rfl, rfl⟩
  · exact graphUnchanged_change hi fun _ => ⟨rfl, rfl, rfl⟩

theorem graphUnchanged_compositionMembers (hr : Tx.Returns ModelDb.apply
      (syncModelCompositionMembers rules now modelId tenantId proposition) db supply r after
      left) : GraphUnchanged db after := by
  obtain ⟨_, _, _, hd, hm⟩ := hr.parts
  refine (graphUnchanged_change hd fun _ => ⟨rfl, rfl, rfl⟩).trans
    (graphUnchanged_forEach (fun _ _ _ _ _ hi => ?_) hm)
  exact graphUnchanged_change hi fun _ => ⟨rfl, rfl, rfl⟩

theorem returns_idOrNew {given : Option Nat} {id : Nat}
    (hr : Tx.Returns ModelDb.apply (idOrNew given) db supply id after left) : db = after := by
  cases given with
  | some found => exact hr.ended.2.1
  | none => exact (returns_newId.mp hr).2.1

theorem returns_prepareInsertPayload
    (hrt : Tx.Returns ModelDb.apply (prepareInsertPayload rules modelId proposed) db supply
      r after left) : db = after := by
  unfold prepareInsertPayload checkNoSupportCycle validateScopeActors at hrt
  simp only [bind_eq_bind, returns_bind, returns_require, returns_when] at hrt
  obtain ⟨_, _, _, ⟨-, rfl, -⟩, _, _, _, hr, -, rfl, -⟩ := hrt
  rcases hr with ⟨-, -, rfl, -⟩ | ⟨-, rfl, -⟩ <;> rfl

def TakesId (supply : Nat) (proposed : ModelCreate) (modelId : Nat) : Prop :=
  proposed.id = some modelId ∨ (proposed.id = none ∧ supply ≤ modelId)

theorem takesId_of_returns
    (hr : Tx.Returns ModelDb.apply (insertConstructed rules now proposed) db supply modelId
      after left) : TakesId supply proposed modelId := by
  obtain ⟨_, _, _, hf, hr⟩ := hr.parts
  obtain ⟨-, -, rfl⟩ := returns_ofExcept.mp hf
  obtain ⟨id, _, _, hi, hr⟩ := hr.parts
  obtain ⟨_, _, _, -, hr⟩ := hr.parts
  obtain ⟨_, _, _, -, hr⟩ := hr.parts
  obtain ⟨_, _, _, -, hd⟩ := hr.parts
  obtain ⟨rfl, -, -⟩ := hd.ended
  unfold TakesId
  cases hg : proposed.id with
  | some given =>
    rw [hg] at hi
    obtain ⟨rfl, -, -⟩ := hi.ended
    exact .inl rfl
  | none =>
    rw [hg] at hi
    obtain ⟨rfl, -, -⟩ := returns_newId.mp hi
    exact .inr ⟨rfl, le_rfl⟩

theorem id_of_returns_insertConstructed {given : Nat} (hg : proposed.id = some given)
    (hr : Tx.Returns ModelDb.apply (insertConstructed rules now proposed) db supply modelId
      after left) : modelId = given := by
  rcases takesId_of_returns hr with hi | ⟨hn, -⟩
  · exact Option.some.inj (hi.symm.trans hg)
  · rw [hg] at hn
    cases hn

theorem returns_insertModelRow :
    Tx.Returns ModelDb.apply (insertModelRow now modelId proposed) db supply r after left ↔
      db.models.get modelId = none ∧
        after = { db with models := db.models.put modelId (proposed.row now) } ∧ supply = left := by
  unfold insertModelRow
  rw [returns_execute]
  cases db.models.get modelId with
  | none => simp
  | some row => simp

theorem returns_insertConstructed
    (hrt : Tx.Returns ModelDb.apply (insertConstructed rules now proposed) db supply modelId
      after left) : db.models.get modelId = none ∧ ∃ inserted,
      inserted.models = db.models.put modelId (proposed.row now) ∧ inserted.edges = db.edges ∧
      ((proposed.supportingModelIds = [] ∧ proposed.contributingModels = [] ∧ after = inserted) ∨
        ∃ supported, Converged inserted supported now (proposed.relations modelId)
            (supportsKey (proposed.relations modelId)) proposed.supportingModelIds ∧
          Converged supported after now (proposed.relations modelId)
            (contributesKey (proposed.relations modelId)) proposed.contributingModels) := by
  obtain ⟨_, _, _, hf, hrt⟩ := hrt.parts
  obtain ⟨-, rfl, rfl⟩ := returns_ofExcept.mp hf
  obtain ⟨id, _, _, hi, hrt⟩ := hrt.parts
  obtain rfl := returns_idOrNew hi
  obtain ⟨_, _, _, hp, hrt⟩ := hrt.parts
  obtain rfl := returns_prepareInsertPayload hp
  obtain ⟨_, _, _, hr, hrt⟩ := hrt.parts
  obtain ⟨_, _, _, hsy, hd⟩ := hrt.parts
  obtain ⟨rfl, rfl, -⟩ := hd.ended
  obtain ⟨ha, rfl, -⟩ := returns_insertModelRow.mp hr
  obtain ⟨_, _, _, hs, hsy⟩ := hsy.parts
  obtain ⟨_, inserted, _, hm, hrl⟩ := hsy.parts
  have hg := (graphUnchanged_scopeSidecars hs).trans (graphUnchanged_compositionMembers hm)
  refine ⟨ha, inserted, hg.models, hg.edges, ?_⟩
  rcases returns_when.mp hrl with ⟨-, hse⟩ | ⟨he, rfl, -⟩
  · obtain ⟨supported, contributed, instanced, superseded, hsu, hc, hin,
      hsp, har⟩ := returns_setModelRelations hse
    obtain rfl : instanced = contributed := hin
    obtain rfl := hsp.unchanged rfl
    rcases har with ⟨hu, -⟩ | ⟨-, rfl⟩
    · cases hu
    · exact .inr ⟨supported, hsu, hc⟩
  · refine .inl ⟨?_, ?_, rfl⟩ <;> simp_all

section

variable
  (hr :
    Tx.Returns ModelDb.apply (insertConstructed rules now proposed) db supply modelId after left)

include hr

theorem models_of_returns_insertConstructed : after.models = db.models.put modelId
    (proposed.row now) := by
  obtain ⟨-, inserted, hm, -, ⟨-, -, rfl⟩ | ⟨supported, hs, hc⟩⟩ :=
    returns_insertConstructed hr
  · exact hm
  · rw [← hm, ← hs.edgesOnly.models]
    exact hc.edgesOnly.models

theorem checkFalsifier_of_returns : checkFalsifier rules proposed = .ok () := by
  obtain ⟨_, _, _, hf, -⟩ := hr.parts
  exact (returns_ofExcept.mp hf).1

end

def NamesEdge (planned : PlannedModel) (key : EdgeKey) : Prop :=
  key.tenantId = planned.proposed.tenantId ∧ key.target = planned.id ∧ key.source ≠ planned.id ∧
      ((key.kind = .registry .supports ∧ key.source ∈ planned.proposed.supportingModelIds) ∨
        (key.kind = .registry .contributesToResolution ∧
          key.source ∈ planned.proposed.contributingModels))

/-- A stratum is written: its models, its sidecars and its edges, each under
keys that were free. -/
structure StratumInserted (rules : InsertRules) (db after : ModelDb) (now : Nat)
    (stratum : List PlannedModel) : Prop where
  fresh : ∀ planned ∈ stratum, db.models.get planned.id = none
  nodup : (stratum.map PlannedModel.id).Nodup
  models : ∀ planned ∈ stratum,
    after.models.get planned.id = some (planned.proposed.row now)
  otherModels : ∀ id, (∀ planned ∈ stratum, planned.id ≠ id) →
    after.models.get id = db.models.get id
  actors : db.scopeActors.insertFresh (bulkActorRows now stratum) = some after.scopeActors
  entities : db.scopeEntities.insertFresh (bulkEntityRows rules now stratum) =
    some after.scopeEntities
  members : db.compositionMembers.insertFresh (bulkMemberRows rules now stratum) =
    some after.compositionMembers
  edges : ∀ planned ∈ stratum, ∀ key, NamesEdge planned key →
    db.edges.get key = none ∧ ∃ id, after.edges.get key =
      some (bulkEdgeRow now id planned.proposed.bornFromEventId key.source)
  otherEdges : ∀ key, (∀ planned ∈ stratum, ¬ NamesEdge planned key) →
    after.edges.get key = db.edges.get key
  rest : after.proposals = db.proposals ∧ after.actors = db.actors ∧
    after.reevalQueue = db.reevalQueue

theorem returns_bulkWrite [DecidableEq K] {table : ModelDb → Table K V} :
    Tx.Returns ModelDb.apply (bulkWrite constraint table store rows) db supply r after left ↔
      ∃ written, (table db).insertFresh rows = some written ∧ after = store db written ∧
        supply = left := by
  unfold bulkWrite
  rw [returns_execute]
  cases (table db).insertFresh rows with
  | none => simp
  | some written => simp

theorem mem_incomingEdges : (key, event) ∈ incomingEdges planned kind sources ↔
      (key.tenantId = planned.proposed.tenantId ∧ key.target = planned.id ∧
        key.source ≠ planned.id ∧ key.kind = .registry kind ∧ key.source ∈ sources) ∧
        event = planned.proposed.bornFromEventId := by
  simp only [incomingEdges, mem_map, mem_filter, decide_eq_true_eq, Prod.mk.injEq]
  constructor
  · rintro ⟨source, ⟨hm, hn⟩, rfl, rfl⟩
    exact ⟨⟨rfl, rfl, hn, rfl, hm⟩, rfl⟩
  · rintro ⟨⟨ht, htg, hn, hk, hm⟩, rfl⟩
    exact ⟨key.source, ⟨hm, hn⟩, by rw [← ht, ← htg, ← hk], rfl⟩

theorem mem_stratumEdges : (key, event) ∈ stratum.flatMap (fun planned =>
        incomingEdges planned .supports planned.proposed.supportingModelIds ++
          incomingEdges planned .contributesToResolution planned.proposed.contributingModels) ↔
      ∃ planned ∈ stratum, NamesEdge planned key ∧ event = planned.proposed.bornFromEventId := by
  simp only [mem_flatMap, mem_append, mem_incomingEdges, NamesEdge]
  constructor
  · rintro ⟨planned, hm, ⟨⟨ht, htg, hn, hk, hs⟩, he⟩ | ⟨⟨ht, htg, hn, hk, hs⟩, he⟩⟩
    · exact ⟨planned, hm, ⟨ht, htg, hn, .inl ⟨hk, hs⟩⟩, he⟩
    · exact ⟨planned, hm, ⟨ht, htg, hn, .inr ⟨hk, hs⟩⟩, he⟩
  · rintro ⟨planned, hm, ⟨ht, htg, hn, ⟨hk, hs⟩ | ⟨hk, hs⟩⟩, he⟩
    · exact ⟨planned, hm, .inl ⟨⟨ht, htg, hn, hk, hs⟩, he⟩⟩
    · exact ⟨planned, hm, .inr ⟨⟨ht, htg, hn, hk, hs⟩, he⟩⟩

theorem returns_mintRows {A : Type} {items : List A} {row : A → Nat → B} {rows : List B}
    (hr : Tx.Returns ModelDb.apply
      (Tx.mapEach items fun item => Tx.newId.bind fun id => .done (row item id) :
        ModelTx (List B)) db supply rows after left) :
    db = after ∧ List.Forall₂ (fun item made => ∃ id, made = row item id) items rows := by
  induction items generalizing db supply rows with
  | nil =>
    obtain ⟨rfl, rfl, -⟩ := hr.ended
    exact ⟨rfl, .nil⟩
  | cons item rest ih =>
    obtain ⟨made, _, _, hm, hr⟩ := hr.parts
    obtain ⟨id, _, _, hi, hm⟩ := hm.parts
    obtain ⟨-, rfl, -⟩ := returns_newId.mp hi
    obtain ⟨rfl, rfl, -⟩ := hm.ended
    obtain ⟨others, _, _, ho, hd⟩ := hr.parts
    obtain ⟨rfl, rfl, rfl⟩ := hd.ended
    obtain ⟨rfl, ha⟩ := ih ho
    exact ⟨rfl, .cons ⟨_, rfl⟩ ha⟩

theorem lookup_mintRows (ha : List.Forall₂ (fun edge made => ∃ id,
      made = (edge.1, bulkEdgeRow now id edge.2 edge.1.source)) edges rows) (key : EdgeKey) :
    (edges.lookup key = none → rows.lookup key = none) ∧ ∀ event, edges.lookup key = some event →
        ∃ id, rows.lookup key = some (bulkEdgeRow now id event key.source) := by
  induction ha with
  | nil => exact ⟨fun _ => rfl, fun event hl => nomatch hl⟩
  | @cons edge made edges rows hm _ ih =>
    obtain ⟨id, rfl⟩ := hm
    rw [lookup_cons, lookup_cons]
    cases hk : key == edge.1 with
    | true =>
      obtain rfl : key = edge.1 := by simpa using hk
      refine ⟨fun hn => (nomatch hn), fun event he => ⟨id, ?_⟩⟩
      cases he
      rfl
    | false => exact ih

theorem returns_validateScopeActors :
    Tx.Returns ModelDb.apply (validateScopeActors tenantId scopeActors) db supply r after
        left ↔ missingActors db tenantId scopeActors = [] ∧ db = after ∧ supply = left := by
  unfold validateScopeActors
  rw [returns_require]
  cases missingActors db tenantId scopeActors <;> simp

theorem missingActors_eq_nil_iff : missingActors db tenantId scopeActors = [] ↔
      ∀ actor ∈ scopeActors, (db.actors.get actor).any (fun row => row.tenantId = tenantId) := by
  unfold missingActors
  simp

theorem returns_validateBatchScopeActors :
    Tx.Returns ModelDb.apply (validateBatchScopeActors plan) db supply r after left ↔
      (∀ planned ∈ plan.models,
        missingActors db planned.proposed.tenantId planned.proposed.scopeActors = []) ∧
          db = after ∧ supply = left := by
  unfold validateBatchScopeActors
  rw [returns_forEach_guard fun _ _ _ => returns_validateScopeActors]
  refine and_congr_left fun _ => ?_
  simp only [missingActors_eq_nil_iff, mem_eraseDups, mem_map, mem_flatMap,
    mem_filter, decide_eq_true_eq]
  constructor
  · intro ha planned hm actor hac
    exact ha _ ⟨planned, hm, rfl⟩ actor ⟨planned, ⟨hm, rfl⟩, hac⟩
  · rintro ha tenantId - actor ⟨planned, ⟨hm, rfl⟩, hac⟩
    exact ha planned hm actor hac

theorem returns_checkNoSupportCycle :
    Tx.Returns ModelDb.apply (checkNoSupportCycle modelId supports) db supply r after left ↔
      supportCycleError db modelId supports = none ∧ db = after ∧ supply = left := by
  exact returns_require

def BulkChecksPass (rules : InsertRules) (db : ModelDb) (planned : PlannedModel) : Prop :=
  checkFalsifier rules planned.proposed = .ok () ∧
    supportCycleError db planned.id planned.proposed.supportingModelIds = none

theorem returns_prepareBulkInsertStratum :
    Tx.Returns ModelDb.apply (prepareBulkInsertStratum rules stratum) db supply r after left ↔
      (∀ planned ∈ stratum, BulkChecksPass rules db planned) ∧ db = after ∧ supply = left := by
  refine returns_forEach_guard fun planned after left => ?_
  simp only [bind_eq_bind, returns_bind, returns_ofExcept, returns_when,
    returns_checkNoSupportCycle, decide_eq_true_eq, decide_eq_false_iff_not, not_not]
  constructor
  · rintro ⟨_, _, _, ⟨hf, rfl, rfl⟩, ⟨-, hc, rfl, rfl⟩ | ⟨he, rfl, rfl⟩⟩
    · exact ⟨⟨hf, hc⟩, rfl, rfl⟩
    · exact ⟨⟨hf, by rw [he]; rfl⟩, rfl, rfl⟩
  · rintro ⟨⟨hf, hc⟩, rfl, rfl⟩
    refine ⟨(), _, _, ⟨hf, rfl, rfl⟩, ?_⟩
    by_cases he : planned.proposed.supportingModelIds = []
    · exact .inr ⟨he, rfl, rfl⟩
    · exact .inl ⟨he, hc, rfl, rfl⟩

theorem lookup_bulkEdges (hnd : (stratum.map PlannedModel.id).Nodup)
    (hm : planned ∈ stratum) (hn : NamesEdge planned key) :
    (bulkEdges stratum).lookup key = some planned.proposed.bornFromEventId := by
  unfold bulkEdges
  rw [lookup_firstByKey]
  have he := mem_stratumEdges.mpr ⟨planned, hm, hn, rfl⟩
  obtain ⟨event, hev⟩ := Option.isSome_iff_exists.mp
    (lookup_isSome_iff.mpr ⟨_, he, beq_self_eq_true _⟩)
  obtain ⟨other, ho, hname, rfl⟩ := mem_stratumEdges.mp (mem_of_lookup hev)
  have hi : planned.id = other.id := hn.2.1.symm.trans hname.2.1
  obtain rfl := inj_on_of_nodup_map hnd hm ho hi
  exact hev

theorem lookup_bulkEdges_none (hn : ∀ planned ∈ stratum, ¬ NamesEdge planned key) :
    (bulkEdges stratum).lookup key = none := by
  unfold bulkEdges
  rw [lookup_firstByKey]
  cases hl : List.lookup key _ with
  | none => rfl
  | some event =>
    obtain ⟨planned, hm, hname, -⟩ := mem_stratumEdges.mp (mem_of_lookup hl)
    exact absurd hname (hn planned hm)

theorem keys_mintRows {edges : List (EdgeKey × Nat)} (ha : List.Forall₂ (fun edge made => ∃ id,
      made = (edge.1, bulkEdgeRow now id edge.2 edge.1.source)) edges rows) :
    rows.map Prod.fst = edges.map Prod.fst := by
  induction ha with
  | nil => rfl
  | cons hm _ ih =>
    obtain ⟨id, rfl⟩ := hm
    rw [map_cons, map_cons, ih]

theorem returns_bulkInsertStratum
    (hrt : Tx.Returns ModelDb.apply (bulkInsertStratum rules now stratum) db supply r
      after left) : (∀ planned ∈ stratum, BulkChecksPass rules db planned) ∧
      StratumInserted rules db after now stratum := by
  obtain ⟨_, _, _, hp, hrt⟩ := hrt.parts
  obtain ⟨hc, rfl, rfl⟩ := returns_prepareBulkInsertStratum.mp hp
  obtain ⟨_, _, _, hw, hrt⟩ := hrt.parts
  obtain ⟨models, hmd, rfl, rfl⟩ := returns_bulkWrite.mp hw
  obtain ⟨_, _, _, hw, hrt⟩ := hrt.parts
  obtain ⟨actors, ha, rfl, rfl⟩ := returns_bulkWrite.mp hw
  obtain ⟨_, _, _, hw, hrt⟩ := hrt.parts
  obtain ⟨entities, hen, rfl, rfl⟩ := returns_bulkWrite.mp hw
  obtain ⟨_, _, _, hw, hrt⟩ := hrt.parts
  obtain ⟨members, hmb, rfl, rfl⟩ := returns_bulkWrite.mp hw
  obtain ⟨rows, _, _, hrs, hrt⟩ := hrt.parts
  obtain ⟨rfl, hmi⟩ := returns_mintRows hrs
  obtain ⟨edges, he, rfl, rfl⟩ := returns_bulkWrite.mp hrt
  obtain ⟨hk, hf⟩ := (Table.insertFresh_eq_some_iff _ _).mp ⟨models, hmd⟩
  have hnd : (stratum.map PlannedModel.id).Nodup := by
    rwa [map_map] at hk
  have hed := ((Table.insertFresh_eq_some_iff _ _).mp ⟨edges, he⟩).2
  refine ⟨hc, fun planned hm => ?_, hnd, fun planned hm => ?_, fun id ho => ?_,
    ha, hen, hmb, fun planned hm key hn => ?_, fun key hn => ?_,
    rfl, rfl, rfl⟩
  · exact hf _ (mem_map_of_mem hm)
  · have hl := lookup_of_mem (by rwa [map_map]) (mem_map_of_mem (f := fun planned : PlannedModel =>
        (planned.id, planned.proposed.row now)) hm)
    rw [Table.get_insertFresh hmd, hl]
    rfl
  · rw [Table.get_insertFresh hmd]
    cases hl : List.lookup id _ with
    | none => rfl
    | some row =>
      obtain ⟨planned, hm, heq⟩ := mem_map.mp (mem_of_lookup hl)
      exact absurd (congrArg Prod.fst heq) (ho planned hm)
  · obtain ⟨id, hr⟩ := (lookup_mintRows hmi key).2 _ (lookup_bulkEdges hnd hm hn)
    refine ⟨hed _ (mem_of_lookup hr), id, ?_⟩
    rw [Table.get_insertFresh he, hr]
    rfl
  · rw [Table.get_insertFresh he, (lookup_mintRows hmi key).1 (lookup_bulkEdges_none hn)]
    rfl

end FyralisCore.Models
