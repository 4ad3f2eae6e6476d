import FyralisCore.Models.BulkInsert
import FyralisCore.Models.DualWrite
import FyralisCore.Models.SerialInsert

/-! The bulk insert of a batch against its models inserted one by one: both take
the same batches, and what they leave differs in the evidence of the edges. -/
namespace FyralisCore.Models

open Relational Transaction Relation Option ModelDb Database

variable {rules : InsertRules} {db planDb serialDb bulkDb : ModelDb} {supply left now : Nat}
  {models order : List PlannedModel}

/-- The models inserted one by one, as `insert_many` does with a batch that
requires it. -/
def insertSerially (rules : InsertRules) (now : Nat) (order : List PlannedModel) : ModelTx Unit :=
  Tx.forEach order fun planned =>
    (insertConstructed rules now planned.proposed).bind fun _ => .done ()

/-- Edges lead to models there are, as the schema leaves it to the program to
see to, and the rows of the sidecars belong to such models. -/
structure OwnedByModels (db : ModelDb) : Prop where
  edges : ∀ key row, db.edges.get key = some row → (db.models.get key.target).isSome
  scopeActors : ∀ key row, db.scopeActors.get key = some row → (db.models.get key.1).isSome
  scopeEntities : ∀ key row, db.scopeEntities.get key = some row → (db.models.get key.1).isSome
  compositionMembers : ∀ key row,
    db.compositionMembers.get key = some row → (db.models.get key.1).isSome

theorem OwnedByModels.unused (ho : OwnedByModels db)
    (hf : db.models.get modelId = none) : Unused db modelId := by
  have hn : ¬ (db.models.get modelId).isSome := by simp [hf]
  refine ⟨fun key ht => ?_, fun actor => ?_, fun entity => ?_, fun member => ?_⟩
  · by_contra hp
    obtain ⟨row, hg⟩ := ne_none_iff_exists'.mp hp
    exact hn (ht ▸ ho.edges key row hg)
  · by_contra hp
    obtain ⟨row, hg⟩ := ne_none_iff_exists'.mp hp
    exact hn (ho.scopeActors _ row hg)
  · by_contra hp
    obtain ⟨row, hg⟩ := ne_none_iff_exists'.mp hp
    exact hn (ho.scopeEntities _ row hg)
  · by_contra hp
    obtain ⟨row, hg⟩ := ne_none_iff_exists'.mp hp
    exact hn (ho.compositionMembers _ row hg)

theorem insertable_of_planned
    (hpl : Tx.Returns apply (planModelBatch rules proposed) db supply plan planDb left)
    (hor : batchRequiresSerialInsert plan = false) (ho : OwnedByModels db)
    (ha : NoDependencyCycle db plan.models) :
    Insertable db plan.models ∧ plan.strata.flatten.Perm plan.models := by
  obtain ⟨rfl, assigned, hp, hasg⟩ := returns_planModelBatch hpl
  refine ⟨⟨fun planned hm => ?_, fun planned hm => ?_, hp.nodup,
    fun planned _ hf => ho.unused hf, ha⟩, hp.strata⟩
  · obtain ⟨draft, -, -, hmd⟩ := hp.takesId hasg hm
    rw [hmd]
  · unfold batchRequiresSerialInsert at hor
    simpa using List.any_eq_false.mp hor planned hm

theorem inserts_insertSerially (hi : Insertable db order) :
    Inserts rules serialContent (Rejected rules) (insertSerially rules now order) db order := by
  have hl : Inserts rules serialContent (Rejected rules) (insertSerially rules now order) db
      (order.flatMap fun planned => [planned]) :=
    inserts_forEach stable_rejected (fun _ _ => inserts_insertConstructed)
      (by rwa [List.flatMap_singleton'])
  rwa [List.flatMap_singleton'] at hl

theorem returns_unit : Tx.Returns apply body db supply () t left ↔
      ∃ v, Tx.Returns apply body db supply v t left :=
  ⟨fun hr => ⟨(), hr⟩, fun ⟨_, hr⟩ => hr⟩

/-- A way of inserting as a transaction of its own: it is refused, or it commits
what it has inserted. -/
theorem Inserts.run (hi : Inserts rules edgeContent refused unit db models) (supply : Nat)
    (hs : ∀ t left, Tx.Returns apply unit db supply () t left ↔
      ∃ v, Tx.Returns apply body db supply v t left) :
    (Database.Refuses apply body ⟨db, supply⟩ ↔ ∃ planned ∈ models, refused db planned) ∧
      ((∃ planned ∈ models, refused db planned) → (run apply body ⟨db, supply⟩).state = db) ∧
      ((¬ ∃ planned ∈ models, refused db planned) → Inserted rules edgeContent db
        (run apply body ⟨db, supply⟩).state models) := by
  have hn : (¬ ∃ planned ∈ models, refused db planned) →
      ∃ v t left, Tx.Returns apply body db supply v t left := by
    intro hn
    obtain ⟨t, left, hrt⟩ := hi.returns (fun planned hm hrf => hn ⟨planned, hm, hrf⟩) supply
    obtain ⟨v, hrt⟩ := (hs _ _).mp hrt
    exact ⟨v, t, left, hrt⟩
  have hsm : (∃ planned ∈ models, refused db planned) → ∀ v t left,
      ¬ Tx.Returns apply body db supply v t left := by
    rintro ⟨planned, hm, hrf⟩ v t left hrt
    exact hi.accepted _ _ _ ((hs _ _).mpr ⟨v, hrt⟩) planned hm hrf
  refine ⟨?_, fun hrf => ?_, fun ha => ?_⟩
  · rw [refuses_iff]
    constructor
    · intro hr
      by_contra ha
      exact hr (hn ha)
    · rintro hrf ⟨v, t, left, hrt⟩
      exact hsm hrf v t left hrt
  · rcases run_cases body (⟨db, supply⟩ : Database ModelDb) with
      ⟨v, hrt⟩ | hu
    · exact absurd hrt (hsm hrf _ _ _)
    · exact hu
  · obtain ⟨v, t, left, hrt⟩ := hn ha
    rw [run_of_returns hrt]
    exact hi.inserted _ _ _ ((hs _ _).mpr ⟨v, hrt⟩)

theorem namesEdge_of_listed {planned : PlannedModel} {source : Nat} {kind : RegistryKind}
    (hs : source ≠ planned.id)
    (hl : (kind = .supports ∧ source ∈ planned.proposed.supportingModelIds) ∨
      (kind = .contributesToResolution ∧ source ∈ planned.proposed.contributingModels)) :
    NamesEdge planned ⟨planned.proposed.tenantId, source, planned.id, kind⟩ := by
  refine ⟨rfl, rfl, hs, ?_⟩
  rcases hl with ⟨rfl, hm⟩ | ⟨rfl, hm⟩
  · exact .inl ⟨rfl, hm⟩
  · exact .inr ⟨rfl, hm⟩

/-- Two inserts of the same models leave the same sidecars, so that what they
leave differs in the edges if at all. -/
theorem Inserted.sameContent (hs : Inserted rules first db serialDb models)
    (hb : Inserted rules second db bulkDb models) {bulkEdges : Table EdgeKey EdgeRow}
    (he : ∀ key, (serialEdges.get key).map EdgeRow.content =
      (bulkEdges.get key).map EdgeRow.content) :
    SameContent { serialDb with edges := serialEdges } { bulkDb with edges := bulkEdges } := by
  refine ⟨he, fun key => ?_, fun key => ?_, fun key => ?_⟩
  · by_cases hn : ∃ planned ∈ models, planned.id = key.1
    · obtain ⟨planned, hm, hi⟩ := hn
      obtain ⟨_, actor⟩ := key
      subst hi
      rw [(hs.sidecars planned hm).scopeActors, (hb.sidecars planned hm).scopeActors]
    · have ho : ∀ planned ∈ models, planned.id ≠ key.1 := fun planned hm hi =>
        hn ⟨planned, hm, hi⟩
      rw [hs.otherActors key ho, hb.otherActors key ho]
  · by_cases hn : ∃ planned ∈ models, planned.id = key.1
    · obtain ⟨planned, hm, hi⟩ := hn
      obtain ⟨_, entity⟩ := key
      subst hi
      rw [(hs.sidecars planned hm).scopeEntities, (hb.sidecars planned hm).scopeEntities]
    · have ho : ∀ planned ∈ models, planned.id ≠ key.1 := fun planned hm hi =>
        hn ⟨planned, hm, hi⟩
      rw [hs.otherEntities key ho, hb.otherEntities key ho]
  · by_cases hn : ∃ planned ∈ models, planned.id = key.1
    · obtain ⟨planned, hm, hi⟩ := hn
      obtain ⟨_, member⟩ := key
      subst hi
      rw [(hs.sidecars planned hm).compositionMembers, (hb.sidecars planned hm).compositionMembers]
    · have ho : ∀ planned ∈ models, planned.id ≠ key.1 := fun planned hm hi =>
        hn ⟨planned, hm, hi⟩
      rw [hs.otherMembers key ho, hb.otherMembers key ho]

theorem sameContent_iff (hsr : Inserted rules serialContent db serialDb models)
    (hb : Inserted rules bulkContent db bulkDb models) (ha : NoDependencyCycle db models) :
    SameContent serialDb bulkDb ↔ ∀ planned ∈ models,
      planned.proposed.supportingModelIds = [] ∧ planned.proposed.contributingModels = [] := by
  constructor
  · intro hs planned hm
    have hu : ∀ key, ¬ NamesEdge planned key := by
      intro key hn
      have he := hs.edges key
      rw [hsr.edges planned hm key hn, hb.edges planned hm key hn] at he
      cases congrArg EdgeContent.evidenceModelIds (Option.some.inj he)
    obtain ⟨hsp, hc⟩ := ha.not_listed hm
    constructor
    · rw [List.eq_nil_iff_forall_not_mem]
      exact fun source hl => hu _ (namesEdge_of_listed (fun heq => hsp (heq ▸ hl)) (.inl ⟨rfl, hl⟩))
    · rw [List.eq_nil_iff_forall_not_mem]
      exact fun source hl => hu _ (namesEdge_of_listed (fun heq => hc (heq ▸ hl)) (.inr ⟨rfl, hl⟩))
  · intro hem
    have hu : ∀ key, ∀ planned ∈ models, ¬ NamesEdge planned key := by
      rintro key planned hm ⟨-, -, -, ⟨-, hl⟩ | ⟨-, hl⟩⟩
      · rw [(hem planned hm).1] at hl
        cases hl
      · rw [(hem planned hm).2] at hl
        cases hl
    refine hsr.sameContent hb fun key => ?_
    rw [hsr.otherEdges key (hu key), hb.otherEdges key (hu key)]

theorem serial_and_bulk_inserted (rules : InsertRules) (hi : Insertable db plan.models)
    (hst : plan.strata.flatten.Perm plan.models) (ho : order.Perm plan.models)
    (serialNow bulkNow serialSupply bulkSupply : Nat) :
    let serial := insertSerially rules serialNow order
    let bulk := insertManyBulk rules bulkNow plan
    ((∃ planned ∈ plan.models, Rejected rules db planned) ∧
      Database.Refuses apply serial ⟨db, serialSupply⟩ ∧
      Database.Refuses apply bulk ⟨db, bulkSupply⟩ ∧
      (run apply serial ⟨db, serialSupply⟩).state = db ∧
      (run apply bulk ⟨db, bulkSupply⟩).state = db) ∨
    ((¬ ∃ planned ∈ plan.models, Rejected rules db planned) ∧
      ¬ Database.Refuses apply serial ⟨db, serialSupply⟩ ∧
      ¬ Database.Refuses apply bulk ⟨db, bulkSupply⟩ ∧ Inserted rules serialContent db
        (run apply serial ⟨db, serialSupply⟩).state plan.models ∧
      Inserted rules bulkContent db (run apply bulk ⟨db, bulkSupply⟩).state plan.models) := by
  intro serial bulk
  have hsrl : Inserts rules serialContent (Rejected rules) serial db order :=
    inserts_insertSerially (hi.perm ho.symm)
  have hblk : Inserts rules bulkContent (Rejected rules) (bulk.bind fun _ => .done ()) db
      plan.models := inserts_insertManyBulk hi hst
  obtain ⟨hs, hsr, hse⟩ :=
    hsrl.run serialSupply fun _ _ => returns_unit
  obtain ⟨hb, hbl, hbu⟩ :=
    hblk.run bulkSupply fun _ _ => returns_ignore
  have hm : (∃ planned ∈ order, Rejected rules db planned) ↔
      ∃ planned ∈ plan.models, Rejected rules db planned := by
    simp [ho.mem_iff]
  rw [hm] at hs hsr hse
  by_cases hr : ∃ planned ∈ plan.models, Rejected rules db planned
  · exact .inl ⟨hr, hs.mpr hr, hb.mpr hr, hsr hr, hbl hr⟩
  · exact .inr ⟨hr, fun hrf => hr (hs.mp hrf),
      fun hrf => hr (hb.mp hrf),
      (hse hr).perm ho, hbu hr⟩

/-- For a batch without recommendations and without a dependency cycle both ways
are refused together. They leave the same content exactly when the batch is
refused or none of its models lists another. -/
theorem bulk_insert_matches_serial {proposed : List ModelCreate} {plan : ModelBatchPlan}
    (hplan : Tx.Returns apply (planModelBatch rules proposed) db supply plan planDb left)
    (hordinary : batchRequiresSerialInsert plan = false) (howned : OwnedByModels db)
    (hacyclic : NoDependencyCycle db plan.models) (horder : order.Perm plan.models)
    (serialNow bulkNow serialSupply bulkSupply : Nat) :
    (Database.Refuses apply (insertSerially rules serialNow order) ⟨db, serialSupply⟩ ↔
      Database.Refuses apply (insertManyBulk rules bulkNow plan) ⟨db, bulkSupply⟩) ∧
    (SameContent (run apply (insertSerially rules serialNow order) ⟨db, serialSupply⟩).state
        (run apply (insertManyBulk rules bulkNow plan) ⟨db, bulkSupply⟩).state ↔
      (∃ planned ∈ plan.models, Rejected rules db planned) ∨
        ∀ planned ∈ plan.models, planned.proposed.supportingModelIds = [] ∧
          planned.proposed.contributingModels = []) := by
  obtain ⟨hinsertable, hstrata⟩ := insertable_of_planned hplan hordinary howned hacyclic
  rcases serial_and_bulk_inserted rules hinsertable hstrata horder serialNow bulkNow serialSupply
    bulkSupply with ⟨hrejected, hserialRefuses, hbulkRefuses, hserial, hbulk⟩ |
      ⟨hrejected, hserialReturns, hbulkReturns, hserial, hbulk⟩
  · rw [hserial, hbulk]
    exact ⟨iff_of_true hserialRefuses hbulkRefuses, fun _ => .inl hrejected, fun _ => .refl db⟩
  · rw [sameContent_iff hserial hbulk hacyclic]
    exact ⟨iff_of_false hserialReturns hbulkReturns, Or.inr,
      fun hcases => hcases.resolve_left hrejected⟩

def pairOf (first second : ModelCreate) : ModelBatchPlan :=
  let first : PlannedModel := { index := 0, id := 1, proposed := first, dependsOn := [] }
  let second : PlannedModel :=
    { index := 1, id := 2, proposed := second, dependsOn := second.supportingModelIds }
  { models := [first, second]
    strata := if second.dependsOn = [] then [[first, second]] else [[first], [second]] }

def pairPlan (supportingModelIds : List Nat) : ModelBatchPlan :=
  pairOf (plainDraft 1 []) (plainDraft 2 supportingModelIds)

theorem ownedByModels_of_actors (actors : Table Nat Acts.ActorRow) : OwnedByModels { actors } := by
  refine ⟨?_, ?_, ?_, ?_⟩ <;>
  · intro key row hg
    cases hg

theorem noDependencyCycle_pairOf {actors : Table Nat Acts.ActorRow} {first second : ModelCreate}
    (hfirst : first.supportingModelIds = [] ∧ first.contributingModels = [])
    (hsecond : 2 ∉ second.supportingModelIds ∧ second.contributingModels = []) :
    NoDependencyCycle { actors } (pairOf first second).models := by
  have hd : ∀ modelId other, DependsOn { actors } (pairOf first second).models modelId other →
      modelId = 2 ∧ other ∈ second.supportingModelIds := by
    rintro modelId other (⟨row, hg, -⟩ | ⟨key, row, hg, -⟩ | ⟨planned, hm, hi, hl⟩)
    · cases hg
    · cases hg
    · simp only [pairOf, List.mem_cons, List.not_mem_nil, or_false] at hm
      rcases hm with rfl | rfl
      · simp [hfirst] at hl
      · exact ⟨hi.symm, by simpa [hsecond] using hl⟩
  intro planned _ hc
  obtain ⟨first, h1, -⟩ := TransGen.head'_iff.mp hc
  obtain ⟨last, -, hlt⟩ := TransGen.tail'_iff.mp hc
  exact hsecond.1 ((hd _ _ h1).1 ▸ (hd _ _ hlt).2)

def scopedRules : InsertRules :=
  { plainRules with
    str := fun | .string text => text | _ => ""
    parseUuid := fun text => [("8", 8), ("9", 9)].lookup text }

def scopedDb : ModelDb := { actors := Table.put ∅ 5 { tenantId := 0 } }

/-- A situation of two members and a scope. -/
def scopedDraft (modelId : Nat) : ModelCreate :=
  { plainDraft modelId [] with
    proposition := .object [("kind", .string "situation"),
      ("member_model_ids", .array [.string "8", .string "9"])]
    scopeActors := [5]
    scopeEntities := [.object [("type", .string "resource"), ("id", .string "8")]] }

/-- Two situations that do not list each other, the second inserted first: the rows beside them
are the same, and they are there. -/
theorem bulk_insert_matches_serial_scoped :
    let plan := pairOf (scopedDraft 1) (scopedDraft 2)
    let bulk := (run apply (insertManyBulk scopedRules 6 plan) ⟨scopedDb, 0⟩).state
    SameContent (run apply (insertSerially scopedRules 5 plan.models.reverse) ⟨scopedDb, 0⟩).state
        bulk ∧ (bulk.scopeActors.get (1, 5)).isSome ∧
      (bulk.scopeEntities.get (1, "resource", 8)).isSome ∧
      (bulk.compositionMembers.get (2, 9)).isSome := by
  refine ⟨?_, by decide +kernel, by decide +kernel, by decide +kernel⟩
  have hplan : Tx.Returns apply (planModelBatch scopedRules [scopedDraft 1, scopedDraft 2])
      scopedDb 0 (pairOf (scopedDraft 1) (scopedDraft 2)) scopedDb 0 := rfl
  refine (bulk_insert_matches_serial hplan rfl (ownedByModels_of_actors _)
    (noDependencyCycle_pairOf ⟨rfl, rfl⟩ ⟨List.not_mem_nil, rfl⟩) (List.reverse_perm _) 5 6 0
    0).2.mpr (.inr ?_)
  intro planned hmem
  simp only [pairOf, List.mem_cons, List.not_mem_nil, or_false] at hmem
  rcases hmem with rfl | rfl
  · exact ⟨rfl, rfl⟩
  · exact ⟨rfl, rfl⟩

/-- The edge from the first model to the second has evidence after the bulk
insert and none after the serial one. -/
theorem bulk_edges_carry_evidence : ∃ plan planDb left, Tx.Returns apply
        (planModelBatch plainRules [plainDraft 1 [], plainDraft 2 [1]]) {} 0 plan planDb left ∧
      batchRequiresSerialInsert plan = false ∧ OwnedByModels {} ∧ NoDependencyCycle {} plan.models ∧
      ¬ SameContent (run apply (insertSerially plainRules 0 plan.strata.flatten) ⟨{}, 0⟩).state
        (run apply (insertManyBulk plainRules 0 plan) ⟨{}, 0⟩).state := by
  refine ⟨pairPlan [1], {}, 0, rfl, rfl, ownedByModels_of_actors ∅,
    noDependencyCycle_pairOf ⟨rfl, rfl⟩ ⟨by decide, rfl⟩,
    fun hsame => ?_⟩
  have hedges := hsame.edges ⟨0, 1, 2, RegistryKind.supports⟩
  have hserial : ((run apply
      (insertSerially plainRules 0 (pairPlan [1]).strata.flatten) ⟨{}, 0⟩).state.edges.get
        ⟨0, 1, 2, RegistryKind.supports⟩).map (fun row => row.content.evidenceModelIds) =
      some [] := by
    decide +kernel
  have hbulk : ((run apply (insertManyBulk plainRules 0 (pairPlan [1]))
      ⟨{}, 0⟩).state.edges.get ⟨0, 1, 2, RegistryKind.supports⟩).map
        (fun row => row.content.evidenceModelIds) = some [1] := by
    decide +kernel
  have hevidence := congrArg (Option.map EdgeContent.evidenceModelIds) hedges
  rw [Option.map_map, Option.map_map] at hevidence
  rw [Function.comp_def, hserial, hbulk] at hevidence
  cases hevidence

end FyralisCore.Models
