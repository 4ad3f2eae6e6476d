import FyralisCore.Models.BatchContent

/-! The set-oriented insert of a batch: when it returns, and what it leaves. -/
namespace FyralisCore.Models

open Relational Transaction List Table

variable {rules : InsertRules} {db m t : ModelDb} {n left now : Nat}
  {stratum : List PlannedModel}

def bulkContent (planned : PlannedModel) (key : EdgeKey) : EdgeContent where
  status := .active
  confidence := 1
  evidenceEventIds := [planned.proposed.bornFromEventId]
  evidenceModelIds := [key.source]
  reviewStatus := .accepted
  confirmedCount := 1

section

variable {K B V : Type} [DecidableEq K] {keyOf : Nat → B → K}
  {items : PlannedModel → List B} {row : PlannedModel → V}

def sidecarRows (keyOf : Nat → B → K) (items : PlannedModel → List B) (row : PlannedModel → V)
    (stratum : List PlannedModel) : List (K × V) :=
  firstByKey (stratum.flatMap fun planned =>
    (items planned).map fun item => (keyOf planned.id item, row planned))

theorem mem_of_lookup_sidecarRows
    (hl : (sidecarRows keyOf items row stratum).lookup key = some value) :
    ∃ planned ∈ stratum, ∃ item ∈ items planned,
      keyOf planned.id item = key ∧ row planned = value := by
  unfold sidecarRows at hl
  rw [lookup_firstByKey] at hl
  obtain ⟨planned, hm, hr⟩ := mem_flatMap.mp (mem_of_lookup hl)
  obtain ⟨item, hi, he⟩ := mem_map.mp hr
  obtain ⟨rfl, rfl⟩ := Prod.mk.inj he
  exact ⟨planned, hm, item, hi, rfl, rfl⟩

theorem lookup_sidecarRows [DecidableEq B] (hky : Function.Injective2 keyOf)
    (hn : (stratum.map PlannedModel.id).Nodup) (hm : planned ∈ stratum) (item : B) :
    (sidecarRows keyOf items row stratum).lookup (keyOf planned.id item) =
      if item ∈ items planned then some (row planned) else none := by
  cases hl : (sidecarRows keyOf items row stratum).lookup (keyOf planned.id item) with
  | some v =>
    obtain ⟨other, ho, found, hf, hk, rfl⟩ := mem_of_lookup_sidecarRows hl
    obtain ⟨hid, rfl⟩ := hky hk
    obtain rfl := inj_on_of_nodup_map hn ho hm hid
    rw [if_pos hf]
  | none =>
    rw [if_neg]
    intro hi
    unfold sidecarRows at hl
    rw [lookup_firstByKey, lookup_eq_none_iff] at hl
    have hr : (keyOf planned.id item, row planned) ∈ stratum.flatMap fun planned =>
        (items planned).map fun item => (keyOf planned.id item, row planned) :=
      mem_flatMap.mpr ⟨planned, hm, mem_map.mpr ⟨item, hi, rfl⟩⟩
    simpa using hl _ hr

variable {table : Table K V}

theorem exists_insertFresh_sidecarRows
    (hf : ∀ planned ∈ stratum, ∀ item, table.get (keyOf planned.id item) = none) :
    ∃ written, table.insertFresh (sidecarRows keyOf items row stratum) = some written := by
  refine (insertFresh_eq_some_iff _ _).mpr ⟨nodup_keys_firstByKey _, ?_⟩
  rintro ⟨key, v⟩ hr
  obtain ⟨planned, hm, item, -, rfl, -⟩ :=
    mem_of_lookup_sidecarRows (lookup_of_mem (nodup_keys_firstByKey _) hr)
  exact hf planned hm item

theorem get_sidecarRows [DecidableEq B] (hk : Function.Injective2 keyOf)
    (hw : table.insertFresh (sidecarRows keyOf items row stratum) = some written)
    (hn : (stratum.map PlannedModel.id).Nodup)
    (hm : planned ∈ stratum) (hf : table.get (keyOf planned.id item) = none) :
    written.get (keyOf planned.id item) =
      if item ∈ items planned then some (row planned) else none := by
  rw [get_insertFresh hw, lookup_sidecarRows hk hn hm, hf, Option.or_none]

theorem get_sidecarRows_of_other
    (hw : table.insertFresh (sidecarRows keyOf items row stratum) = some written)
    (ho : ∀ planned ∈ stratum, ∀ item, keyOf planned.id item ≠ key) :
    written.get key = table.get key := by
  have hl : (sidecarRows keyOf items row stratum).lookup key = none := by
    cases hl : (sidecarRows keyOf items row stratum).lookup key with
    | none => rfl
    | some v =>
      obtain ⟨planned, hm, item, -, hk, -⟩ := mem_of_lookup_sidecarRows hl
      exact absurd hk (ho planned hm item)
  rw [get_insertFresh hw, hl, Option.none_or]

end

theorem injective2_mk : Function.Injective2 (Prod.mk : Nat → B → Nat × B) :=
  fun _ _ _ _ he => Prod.mk.inj he

theorem StratumInserted.inserted (hi : StratumInserted rules db t now stratum)
    (hu : ∀ planned ∈ stratum, Unused db planned.id) :
    Inserted rules bulkContent db t stratum := by
  have ha := hi.actors
  have he := hi.entities
  have hmb := hi.members
  constructor
  · exact fun planned hm => ⟨_, hi.models planned hm, rfl⟩
  · exact hi.otherModels
  · intro planned hm key hn
    obtain ⟨-, id, hr⟩ := hi.edges planned hm key hn
    rw [hr]
    rfl
  · exact hi.otherEdges
  · intro planned hm
    have hf := hu planned hm
    refine ⟨fun actor => ?_, fun entity => ?_, fun member => ?_⟩
    · rw [get_sidecarRows injective2_mk ha hi.nodup hm (hf.scopeActors actor)]
      split <;> rfl
    · rw [get_sidecarRows injective2_mk he hi.nodup hm (hf.scopeEntities entity)]
      split <;> rfl
    · rw [get_sidecarRows injective2_mk hmb hi.nodup hm (hf.compositionMembers member)]
      split <;> rfl
  · exact fun key ho => get_sidecarRows_of_other ha fun planned hm item heq =>
      ho planned hm (congrArg Prod.fst heq)
  · exact fun key ho => get_sidecarRows_of_other he fun planned hm item heq =>
      ho planned hm (congrArg Prod.fst heq)
  · exact fun key ho => get_sidecarRows_of_other hmb fun planned hm item heq =>
      ho planned hm (congrArg Prod.fst heq)
  · exact hi.rest.2.1

theorem exists_returns_mintRows (items : List A) (row : A → Nat → B) (db : ModelDb) (n : Nat) :
    ∃ rows left, Tx.Returns ModelDb.apply
      (Tx.mapEach items fun item => Tx.newId.bind fun id => .done (row item id) :
        ModelTx (List B)) db n rows db left := by
  induction items generalizing n with
  | nil => exact ⟨[], n, Tx.returns_done.mpr ⟨rfl, rfl, rfl⟩⟩
  | cons item rest ih =>
    obtain ⟨rows, left, ht⟩ := ih (n + 1)
    exact ⟨row item n :: rows, left, Tx.returns_bind.mpr ⟨row item n, db, n + 1,
      Tx.returns_newId_bind.mpr (Tx.returns_done.mpr ⟨rfl, rfl, rfl⟩), Tx.returns_bind.mpr
        ⟨rows, db, left, ht, Tx.returns_done.mpr ⟨rfl, rfl, rfl⟩⟩⟩⟩

theorem exists_returns_bulkInsertModelRelations
    (hn : ∀ planned ∈ stratum, ∀ key : EdgeKey, key.target = planned.id →
      db.edges.get key = none) (hed : m.edges = db.edges) (n : Nat) :
    ∃ t left, Tx.Returns ModelDb.apply (bulkInsertModelRelations now stratum) m n ()
      t left := by
  obtain ⟨rows, k, hrs⟩ := exists_returns_mintRows (bulkEdges stratum)
    (fun edge id => (edge.1, bulkEdgeRow now id edge.2 edge.1.source)) m n
  have hky := keys_mintRows (returns_mintRows hrs).2
  have hf : ∀ row ∈ rows, m.edges.get row.1 = none := by
    intro row hr
    have hk : row.1 ∈ (bulkEdges stratum).map Prod.fst := hky ▸ mem_map_of_mem hr
    obtain ⟨⟨key, event⟩, he, heq⟩ := mem_map.mp hk
    have hl := lookup_of_mem (nodup_keys_firstByKey _) he
    rw [lookup_firstByKey] at hl
    obtain ⟨planned, hm, hname, -⟩ := mem_stratumEdges.mp (mem_of_lookup hl)
    rw [hed]
    exact hn planned hm row.1 (heq ▸ hname.target_eq)
  obtain ⟨edges, hw⟩ := (insertFresh_eq_some_iff m.edges rows).mpr
    ⟨hky ▸ nodup_keys_firstByKey _, hf⟩
  exact ⟨_, k, Tx.returns_bind.mpr ⟨rows, m, k, hrs, returns_bulkWrite.mpr ⟨edges, hw, rfl, rfl⟩⟩⟩

theorem inserts_bulkInsertStratum (hin : Insertable db stratum) :
    Inserts rules bulkContent (RefusedByStratum rules) (bulkInsertStratum rules now stratum) db
      stratum := by
  constructor
  · intro hac n
    unfold RefusedByStratum at hac
    simp only [not_or, Bool.not_eq_true, Option.isSome_eq_false_iff, Option.isNone_iff_eq_none,
      ne_eq, not_not] at hac
    have hu : ∀ planned ∈ stratum, Unused db planned.id := fun planned hm =>
      hin.unused planned hm (hac planned hm).1
    obtain ⟨models, hmd⟩ := (insertFresh_eq_some_iff db.models
      (stratum.map fun planned => (planned.id, planned.proposed.row now))).mpr
        ⟨by rw [map_map]; exact hin.nodup, by simpa using fun planned hm =>
          (hac planned hm).1⟩
    obtain ⟨actors, ha⟩ : ∃ written,
        db.scopeActors.insertFresh (bulkActorRows now stratum) = some written :=
      exists_insertFresh_sidecarRows fun planned hm => (hu planned hm).scopeActors
    obtain ⟨entities, hen⟩ : ∃ written,
        db.scopeEntities.insertFresh (bulkEntityRows rules now stratum) = some written :=
      exists_insertFresh_sidecarRows fun planned hm => (hu planned hm).scopeEntities
    obtain ⟨members, hmb⟩ : ∃ written,
        db.compositionMembers.insertFresh (bulkMemberRows rules now stratum) = some written :=
      exists_insertFresh_sidecarRows fun planned hm => (hu planned hm).compositionMembers
    obtain ⟨t, left, he⟩ : ∃ t left, Tx.Returns ModelDb.apply
        (bulkInsertModelRelations now stratum) { db with
          models
          scopeActors := actors
          scopeEntities := entities
          compositionMembers := members } n () t left :=
      exists_returns_bulkInsertModelRelations (fun planned hm => (hu planned hm).edges) (by rfl)
        n
    have hc : ∀ planned ∈ stratum, BulkChecksPass rules db planned := fun planned hm =>
      ⟨(hac planned hm).2, supportCycleError_eq_none (hu planned hm) hin.acyclic hm⟩
    refine ⟨t, left, ?_⟩
    exact Tx.returns_bind.mpr ⟨(), db, n, returns_prepareBulkInsertStratum.mpr ⟨hc, rfl, rfl⟩,
      Tx.returns_bind.mpr ⟨(), _, n, returns_bulkWrite.mpr ⟨models, hmd, rfl, rfl⟩,
      Tx.returns_bind.mpr ⟨(), _, n, returns_bulkWrite.mpr ⟨actors, ha, rfl, rfl⟩,
      Tx.returns_bind.mpr ⟨(), _, n, returns_bulkWrite.mpr ⟨entities, hen, rfl, rfl⟩,
      Tx.returns_bind.mpr ⟨(), _, n, returns_bulkWrite.mpr ⟨members, hmb, rfl, rfl⟩, he⟩⟩⟩⟩⟩
  · intro n t left hr planned hm
    obtain ⟨hc, hi⟩ := returns_bulkInsertStratum hr
    unfold RefusedByStratum
    simp [hi.fresh planned hm, (hc planned hm).1]
  · intro n t left hr
    obtain ⟨-, hi⟩ := returns_bulkInsertStratum hr
    exact hi.inserted fun planned hm =>
      hin.unused planned hm (hi.fresh planned hm)

theorem inserts_insertManyBulk (hi : Insertable db plan.models)
    (hs : plan.strata.flatten.Perm plan.models) : Inserts rules bulkContent (Rejected rules)
      ((insertManyBulk rules now plan).bind fun _ => .done ()) db plan.models := by
  have hl : Inserts rules bulkContent (RefusedByStratum rules)
      (Tx.forEach plan.strata (bulkInsertStratum rules now)) db (plan.strata.flatMap id) :=
    inserts_forEach stable_refusedByStratum (fun _ _ => inserts_bulkInsertStratum)
      (by rw [flatMap_id]; exact hi.perm hs.symm)
  rw [flatMap_id] at hl
  have hpr : ∀ n t left, Tx.Returns ModelDb.apply
      ((insertManyBulk rules now plan).bind fun _ => .done ()) db n () t left ↔
        (∀ planned ∈ plan.models,
          missingActors db planned.proposed.tenantId planned.proposed.scopeActors = []) ∧
          Tx.Returns ModelDb.apply (Tx.forEach plan.strata (bulkInsertStratum rules now)) db n
            () t left := by
    intro n t left
    rw [returns_ignore]
    constructor
    · rintro ⟨_, hr⟩
      obtain ⟨_, _, _, ha, hr⟩ := hr.parts
      obtain ⟨hp, rfl, rfl⟩ := returns_validateBatchScopeActors.mp ha
      obtain ⟨_, _, _, hs, hd⟩ := hr.parts
      obtain ⟨-, rfl, rfl⟩ := hd.ended
      exact ⟨hp, hs⟩
    · rintro ⟨hp, hs⟩
      exact ⟨_, Tx.returns_bind.mpr ⟨(), db, n, returns_validateBatchScopeActors.mpr ⟨hp, rfl, rfl⟩,
          Tx.returns_bind.mpr ⟨(), t, left, hs, Tx.returns_done.mpr ⟨rfl, rfl, rfl⟩⟩⟩⟩
  constructor
  · intro hac n
    obtain ⟨t, left, hr⟩ := hl.returns
      (fun planned hm hrf => hac planned (hs.mem_iff.mp hm) (.inl hrf)) n
    refine ⟨t, left, (hpr _ _ _).mpr ⟨fun planned hm => ?_, hr⟩⟩
    by_contra hms
    exact hac planned hm (.inr hms)
  · rintro n t left hr planned hm (hrf | hms)
    · exact hl.accepted _ _ _ ((hpr _ _ _).mp hr).2 planned (hs.mem_iff.mpr hm) hrf
    · exact hms (((hpr _ _ _).mp hr).1 planned hm)
  · intro n t left hr
    exact (hl.inserted _ _ _ ((hpr _ _ _).mp hr).2).perm hs

end FyralisCore.Models
