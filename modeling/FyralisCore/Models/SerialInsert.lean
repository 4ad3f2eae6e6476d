import FyralisCore.Models.FirstLinks

/-! The insert of one model after another: when an insert of a model that
no edge leads to returns, and what it leaves. -/
namespace FyralisCore.Models

open Relational Transaction Relation List Table Tx ModelDb

variable {rules : InsertRules} {db m t : ModelDb} {n left now : Nat}

theorem upserts_upsertScope [DecidableEq K] :
    Table.Upserts (upsertScope (K := K)) fun existing row =>
      { existing with source := row.source, confidence := row.confidence } := by
  intro table key row other
  unfold upsertScope
  cases hg : table.get key with
  | none => exact get_put _ _ _ _
  | some existing => exact get_put _ _ _ _

theorem upserts_upsertMember : Table.Upserts upsertMember fun existing row =>
    { existing with evidenceEventIds := row.evidenceEventIds, source := row.source } := by
  intro table key row other
  unfold upsertMember
  cases hg : table.get key with
  | none => exact get_put _ _ _ _
  | some existing => exact get_put _ _ _ _

variable {A : Type} {r : Unit} {modelId : Nat} {proposed : ModelCreate}

theorem returns_forEach_change {items : List A} {w : A → ModelDb → ModelDb} :
    Tx.Returns apply (Tx.forEach items fun item => change (w item)) db n r
        t left ↔ t = items.foldl (fun db item => w item db) db ∧ n = left := by
  induction items generalizing db n with
  | nil => rw [returns_forEach_nil]; exact ⟨fun ⟨h, h'⟩ => ⟨h.symm, h'⟩, fun ⟨h, h'⟩ => ⟨h.symm, h'⟩⟩
  | cons item rest ih =>
    rw [returns_forEach_cons, foldl_cons, ← ih]
    constructor
    · rintro ⟨_, _, hi, ht⟩
      obtain ⟨rfl, rfl⟩ := returns_change.mp hi
      exact ht
    · exact fun ht => ⟨_, _, returns_change.mpr ⟨rfl, rfl⟩, ht⟩

def ModelDb.withSidecars (db : ModelDb) (scopeActors : Table (Nat × Nat) ScopeRow)
    (scopeEntities : Table (Nat × String × Nat) ScopeRow)
    (compositionMembers : Table (Nat × Nat) CompositionRow) : ModelDb :=
  { db with scopeActors, scopeEntities, compositionMembers }

def sidecarsDb (rules : InsertRules) (now modelId : Nat) (proposed : ModelCreate)
    (db : ModelDb) : ModelDb :=
  let row : ScopeRow := { tenantId := proposed.tenantId, createdAt := now }
  db.withSidecars
    (proposed.scopeActors.eraseDups.foldl (fun table actor => upsertScope table (modelId, actor) row)
      (db.scopeActors.deleteWhere fun key row =>
        row.tenantId = proposed.tenantId && key.1 = modelId))
    ((scopeEntityKeys rules proposed.scopeEntities).foldl
      (fun table entity => upsertScope table (modelId, entity) row)
      (db.scopeEntities.deleteWhere fun key row =>
        row.tenantId = proposed.tenantId && key.1 = modelId))
    ((compositionMemberIds rules modelId proposed.proposition).foldl
      (fun table member => upsertMember table (modelId, member)
        (compositionRow rules now proposed.tenantId proposed.proposition))
      (db.compositionMembers.deleteWhere fun key row =>
        row.tenantId = proposed.tenantId && key.1 = modelId))

theorem foldl_scopeActors (items : List A) (keyOf : A → Nat × Nat) (row : ScopeRow) (db : ModelDb) :
    items.foldl (fun db item =>
        { db with scopeActors := upsertScope db.scopeActors (keyOf item) row }) db =
      { db with
        scopeActors := items.foldl (fun table item => upsertScope table (keyOf item) row)
          db.scopeActors } := by
  induction items generalizing db with
  | nil => rfl
  | cons item rest ih => rw [foldl_cons, ih]; rfl

theorem foldl_scopeEntities (items : List A) (keyOf : A → Nat × String × Nat) (row : ScopeRow)
    (db : ModelDb) : items.foldl (fun db item =>
        { db with scopeEntities := upsertScope db.scopeEntities (keyOf item) row }) db =
      { db with
        scopeEntities := items.foldl (fun table item => upsertScope table (keyOf item) row)
          db.scopeEntities } := by
  induction items generalizing db with
  | nil => rfl
  | cons item rest ih => rw [foldl_cons, ih]; rfl

theorem foldl_compositionMembers (items : List A) (keyOf : A → Nat × Nat) (row : CompositionRow)
    (db : ModelDb) : items.foldl (fun db item =>
        { db with compositionMembers := upsertMember db.compositionMembers (keyOf item) row }) db =
      { db with
        compositionMembers := items.foldl (fun table item => upsertMember table (keyOf item) row)
          db.compositionMembers } := by
  induction items generalizing db with
  | nil => rfl
  | cons item rest ih => rw [foldl_cons, ih]; rfl

theorem returns_sidecars : Tx.Returns apply
        ((syncModelScopeSidecars rules now modelId proposed.tenantId proposed.scopeActors
          proposed.scopeEntities).bind fun _ =>
            syncModelCompositionMembers rules now modelId proposed.tenantId proposed.proposition)
        db n r t left ↔
      t = sidecarsDb rules now modelId proposed db ∧ n = left := by
  unfold syncModelScopeSidecars syncModelCompositionMembers
  simp only [bind_eq_bind, returns_bind, returns_change, returns_forEach_change,
    foldl_scopeActors, foldl_scopeEntities, foldl_compositionMembers]
  constructor
  · rintro ⟨_, _, _, ⟨_, _, _, ⟨rfl, rfl⟩, _, _, _, ⟨rfl, rfl⟩, _, _, _, ⟨rfl, rfl⟩, rfl, rfl⟩,
      _, _, _, ⟨rfl, rfl⟩, rfl, rfl⟩
    exact ⟨rfl, rfl⟩
  · rintro ⟨rfl, rfl⟩
    exact ⟨(), _, _, ⟨(), _, _, ⟨rfl, rfl⟩, (), _, _, ⟨rfl, rfl⟩, (), _, _, ⟨rfl, rfl⟩, rfl, rfl⟩,
      (), _, _, ⟨rfl, rfl⟩, rfl, rfl⟩

theorem sidecarsOf_sidecarsDb (hu : Unused db planned.id) :
    SidecarsOf rules (sidecarsDb rules now planned.id planned.proposed db) planned where
  scopeActors actor := by
    change Option.map ScopeRow.content (Table.get (List.foldl _ _ _) _) = _
    rw [get_foldl_upsert_of_none upserts_upsertScope rfl _
      (get_deleteWhere_of_none _ (hu.scopeActors actor))]
    simp only [mem_map, mem_eraseDups, Prod.mk.injEq, true_and, exists_eq_right]
    split <;> rfl
  scopeEntities entity := by
    change Option.map ScopeRow.content (Table.get (List.foldl _ _ _) _) = _
    rw [get_foldl_upsert_of_none upserts_upsertScope rfl _
      (get_deleteWhere_of_none _ (hu.scopeEntities entity))]
    simp only [mem_map, Prod.mk.injEq, true_and, exists_eq_right]
    split <;> rfl
  compositionMembers member := by
    change Option.map CompositionRow.content (Table.get (List.foldl _ _ _) _) = _
    rw [get_foldl_upsert_of_none upserts_upsertMember rfl _
      (get_deleteWhere_of_none _ (hu.compositionMembers member))]
    simp only [mem_map, Prod.mk.injEq, true_and, exists_eq_right]
    split <;> rfl

theorem get_sidecarsDb_scopeActors (ho : modelId ≠ key.1) :
    (sidecarsDb rules now modelId proposed db).scopeActors.get key = db.scopeActors.get key := by
  refine (get_foldl_upsert_of_ne upserts_upsertScope (fun actor _ he => ?_) _).trans
    (get_deleteWhere_of_kept fun row => ?_)
  · exact ho (congrArg Prod.fst he)
  · simp [ho.symm]

theorem get_sidecarsDb_scopeEntities (ho : modelId ≠ key.1) :
    (sidecarsDb rules now modelId proposed db).scopeEntities.get key =
      db.scopeEntities.get key := by
  refine (get_foldl_upsert_of_ne upserts_upsertScope (fun entity _ he => ?_) _).trans
    (get_deleteWhere_of_kept fun row => ?_)
  · exact ho (congrArg Prod.fst he)
  · simp [ho.symm]

theorem get_sidecarsDb_compositionMembers (ho : modelId ≠ key.1) :
    (sidecarsDb rules now modelId proposed db).compositionMembers.get key =
      db.compositionMembers.get key := by
  refine (get_foldl_upsert_of_ne upserts_upsertMember (fun member _ he => ?_) _).trans
    (get_deleteWhere_of_kept fun row => ?_)
  · exact ho (congrArg Prod.fst he)
  · simp [ho.symm]

def withRowAndSidecars (rules : InsertRules) (now modelId : Nat) (proposed : ModelCreate)
    (db : ModelDb) : ModelDb :=
  sidecarsDb rules now modelId proposed
    { db with models := db.models.put modelId (proposed.row now) }

theorem returns_prepareInsertPayload_iff (hr : claimRole proposed.proposition ≠ .recommendation) :
    Tx.Returns apply (prepareInsertPayload rules modelId proposed) db n r t
        left ↔ (supportCycleError db modelId proposed.supportingModelIds = none ∧
        missingActors db proposed.tenantId proposed.scopeActors = []) ∧ db = t ∧ n = left := by
  unfold prepareInsertPayload
  simp only [bind_eq_bind, returns_bind, returns_checkNoSupportCycle, returns_when,
    hr, decide_false, Bool.false_eq_true, false_and, false_or, true_and,
    returns_validateScopeActors]
  constructor
  · rintro ⟨_, _, _, ⟨hc, rfl, rfl⟩, _, _, _, ⟨rfl, rfl⟩, ha, rfl, rfl⟩
    exact ⟨⟨hc, ha⟩, rfl, rfl⟩
  · rintro ⟨⟨hc, ha⟩, rfl, rfl⟩
    exact ⟨(), _, _, ⟨hc, rfl, rfl⟩, (), _, _, ⟨rfl, rfl⟩, ha, rfl, rfl⟩

theorem returns_syncInsertSidecarsAndRelations :
    Tx.Returns apply (syncInsertSidecarsAndRelations rules now modelId proposed) db n
        () t left ↔ Tx.Returns apply
        (Tx.when (proposed.supportingModelIds ≠ [] ∨ proposed.contributingModels ≠ [])
          (setModelRelations now (proposed.relations modelId)))
        (sidecarsDb rules now modelId proposed db) n () t left := by
  unfold syncInsertSidecarsAndRelations
  simp only [bind_eq_bind]
  rw [← bind_assoc, returns_bind]
  constructor
  · rintro ⟨_, _, _, hs, hr⟩
    obtain ⟨rfl, rfl⟩ := returns_sidecars.mp hs
    exact hr
  · exact fun hr => ⟨(), _, _, returns_sidecars.mpr ⟨rfl, rfl⟩, hr⟩

structure InsertPasses (rules : InsertRules) (db : ModelDb) (modelId : Nat)
    (proposed : ModelCreate) : Prop where
  falsifier : checkFalsifier rules proposed = .ok ()
  noCycle : supportCycleError db modelId proposed.supportingModelIds = none
  actors : missingActors db proposed.tenantId proposed.scopeActors = []
  free : db.models.get modelId = none

/-- An insert under a given identifier returns when its checks pass and its
relations can be set. -/
theorem returns_insertConstructed_iff (hg : proposed.id = some modelId)
    (hro : claimRole proposed.proposition ≠ .recommendation) :
    Tx.Returns apply ((insertConstructed rules now proposed).bind fun _ => .done ()) db
        n () t left ↔ InsertPasses rules db modelId proposed ∧ Tx.Returns apply
          (Tx.when (proposed.supportingModelIds ≠ [] ∨ proposed.contributingModels ≠ [])
            (setModelRelations now (proposed.relations modelId)))
          (withRowAndSidecars rules now modelId proposed db) n () t left := by
  rw [returns_ignore]
  unfold insertConstructed
  simp only [bind_eq_bind, pure_eq_done, hg, idOrNew]
  constructor
  · rintro ⟨_, hrt⟩
    obtain ⟨_, _, _, hch, hrt⟩ := hrt.parts
    obtain ⟨hf, rfl, rfl⟩ := returns_ofExcept.mp hch
    obtain ⟨_, _, _, hi, hrt⟩ := hrt.parts
    obtain ⟨rfl, rfl, rfl⟩ := hi.ended
    obtain ⟨_, _, _, hpr, hrt⟩ := hrt.parts
    obtain ⟨⟨hc, ha⟩, rfl, rfl⟩ := (returns_prepareInsertPayload_iff hro).mp hpr
    obtain ⟨_, _, _, hr, hrt⟩ := hrt.parts
    obtain ⟨hfr, rfl, rfl⟩ := returns_insertModelRow.mp hr
    obtain ⟨_, _, _, hs, hd⟩ := hrt.parts
    obtain ⟨-, rfl, rfl⟩ := hd.ended
    exact ⟨⟨hf, hc, ha, hfr⟩, returns_syncInsertSidecarsAndRelations.mp hs⟩
  · rintro ⟨hp, hrl⟩
    refine ⟨modelId, returns_bind.mpr ⟨(), db, n,
      returns_ofExcept.mpr ⟨hp.falsifier, rfl, rfl⟩, returns_bind.mpr
        ⟨modelId, db, n, returns_done.mpr ⟨rfl, rfl, rfl⟩, returns_bind.mpr
          ⟨(), db, n, (returns_prepareInsertPayload_iff hro).mpr
            ⟨⟨hp.noCycle, hp.actors⟩, rfl, rfl⟩, returns_bind.mpr
            ⟨(), _, n, returns_insertModelRow.mpr ⟨hp.free, rfl, rfl⟩,
              returns_bind.mpr ⟨(), t, left, returns_syncInsertSidecarsAndRelations.mpr hrl,
                returns_done.mpr ⟨rfl, rfl, rfl⟩⟩⟩⟩⟩⟩⟩

def serialContent (_ : PlannedModel) (_ : EdgeKey) : EdgeContent where
  status := .active
  confidence := 1
  evidenceEventIds := []
  evidenceModelIds := []
  reviewStatus := .accepted
  confirmedCount := 1

section

variable {planned : PlannedModel}

theorem Insertable.sources (hi : Insertable db [planned])
    (hl : source ∈ planned.proposed.supportingModelIds ∨
      source ∈ planned.proposed.contributingModels) :
    source ≠ planned.id ∧ ∀ scope ⊆ dependencyKinds,
      ¬ ReflTransGen (scopeGraph db planned.proposed.tenantId scope) planned.id source := by
  have hm : planned ∈ [planned] := mem_singleton_self _
  have hd : DependsOn db [planned] planned.id source := .of_listed hm hl
  refine ⟨fun he => hi.acyclic planned hm (.single (he ▸ hd)), fun scope hs hp => ?_⟩
  exact hi.acyclic planned hm (.head' hd (dependsOn_of_path hs hp))

theorem noEdgeInto_withRowAndSidecars (hu : Unused db planned.id) :
    NoEdgeInto (withRowAndSidecars rules now planned.id planned.proposed db) planned.id :=
  hu.edges

/-- The row and the sidecars are inserted, and edges that are the named ones
without evidence. -/
theorem inserted_of_edgesOnly (hu : Unused db planned.id)
    (he : EdgesOnly (withRowAndSidecars rules now planned.id planned.proposed db) t)
    (hname : ∀ key, NamesEdge planned key → (t.edges.get key).map EdgeRow.content =
      some (serialContent planned key))
    (hother : ∀ key, ¬ NamesEdge planned key → t.edges.get key = db.edges.get key) :
    Inserted rules serialContent db t [planned] := by
  obtain ⟨edges, rfl⟩ := he
  have hs : SidecarsOf rules
      (withRowAndSidecars rules now planned.id planned.proposed db) planned := sidecarsOf_sidecarsDb
      ⟨hu.edges, hu.scopeActors, hu.scopeEntities, hu.compositionMembers⟩
  constructor
  · rintro _ (_ | ⟨_, ⟨⟩⟩)
    exact ⟨planned.proposed.row now, get_put_self _ _ _, rfl⟩
  · exact fun id ho => get_put_ne _ _ (ho planned (mem_singleton_self _)).symm
  · rintro _ (_ | ⟨_, ⟨⟩⟩) key hn
    exact hname key hn
  · exact fun key hn => hother key (hn planned (mem_singleton_self _))
  · rintro _ (_ | ⟨_, ⟨⟩⟩)
    exact ⟨hs.scopeActors, hs.scopeEntities, hs.compositionMembers⟩
  · intro key ho
    exact (get_sidecarsDb_scopeActors (ho planned (mem_singleton_self _)) :
      (withRowAndSidecars rules now planned.id planned.proposed db).scopeActors.get key = _)
  · intro key ho
    exact (get_sidecarsDb_scopeEntities (ho planned (mem_singleton_self _)) :
      (withRowAndSidecars rules now planned.id planned.proposed db).scopeEntities.get key = _)
  · intro key ho
    exact (get_sidecarsDb_compositionMembers (ho planned (mem_singleton_self _)) :
      (withRowAndSidecars rules now planned.id planned.proposed db).compositionMembers.get key = _)
  · rfl

theorem inserts_insertConstructed (hi : Insertable db [planned]) :
    Inserts rules serialContent (Rejected rules)
      ((insertConstructed rules now planned.proposed).bind fun _ => .done ()) db [planned] := by
  have hm : planned ∈ [planned] := mem_singleton_self _
  have hg := hi.given planned hm
  have hro := hi.role planned hm
  constructor
  · intro hac n
    have hnt := hac planned hm
    unfold Rejected RefusedByStratum at hnt
    simp only [not_or, Bool.not_eq_true, Option.isSome_eq_false_iff, Option.isNone_iff_eq_none,
      ne_eq, not_not] at hnt
    obtain ⟨⟨hfr, hf⟩, ha⟩ := hnt
    have hu := hi.unused planned hm hfr
    have hp : InsertPasses rules db planned.id planned.proposed :=
      ⟨hf, supportCycleError_eq_none hu hi.acyclic hm, ha, hfr⟩
    by_cases hls : planned.proposed.supportingModelIds ≠ [] ∨
        planned.proposed.contributingModels ≠ []
    · obtain ⟨t, left, hs⟩ : ∃ t left, Tx.Returns apply
          (setModelRelations now (planned.proposed.relations planned.id))
          (withRowAndSidecars rules now planned.id planned.proposed db) n () t left :=
        exists_returns_draftRelations (noEdgeInto_withRowAndSidecars hu)
          (fun source hl => hi.sources hl) n
      exact ⟨t, left, (returns_insertConstructed_iff hg hro).mpr
        ⟨hp, returns_when.mpr (.inl ⟨decide_eq_true hls, hs⟩)⟩⟩
    · exact ⟨_, n, (returns_insertConstructed_iff hg hro).mpr
        ⟨hp, returns_when.mpr (.inr ⟨decide_eq_false hls, rfl, rfl⟩)⟩⟩
  · rintro n t left hrt _ (_ | ⟨_, ⟨⟩⟩)
    obtain ⟨hp, -⟩ := (returns_insertConstructed_iff hg hro).mp hrt
    unfold Rejected RefusedByStratum
    simp [hp.free, hp.falsifier, hp.actors]
  · intro n t left hrt
    obtain ⟨hp, hrl⟩ := (returns_insertConstructed_iff hg hro).mp hrt
    have hu := hi.unused planned hm hp.free
    rcases returns_when.mp hrl with ⟨-, hs⟩ | ⟨hls, rfl, -⟩
    · obtain ⟨he, hna, ho⟩ := returns_draftRelations (noEdgeInto_withRowAndSidecars hu)
          (hi.acyclic.not_listed hm) hs
      refine inserted_of_edgesOnly hu he (fun key hname => ?_) ho
      obtain ⟨detectedBy, id, hr⟩ := hna key hname
      rw [hr]
      rfl
    · have hn : ∀ key, ¬ NamesEdge planned key := by
        have hem := of_decide_eq_false hls
        simp only [ne_eq, not_or, not_not] at hem
        rintro key ⟨-, -, -, ⟨-, hl⟩ | ⟨-, hl⟩⟩
        · rw [hem.1] at hl
          cases hl
        · rw [hem.2] at hl
          cases hl
      exact inserted_of_edgesOnly hu (.refl _) (fun key hname => absurd hname (hn key)) fun key _ => rfl

end

end FyralisCore.Models
