import FyralisCore.Models.DualWrite

/-! What an archive owes to the rest of the model graph: no active edge at the
archived model, and a re-evaluation queued for each active model that depended
on it. -/
namespace FyralisCore.Models

open Relational Transaction Transition List Tx ModelDb

variable {db after : ModelDb} {supply left now : Nat}

def RegistryKind.targetDepends : RegistryKind → Bool
  | .supports | .contributesToResolution | .instanceOf | .contradicts | .weakens => true
  | _ => false

def RegistryKind.sourceDepends : RegistryKind → Bool
  | .instanceOf | .contradicts => true
  | _ => false

inductive EdgeKey.Carries (modelId dependent : Nat) : EdgeKey → Prop
  | atTarget (tenantId : Nat) (kind : RegistryKind) (hkind : kind.targetDepends) :
      Carries modelId dependent ⟨tenantId, modelId, dependent, kind⟩
  | atSource (tenantId : Nat) (kind : RegistryKind) (hkind : kind.sourceDepends) :
      Carries modelId dependent ⟨tenantId, dependent, modelId, kind⟩

section

variable (db : ModelDb) (modelId dependent : Nat)

def DependsByEdge : Prop :=
  ∃ key, ActiveAt db key ∧ key.Carries modelId dependent

def ActiveDependent : Prop :=
  ∃ row, db.models.get dependent = some row ∧ row.status = .active ∧
    (DependsByEdge db modelId dependent ∨ modelId ∈ row.supportingModelIds ∨
      modelId ∈ row.contributingModels)

def Queued : Prop :=
  ∃ tenantId, (db.reevalQueue.get ⟨tenantId, dependent, some modelId, none⟩).isSome

end

structure ArchiveComplete (db after : ModelDb) (modelId : Nat) : Prop where
  edges : ∀ key, ActiveAt after key → key.source ≠ modelId ∧ key.target ≠ modelId
  dependents : ∀ dependent, ActiveDependent db modelId dependent → Queued after modelId dependent

/-- The cascade's callback at the source of an edge fires just when the target
depends on it. -/
theorem onSourceArchive_isSome_iff (kind : RegistryKind) :
    (onSourceArchive kind).isSome = kind.targetDepends := by
  cases kind <;> rfl

theorem onTargetArchive_isSome_iff (kind : RegistryKind) :
    (onTargetArchive kind).isSome = kind.sourceDepends := by
  cases kind <;> rfl

/-- The queue holds what it held and an unprocessed re-evaluation for each of
the dependents. -/
structure Enqueued (tenantId causeModelId : Nat) (dependents : Nat → Prop)
    (db after : ModelDb) : Prop where
  graph : GraphUnchanged db after
  queue : ∀ key, (after.reevalQueue.get key).isSome ↔ (db.reevalQueue.get key).isSome ∨
    ∃ dependent, dependents dependent ∧ key = ⟨tenantId, dependent, some causeModelId, none⟩

section

variable {middle : ModelDb} {tenantId causeModelId : Nat} {first second : Nat → Prop}

theorem Enqueued.none (hn : ∀ dependent, ¬ first dependent) :
    Enqueued tenantId causeModelId first db db where
  graph := .refl _
  queue _ := ⟨Or.inl, fun hq => hq.resolve_right fun ⟨dependent, h1, _⟩ =>
    hn dependent h1⟩

theorem Enqueued.trans (h1 : Enqueued tenantId causeModelId first db middle)
    (h2 : Enqueued tenantId causeModelId second middle after) :
    Enqueued tenantId causeModelId (fun dependent => first dependent ∨ second dependent) db
      after where
  graph := h1.graph.trans h2.graph
  queue key := by
    rw [h2.queue, h1.queue, or_assoc, ← exists_or]
    simp [or_and_right]

section

variable (he : Enqueued tenantId causeModelId first db after)

include he

theorem Enqueued.congr (hi : ∀ dependent, first dependent ↔ second dependent) :
    Enqueued tenantId causeModelId second db after := by
  obtain rfl : first = second := funext fun dependent => propext (hi dependent)
  exact he

theorem Enqueued.queued (dependent : Nat) : Queued after causeModelId dependent ↔
    Queued db causeModelId dependent ∨ first dependent := by
  unfold Queued
  simp only [he.queue, exists_or]
  refine or_congr Iff.rfl ⟨?_, fun h1 => ⟨tenantId, dependent, h1, rfl⟩⟩
  rintro ⟨_, other, ho, hk⟩
  obtain rfl : dependent = other := congrArg ReevalKey.modelId hk
  exact ho

end

end

variable {tenantId modelId dependent : Nat} {result : Unit} {reason : ModelArchiveReason}

theorem returns_enqueueReeval (hr : Tx.Returns apply
      (enqueueReeval now tenantId dependentId causeModelId causeKind) db supply result after left) :
    Enqueued tenantId causeModelId (· = dependentId) db after := by
  refine ⟨graphUnchanged_enqueueReeval hr, fun key => ?_⟩
  rw [exists_eq_left]
  unfold enqueueReeval at hr
  simp only [bind_eq_bind, returns_newId_bind] at hr
  obtain ⟨w, ha, rfl, -⟩ := returns_execute.mp hr
  split at ha
  · next hp =>
    cases ha
    refine ⟨Or.inl, ?_⟩
    rintro (hq | rfl)
    · exact hq
    · exact hp
  · split at ha
    · cases ha
    · cases ha
      rw [Table.get_put]
      split
      · next he => simp [he]
      · next hn => simp [hn]

theorem returns_cascade (hr : Tx.Returns apply
      (cascade now modelId tenantId reason callback otherEndpoint) db supply result after left) :
    Enqueued tenantId modelId (fun dependent => callback.isSome ∧ dependent = otherEndpoint) db
      after := by
  rcases returns_forSome.mp hr with ⟨rfl, rfl, -⟩ | ⟨_, rfl, hb⟩
  · exact .none fun _ hn => Bool.false_ne_true hn.1
  · exact (returns_enqueueReeval hb).congr fun dependent => by simp

theorem returns_forEach_enqueued
    {body : A → ModelTx Unit} {dependents : A → Nat → Prop} (hb : ∀ item db supply after left,
      Tx.Returns apply (body item) db supply () after left →
        Enqueued tenantId causeModelId (dependents item) db after)
    (hr : Tx.Returns apply (Tx.forEach items body) db supply result after left) :
    Enqueued tenantId causeModelId (fun dependent => ∃ item ∈ items, dependents item dependent) db
      after := by
  induction items generalizing db supply with
  | nil =>
    obtain ⟨rfl, -⟩ := returns_forEach_nil.mp hr
    exact .none (by simp)
  | cons item rest ih =>
    obtain ⟨middle, remaining, hi, ht⟩ := returns_forEach_cons.mp hr
    exact ((hb _ _ _ _ _ hi).trans (ih ht)).congr (by simp)

def CascadesTo (db : ModelDb) (tenantId modelId dependent : Nat) : Prop :=
  ∃ key, key.tenantId = tenantId ∧ ActiveAt db key ∧ key.Carries modelId dependent

/-- The array cascade reaches `dependent`; the archived model is no longer active. -/
def ListsOther (db : ModelDb) (modelId dependent : Nat) : Prop :=
  dependent ≠ modelId ∧ ∃ row, db.models.get dependent = some row ∧ row.status = .active ∧
    modelId ∈ row.supportingModelIds

/-- The two edge cascades together reach what an active edge of the tenant
makes depend on the model. -/
theorem cascadesTo_iff : CascadesTo db tenantId modelId dependent ↔
      (∃ e ∈ db.edges.rows.filter fun e =>
          e.1.tenantId = tenantId ∧ e.1.source = modelId ∧
            e.1.kind ∈ RegistryKind.all.map EdgeKind.registry ∧ e.2.status = .active,
        (onSourceArchive e.1.kind).isSome ∧ dependent = e.1.target) ∨
      ∃ e ∈ db.edges.rows.filter fun e =>
          e.1.tenantId = tenantId ∧ e.1.target = modelId ∧
            e.1.kind ∈ RegistryKind.all.map EdgeKind.registry ∧ e.2.status = .active,
        (onTargetArchive e.1.kind).isSome ∧ dependent = e.1.source := by
  simp only [mem_filter, decide_eq_true_eq]
  constructor
  · rintro ⟨key, rfl, ⟨row, hr, ha⟩, ⟨tenantId, kind, hk⟩ | ⟨tenantId, kind, hk⟩⟩
    · have hm := mem_map_of_mem (f := EdgeKind.registry) kind.mem_all
      exact .inl ⟨(_, row), ⟨(db.edges.mem_rows_iff _ _).mpr hr, rfl, rfl, hm, ha⟩,
        (onSourceArchive_isSome_iff kind).trans hk, rfl⟩
    · have hm := mem_map_of_mem (f := EdgeKind.registry) kind.mem_all
      exact .inr ⟨(_, row), ⟨(db.edges.mem_rows_iff _ _).mpr hr, rfl, rfl, hm, ha⟩,
        (onTargetArchive_isSome_iff kind).trans hk, rfl⟩
  · rintro (⟨⟨⟨tenant, source, target, kind⟩, row⟩, ⟨hr, rfl, rfl, hm, ha⟩, hs, rfl⟩ |
      ⟨⟨⟨tenant, source, target, kind⟩, row⟩, ⟨hr, rfl, rfl, hm, ha⟩, hs, rfl⟩)
    · obtain ⟨registryKind, -, rfl⟩ := mem_map.mp hm
      exact ⟨_, rfl, ⟨row, (db.edges.mem_rows_iff _ _).mp hr, ha⟩,
        .atTarget _ _ ((onSourceArchive_isSome_iff registryKind).symm.trans hs)⟩
    · obtain ⟨registryKind, -, rfl⟩ := mem_map.mp hm
      exact ⟨_, rfl, ⟨row, (db.edges.mem_rows_iff _ _).mp hr, ha⟩,
        .atSource _ _ ((onTargetArchive_isSome_iff registryKind).symm.trans hs)⟩

theorem mem_dependentsOf_archived_iff
    (hm : after.models = db.models.update modelId (ModelRow.archived now reason)) :
    dependent ∈ dependentsOf after modelId ↔ ListsOther db modelId dependent := by
  unfold dependentsOf ListsOther
  simp only [mem_map, mem_filter, Table.mem_rows_iff, decide_eq_true_eq, Prod.exists,
    hm, Table.get_update]
  constructor
  · rintro ⟨_, row, ⟨hr, hl, ha⟩, rfl⟩
    split at hr
    · obtain ⟨_, -, rfl⟩ := Option.map_eq_some_iff.mp hr
      cases ha
    · next hn => exact ⟨hn, row, hr, ha, hl⟩
  · rintro ⟨hn, row, hr, ha, hl⟩
    exact ⟨dependent, row, ⟨by rw [if_neg hn]; exact hr, hl, ha⟩, rfl⟩

theorem queued_archive_iff (hr : db.models.get modelId = some row)
    (hrt : Tx.Returns apply (archive now modelId reason) db supply result after left)
    (dependent : Nat) : Queued after modelId dependent ↔ Queued db modelId dependent ∨
      CascadesTo db row.tenantId modelId dependent ∨ ListsOther db modelId dependent := by
  unfold archive at hrt
  simp only [bind_eq_bind, returns_read_bind, hr] at hrt
  obtain ⟨found, _, _, hf, hrt⟩ := hrt.parts
  obtain ⟨hs, rfl, -⟩ := returns_orRaise.mp hf
  cases hs
  obtain ⟨_, marked, _, hc, hrt⟩ := hrt.parts
  obtain ⟨hmk, -⟩ := returns_change.mp hc
  obtain ⟨forwardEdges, _, _, hfrw, hrt⟩ := hrt.parts
  obtain ⟨rfl, rfl, -⟩ := returns_read.mp hfrw
  obtain ⟨_, forwarded, _, hfo, hrt⟩ := hrt.parts
  obtain ⟨backwardEdges, _, _, hba, hrt⟩ := hrt.parts
  obtain ⟨rfl, rfl, -⟩ := returns_read.mp hba
  obtain ⟨_, backwarded, _, hbc, hrt⟩ := hrt.parts
  obtain ⟨dependents, _, _, hrd, hrt⟩ := hrt.parts
  obtain ⟨rfl, rfl, -⟩ := returns_read.mp hrd
  obtain ⟨_, _, _, hd, hi⟩ := hrt.parts
  obtain ⟨_, hi⟩ := returns_ignore.mp hi
  obtain rfl := returns_markInert hi
  have hfr := returns_forEach_enqueued (fun _ _ _ _ _ => returns_cascade) hfo
  have hb := returns_forEach_enqueued (fun _ _ _ _ _ => returns_cascade) hbc
  have hl := returns_forEach_enqueued (fun _ _ _ _ _ => returns_enqueueReeval) hd
  have hqd := ((hfr.trans hb).trans hl).queued dependent
  have hm : backwarded.models = db.models.update modelId (ModelRow.archived now reason) := by
    rw [(hfr.trans hb).graph.models, hmk]
  have he : forwarded.edges = db.edges := by
    rw [hfr.graph.edges, hmk]
  have hq : Queued marked modelId dependent ↔ Queued db modelId dependent := by
    rw [hmk]
    exact Iff.rfl
  rw [cascadesTo_iff, ← mem_dependentsOf_archived_iff hm, ← hq]
  refine hqd.trans ?_
  rw [he]
  simp [hmk]

/-- The archive of the model reaches all that depends on it: its active edges
belong to its tenant, and a model that lists it in an array the archive does not
search is reached in another way. -/
structure ArchiveReaches (db : ModelDb) (modelId : Nat) (row : ModelRow) : Prop where
  edges : ∀ key, ActiveAt db key → key.source = modelId ∨ key.target = modelId →
    key.tenantId = row.tenantId
  arrays : ∀ dependent dependentRow, db.models.get dependent = some dependentRow →
    dependentRow.status = .active → modelId ∈ dependentRow.contributingModels ∨
        (dependent = modelId ∧ modelId ∈ dependentRow.supportingModelIds) →
          Queued db modelId dependent ∨ DependsByEdge db modelId dependent ∨
            ListsOther db modelId dependent

theorem EdgeKey.Carries.endpoint {key : EdgeKey}
    (hc : key.Carries modelId dependent) : key.source = modelId ∨ key.target = modelId := by
  cases hc with
  | atTarget => exact .inl rfl
  | atSource => exact .inr rfl

/-- Where the edges at the model belong to its tenant, the edge cascade misses
no dependence. -/
theorem cascadesTo_iff_dependsByEdge {row : ModelRow}
    (he : ∀ key, ActiveAt db key → key.source = modelId ∨ key.target = modelId →
      key.tenantId = row.tenantId) :
    CascadesTo db row.tenantId modelId dependent ↔ DependsByEdge db modelId dependent := by
  constructor
  · rintro ⟨key, -, ha, hc⟩
    exact ⟨key, ha, hc⟩
  · rintro ⟨key, ha, hc⟩
    exact ⟨key, he key ha hc.endpoint, ha, hc⟩

/-- An archive that returns leaves no active edge at the model and a queued
re-evaluation for each dependent, just when it reaches them all. -/
theorem archive_complete_iff {modelId : Nat} {row : ModelRow} {reason : ModelArchiveReason}
    {result : Unit} (hrow : db.models.get modelId = some row)
    (hreturns : Tx.Returns apply (archive now modelId reason) db supply result after left) :
    ArchiveComplete db after modelId ↔ ArchiveReaches db modelId row := by
  have hqueued := queued_archive_iff hrow hreturns
  obtain ⟨found, hfound, -, hafter⟩ := returns_archive hreturns
  cases hrow.symm.trans hfound
  have hactive := activeAt_madeInert hafter
  constructor
  · intro hcomplete
    have hedges : ∀ key, ActiveAt db key → key.source = modelId ∨ key.target = modelId →
        key.tenantId = row.tenantId := by
      intro key hkey hendpoint
      by_contra htenant
      have hkept : ActiveAt after key := (hactive key).mpr ⟨hkey, fun htouches => htenant htouches.1⟩
      have hnot := hcomplete.edges key hkept
      exact hendpoint.elim hnot.1 hnot.2
    refine ⟨hedges, fun dependent dependentRow hget hstatus hlists => ?_⟩
    have hdepends : ActiveDependent db modelId dependent :=
      ⟨dependentRow, hget, hstatus, .inr (hlists.symm.imp And.right id)⟩
    rw [← cascadesTo_iff_dependsByEdge hedges]
    exact (hqueued dependent).mp (hcomplete.dependents dependent hdepends)
  · intro hreaches
    refine ⟨fun key hkey => ?_, fun dependent hdepends => ?_⟩
    · obtain ⟨hbefore, huntouched⟩ := (hactive key).mp hkey
      refine ⟨fun hsource => huntouched ?_, fun htarget => huntouched ?_⟩
      · exact ⟨hreaches.edges key hbefore (.inl hsource), .inl hsource⟩
      · exact ⟨hreaches.edges key hbefore (.inr htarget), .inr htarget⟩
    · rw [hqueued, cascadesTo_iff_dependsByEdge hreaches.edges]
      obtain ⟨dependentRow, hget, hstatus, hedge | hsupporting | hcontributing⟩ := hdepends
      · exact .inr (.inl hedge)
      · by_cases hself : dependent = modelId
        · exact hreaches.arrays dependent dependentRow hget hstatus (.inr ⟨hself, hsupporting⟩)
        · exact .inr (.inr ⟨hself, dependentRow, hget, hstatus, hsupporting⟩)
      · exact hreaches.arrays dependent dependentRow hget hstatus (.inl hcontributing)

def unlinkedSupporter : ModelDb where
  models := ((∅ : Table Nat ModelRow).put 1
    { tenantId := 0, proposition := .object [], createdAt := 0 }).put 2
      { tenantId := 0, proposition := .object [], supportingModelIds := [1], createdAt := 0 }

theorem archive_complete_iff_unlinked : ArchiveComplete unlinkedSupporter
      ((archive 0 1 .deprecated).exec apply unlinkedSupporter 0).state 1 := by
  have hrow : unlinkedSupporter.models.get 1 =
      some { tenantId := 0, proposition := .object [], createdAt := 0 } := rfl
  have hreturns : Tx.Returns apply (archive 0 1 .deprecated) unlinkedSupporter 0 ()
      ((archive 0 1 .deprecated).exec apply unlinkedSupporter 0).state
      ((archive 0 1 .deprecated).exec apply unlinkedSupporter 0).supply := rfl
  refine (archive_complete_iff hrow hreturns).mpr
    ⟨?_, fun dependent dependentRow hget _ hlists => ?_⟩
  · rintro key ⟨_, hedge, -⟩
    cases hedge
  · have hmem := (unlinkedSupporter.models.mem_rows_iff dependent dependentRow).mpr hget
    rcases mem_pair.mp hmem with heq | heq <;> cases heq
    · rcases hlists with hlisted | ⟨hself, -⟩
      · cases hlisted
      · cases hself
    · rcases hlists with hlisted | ⟨-, hlisted⟩ <;> cases hlisted

def retiredContributor : Database ModelDb :=
  ((Database.run apply (insertConstructed plainRules 0 (plainDraft 1 [])) ⟨{}, 0⟩).run
    apply (insertConstructed plainRules 0
      { plainDraft 2 [] with contributingModels := [1] })).run apply
        (retire 0 1 2 RegistryKind.contributesToResolution 0 "weak")

/-- The archive of model 1 then queues no re-evaluation of model 2. -/
theorem retired_contributor_not_queued :
    ¬ ∀ (db after : ModelDb) (supply left now modelId : Nat) (reason : ModelArchiveReason),
      Tx.Returns apply (archive now modelId reason) db supply () after left →
        ArchiveComplete db after modelId := by
  intro hall
  have hok : ((archive 0 1 .deprecated).exec apply retiredContributor.state
      retiredContributor.supply).result.isOk := by decide +kernel
  obtain ⟨_, hreturns⟩ := returns_of_isOk hok
  have hcomplete := hall _ _ _ _ _ _ _ hreturns
  have hrow : (retiredContributor.state.models.get 2).map (fun row =>
      (row.status, row.contributingModels)) = some (.active, [1]) := by decide +kernel
  obtain ⟨row, hget, hfields⟩ := Option.map_eq_some_iff.mp hrow
  obtain ⟨hstatus, hcontributing⟩ := Prod.mk.inj hfields
  obtain ⟨tenantId, hqueued⟩ := hcomplete.dependents 2
    ⟨row, hget, hstatus, .inr (.inr (hcontributing ▸ mem_singleton_self 1))⟩
  have hempty : ((archive 0 1 .deprecated).exec apply retiredContributor.state
      retiredContributor.supply).state.reevalQueue.primaryKeys = [] := by decide +kernel
  have hmem := (Table.mem_primaryKeys_iff _ _).mpr (Option.isSome_iff_exists.mp hqueued)
  rw [hempty] at hmem
  cases hmem

end FyralisCore.Models
