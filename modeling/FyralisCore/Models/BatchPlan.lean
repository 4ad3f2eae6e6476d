import FyralisCore.Lib.Graph
import FyralisCore.Models.Batch

/-! What the planner of a batch guarantees: distinct identifiers, no model that
names itself, and strata that hold every model after those it depends on. -/
namespace FyralisCore.Models

open Relational Transaction List Except
open Acts (Json)

variable {rules : InsertRules}

theorem duplicateIds_eq_nil : duplicateIds seen ids = [] ↔ ids.Nodup ∧ ∀ id ∈ ids, id ∉ seen := by
  induction ids generalizing seen with
  | nil => simp [duplicateIds]
  | cons id rest ih =>
    rw [duplicateIds]
    split
    · simp [*]
    · simp only [ih, nodup_cons, mem_cons]
      grind

/-- The model does not list itself, and depends on what it lists of the batch. -/
def DependsOnListed (batchIds : List Nat) (planned : PlannedModel) (listed : List Nat) : Prop :=
  ∀ id ∈ listed, id ≠ planned.id ∧ (id ∈ batchIds → id ∈ planned.dependsOn)

variable {modelId : Nat} {batchIds : List Nat}

/-- All that `add` is called with, except `None`; `none` is a value that is no UUID. -/
def references (rules : InsertRules) (proposed : ModelCreate) :
    Except ModelError (List (Option Nat)) := do
  let members ← plannedMembers proposed.proposition
  return proposed.supportingModelIds.map some ++ proposed.contributingModels.map some ++
    (members.filter notNull).map fun raw => rules.parseUuid (rules.str raw)

def dependencyIn (batchIds : List Nat) (reference : Option Nat) : List Nat :=
  reference.toList.filter (· ∈ batchIds)

theorem addDependency_ok_iff : addDependency fieldName modelId batchIds reference = .ok found ↔
      (reference ≠ none ∧ reference ≠ some modelId) ∧ dependencyIn batchIds reference = found := by
  cases reference with
  | none => simp [addDependency]
  | some id =>
    unfold addDependency dependencyIn
    dsimp only
    split
    · simp [*]
    · split <;> simp [*]

theorem addDependencies_ok_iff {fieldName : String} {refs : List (Option Nat)}
    {found : List (List Nat)} : refs.mapM (addDependency fieldName modelId batchIds) = .ok found ↔
      (none ∉ refs ∧ some modelId ∉ refs) ∧ refs.map (dependencyIn batchIds) = found := by
  rw [mapM_eq_ok_iff]
  simp only [addDependency_ok_iff]
  induction refs generalizing found with
  | nil => simp [forall₂_nil_left_iff, eq_comm]
  | cons reference rest ih =>
    cases found with
    | nil => simp
    | cons first found =>
      rw [forall₂_cons, ih]
      simp only [mem_cons, map_cons, List.cons.injEq]
      tauto

theorem intraBatchDependencies_ok_iff {proposed : ModelCreate} {dependsOn : List Nat} :
    intraBatchDependencies rules proposed modelId batchIds = .ok dependsOn ↔
      ∃ refs, references rules proposed = .ok refs ∧ (none ∉ refs ∧ some modelId ∉ refs) ∧
        (refs.flatMap (dependencyIn batchIds)).eraseDups = dependsOn := by
  have hm : ∀ (fieldName : String) (ids : List Nat),
      (ids.mapM fun id => addDependency fieldName modelId batchIds (some id)) =
        (ids.map some).mapM (addDependency fieldName modelId batchIds) := by
    intro fieldName ids
    rw [mapM_map]
    rfl
  have hmb : ∀ (fieldName : String) (members : List Json),
      (members.mapM fun raw => addDependency fieldName modelId batchIds
          (rules.parseUuid (rules.str raw))) =
        (members.map fun raw => rules.parseUuid (rules.str raw)).mapM
          (addDependency fieldName modelId batchIds) := by
    intro fieldName members
    rw [mapM_map]
    rfl
  simp only [intraBatchDependencies, references, bind_eq_ok_iff, hm, hmb, addDependencies_ok_iff]
  constructor
  · rintro ⟨_, ⟨hs, rfl⟩, _, ⟨hcb, rfl⟩, members, ho, _, ⟨hc, rfl⟩, hd⟩
    refine ⟨_, ⟨members, ho, rfl⟩, ?_, ?_⟩
    · simp_all
    · cases hd
      simp [List.flatMap]
  · rintro ⟨_, ⟨members, ho, hr⟩, hn, rfl⟩
    cases hr
    simp only [mem_append, not_or] at hn
    refine ⟨_, ⟨⟨hn.1.1.1, hn.2.1.1⟩, rfl⟩, _, ⟨⟨hn.1.1.2, hn.2.1.2⟩, rfl⟩, members, ho, _,
      ⟨⟨hn.1.2, hn.2.2⟩, rfl⟩, ?_⟩
    simp [List.flatMap, pure, Except.pure]

theorem mem_dependencies {refs : List (Option Nat)} {id : Nat} :
    id ∈ (refs.flatMap (dependencyIn batchIds)).eraseDups ↔ some id ∈ refs ∧ id ∈ batchIds := by
  simp only [mem_eraseDups, mem_flatMap, dependencyIn, mem_filter,
    Option.mem_toList, decide_eq_true_eq]
  grind

theorem intraBatchDependencies_eq_ok
    (ho : intraBatchDependencies rules proposed modelId batchIds = .ok dependsOn) {id : Nat}
    (hl : id ∈ proposed.supportingModelIds ∨ id ∈ proposed.contributingModels) :
    id ≠ modelId ∧ (id ∈ batchIds → id ∈ dependsOn) := by
  obtain ⟨refs, hr, ⟨-, hs⟩, rfl⟩ := intraBatchDependencies_ok_iff.mp ho
  obtain ⟨members, -, hd⟩ := bind_eq_ok_iff.mp hr
  have hrf : some id ∈ refs := by
    cases hd
    exact mem_append_left _ (by simpa using hl)
  refine ⟨?_, fun hb => mem_dependencies.mpr ⟨hrf, hb⟩⟩
  rintro rfl
  exact hs hrf

/-- Every model depends on identifiers emitted before its stratum only. -/
def Layered : List Nat → List (List PlannedModel) → Prop
  | _, [] => True
  | emitted, stratum :: later =>
    (∀ planned ∈ stratum, ∀ id ∈ planned.dependsOn, id ∈ emitted) ∧
      Layered (emitted ++ stratum.map PlannedModel.id) later

theorem topologicalStrata_eq_ok (hr : k.length ≤ rounds)
    (ho : topologicalStrata rounds k emitted = .ok strata) :
    strata.flatten.Perm k ∧ Layered emitted strata := by
  induction rounds generalizing k emitted strata with
  | zero =>
    obtain rfl := length_eq_zero_iff.mp (Nat.le_zero.mp hr)
    obtain rfl := ok.inj ho
    exact ⟨.nil, trivial⟩
  | succ rounds ih =>
    rw [topologicalStrata] at ho
    split at ho
    · next he =>
      obtain rfl := isEmpty_iff.mp he
      obtain rfl := ok.inj ho
      exact ⟨.nil, trivial⟩
    · next hne =>
      dsimp only at ho
      split at ho
      · cases ho
      · next hrd =>
        obtain ⟨u, hl, hd⟩ := bind_eq_ok_iff.mp ho
        obtain rfl := ok.inj hd
        -- A round takes at least one model out of those that remain.
        have hs := filter_append_perm
          (fun planned : PlannedModel => planned.dependsOn.all (· ∈ emitted)) k
        have hln := hs.length_eq
        rw [length_append] at hln
        have hps := length_pos_iff.mpr (fun hn => hrd (isEmpty_iff.mpr hn))
        obtain ⟨hp, hly⟩ := ih (by omega) hl
        refine ⟨?_, fun planned hm id hi => ?_, hly⟩
        · rw [flatten_cons]
          exact (hp.append_left _).trans hs
        · have ha := (mem_filter.mp hm).2
          exact of_decide_eq_true (all_eq_true.mp ha id hi)

structure PlanOf (proposed : List (Nat × ModelCreate)) (plan : ModelBatchPlan) : Prop where
  drafts : List.Forall₂ (fun entry planned => planned.id = entry.1 ∧ planned.proposed = entry.2)
    proposed plan.models
  nodup : (plan.models.map PlannedModel.id).Nodup
  supporting : ∀ planned ∈ plan.models, DependsOnListed (plan.models.map PlannedModel.id) planned
    planned.proposed.supportingModelIds
  contributing : ∀ planned ∈ plan.models, DependsOnListed (plan.models.map PlannedModel.id)
    planned planned.proposed.contributingModels
  strata : plan.strata.flatten.Perm plan.models
  layered : Layered [] plan.strata

theorem exists_of_mem_right (ha : List.Forall₂ R items results) (hm : result ∈ results) :
    ∃ item ∈ items, R item result := by
  induction ha with
  | nil => cases hm
  | cons h1 _ ih =>
    rcases mem_cons.mp hm with rfl | ht
    · exact ⟨_, .head _, h1⟩
    · obtain ⟨item, hi, hr⟩ := ih ht
      exact ⟨item, mem_cons_of_mem _ hi, hr⟩

theorem map_fst_of_forall₂
    (ha : List.Forall₂ (fun e planned => planned.id = e.1 ∧ planned.proposed = e.2)
      proposed models) : models.map PlannedModel.id = proposed.map Prod.fst := by
  induction ha with
  | nil => rfl
  | cons h1 _ ih => rw [map_cons, map_cons, h1.1, ih]

theorem planned_spec (hp : (proposed.zipIdx.mapM fun ((modelId, draft), index) => do
      let dependsOn ← intraBatchDependencies rules draft modelId (proposed.map Prod.fst)
      return { index, id := modelId, proposed := draft, dependsOn : PlannedModel }) = .ok planned) :
    List.Forall₂ (fun e planned => planned.id = e.1 ∧ planned.proposed = e.2)
        proposed planned ∧ ∀ e ∈ planned, intraBatchDependencies rules e.proposed e.id
        (proposed.map Prod.fst) = .ok e.dependsOn := by
  rw [mapM_eq_ok_iff] at hp
  have hmd : List.Forall₂ (fun (e : (Nat × ModelCreate) × Nat) planned =>
      (planned.id = e.1.1 ∧ planned.proposed = e.1.2) ∧
        intraBatchDependencies rules e.1.2 e.1.1 (proposed.map Prod.fst) =
          .ok planned.dependsOn) proposed.zipIdx planned := by
    refine hp.imp fun e planned hmd => ?_
    obtain ⟨dependsOn, hdp, hd⟩ := bind_eq_ok_iff.mp hmd
    obtain rfl := ok.inj hd
    exact ⟨⟨rfl, rfl⟩, hdp⟩
  refine ⟨?_, fun e hm => ?_⟩
  · have hmp : List.Forall₂ (fun (e : Nat × ModelCreate) (planned : PlannedModel) =>
        planned.id = e.1 ∧ planned.proposed = e.2) (proposed.zipIdx.map Prod.fst) planned :=
      forall₂_map_left_iff.mpr (hmd.imp fun _ _ he => he.1)
    rwa [zipIdx_map_fst] at hmp
  · obtain ⟨source, -, ⟨hi, hdr⟩, hdp⟩ := exists_of_mem_right hmd hm
    rw [hi, hdr, hdp]

/-- The steps of a plan that is returned. -/
theorem planAssigned_steps (ho : planAssigned rules proposed = .ok plan) :
    (proposed.map Prod.fst).Nodup ∧
      List.Forall₂ (fun e planned => planned.id = e.1 ∧ planned.proposed = e.2)
        proposed plan.models ∧
      (∀ planned ∈ plan.models, intraBatchDependencies rules planned.proposed planned.id
        (proposed.map Prod.fst) = .ok planned.dependsOn) ∧
      topologicalStrata plan.models.length plan.models [] = .ok plan.strata := by
  obtain ⟨_, hr, ho⟩ := bind_eq_ok_iff.mp ho
  obtain ⟨planned, hp, ho⟩ := bind_eq_ok_iff.mp ho
  obtain ⟨strata, hs, ho⟩ := bind_eq_ok_iff.mp ho
  obtain rfl := ok.inj ho
  have hd : duplicateIds [] (proposed.map Prod.fst) = [] := by
    unfold planAssigned.refuse at hr
    split at hr
    · assumption
    · cases hr
  obtain ⟨hdr, hdp⟩ := planned_spec hp
  exact ⟨(duplicateIds_eq_nil.mp hd).1, hdr, hdp, hs⟩

theorem planAssigned_eq_ok {proposed : List (Nat × ModelCreate)}
    (ho : planAssigned rules proposed = .ok plan) : PlanOf proposed plan := by
  obtain ⟨hn, hd, hdp, hs⟩ := planAssigned_steps ho
  have hi := map_fst_of_forall₂ hd
  obtain ⟨hp, hl⟩ := topologicalStrata_eq_ok le_rfl hs
  refine ⟨hd, hi ▸ hn, fun planned hm id hid => ?_,
    fun planned hm id hid => ?_, hp, hl⟩
  · rw [hi]
    exact intraBatchDependencies_eq_ok (hdp planned hm) (.inl hid)
  · rw [hi]
    exact intraBatchDependencies_eq_ok (hdp planned hm) (.inr hid)

end FyralisCore.Models

/-! When a batch of models has a plan: `plan_model_batch` from the drafts to the strata,
with `construct_model` and `uuid7` as parameters. -/
namespace FyralisCore.Models

open Relational Transaction
open Graph (Acyclic)

variable {rules : InsertRules}

/-- A model id with what `construct_model` makes of its draft. -/
abbrev Constructed := Nat × Except ModelError ModelCreate

/-- `uuid7 index` is the identifier drawn for a draft that brings none. -/
def constructAll (construct : ModelCreate → Except ModelError ModelCreate) (uuid7 : Nat → Nat)
    (proposed : List ModelCreate) : List Constructed :=
  proposed.zipIdx.map fun (raw, index) =>
    let modelId := raw.id.getD (uuid7 index)
    (modelId, construct { raw with id := some modelId })

section

variable (rules : InsertRules)

def planConstructed (drafts : List Constructed) : Except ModelError ModelBatchPlan := do
  let prepared ← drafts.mapM fun (modelId, constructed) => do
    let proposed ← constructed
    return (modelId, proposed)
  planAssigned rules prepared

def RefersTo (proposed : ModelCreate) (id : Nat) : Prop :=
  ∃ refs, references rules proposed = .ok refs ∧ some id ∈ refs

/-- Some reference is no UUID; a `member_model_ids` to which no `for` applies counts as one. -/
def RefersToNoUuid (proposed : ModelCreate) : Prop :=
  ∀ refs, references rules proposed = .ok refs → none ∈ refs

/-- The dependency graph inside the batch. -/
def BatchEdge (drafts : List Constructed) (a b : Nat) : Prop :=
  ∃ proposed, (a, .ok proposed) ∈ drafts ∧ RefersTo rules proposed b ∧ b ∈ drafts.map Prod.fst

end

inductive Refused (rules : InsertRules) (drafts : List Constructed) : Prop where
  | construction (modelId : Nat) (error : ModelError) (hdraft : (modelId, .error error) ∈ drafts)
  | duplicateIds (hrepeat : ¬ (drafts.map Prod.fst).Nodup)
  | notUuid (modelId : Nat) (proposed : ModelCreate) (hdraft : (modelId, .ok proposed) ∈ drafts)
      (hrefers : RefersToNoUuid rules proposed)
  | selfDependency (modelId : Nat) (proposed : ModelCreate)
      (hdraft : (modelId, .ok proposed) ∈ drafts) (hrefers : RefersTo rules proposed modelId)
  | cycle (hcycle : ¬ Acyclic (BatchEdge rules drafts))

/-- The strata partition the models, in input order, each after what its models refer to. -/
structure Stratified (rules : InsertRules) (drafts : List Constructed) (plan : ModelBatchPlan) :
    Prop where
  models : drafts = plan.models.map fun planned => (planned.id, .ok planned.proposed)
  nodup : (plan.models.map PlannedModel.id).Nodup
  partition : plan.strata.flatten.Perm plan.models
  inOrder : ∀ stratum ∈ plan.strata, stratum ≠ [] ∧ stratum.Sublist plan.models
  earlier : ∀ before stratum later, plan.strata = before ++ stratum :: later →
    ∀ planned ∈ stratum, ∀ id, BatchEdge rules drafts planned.id id →
      id ∈ before.flatten.map PlannedModel.id

theorem bind_eq_error_iff {α : Type} {first : Except ε α} {rest : α → Except ε β} {error : ε} :
    first >>= rest = .error error ↔
      first = .error error ∨ ∃ v, first = .ok v ∧ rest v = .error error := by
  cases first with
  | ok v => simp [bind, Except.bind]
  | error error => simp [bind, Except.bind]

theorem exists_error_of_mapM {ε β : Type} {f : α → Except ε β} {items : List α} {error : ε}
    (he : items.mapM f = .error error) : ∃ item ∈ items, f item = .error error := by
  induction items with
  | nil => cases he
  | cons item rest ih =>
    rw [List.mapM_cons, bind_eq_error_iff] at he
    rcases he with hi | ⟨_, _, ht⟩
    · exact ⟨item, .head _, hi⟩
    · rcases bind_eq_error_iff.mp ht with ht | ⟨_, _, hd⟩
      · obtain ⟨other, hm, ho⟩ := ih ht
        exact ⟨other, List.mem_cons_of_mem _ hm, ho⟩
      · cases hd

def Depends (models : List PlannedModel) (a b : Nat) : Prop :=
  ∃ planned ∈ models, planned.id = a ∧ b ∈ planned.dependsOn

/-- A round that takes nothing out leaves a cycle behind. -/
theorem topologicalStrata_eq_error {rounds : Nat} {k : List PlannedModel}
    {emitted : List Nat} {error : ModelError}
    (hc : ∀ planned ∈ k, ∀ id ∈ planned.dependsOn, id ∈ emitted ∨ id ∈ k.map PlannedModel.id)
    (her : topologicalStrata rounds k emitted = .error error) :
    ¬ Acyclic (Depends k) := by
  induction rounds generalizing k emitted with
  | zero => cases her
  | succ rounds ih =>
    rw [topologicalStrata] at her
    split at her
    · cases her
    · next hn =>
      dsimp only at her
      split at her
      · next hs =>
        refine Graph.not_acyclic_of_stuck (show k.map PlannedModel.id ≠ [] from ?_) ?_
        · simpa using hn
        · intro a ha
          obtain ⟨planned, hm, rfl⟩ := List.mem_map.mp ha
          simp only [List.isEmpty_iff, List.filter_eq_nil_iff, List.all_eq_true,
            decide_eq_true_eq, not_forall] at hs
          obtain ⟨id, hi, hlt⟩ := hs planned hm
          exact ⟨id, (hc planned hm id hi).resolve_left hlt, planned, hm, rfl, hi⟩
      · rcases bind_eq_error_iff.mp her with hl | ⟨_, _, hd⟩
        · refine fun hac => ih (fun planned hm id hi => ?_) hl
            (hac.mono fun a b ⟨planned, hm, he⟩ =>
              ⟨planned, (List.mem_filter.mp hm).1, he⟩)
          rcases hc planned (List.mem_filter.mp hm).1 id hi with hother | hin
          · exact .inl (List.mem_append_left _ hother)
          · obtain ⟨other, ho, rfl⟩ := List.mem_map.mp hin
            cases ht : other.dependsOn.all (· ∈ emitted) with
            | true =>
              exact .inl (List.mem_append_right _
                (List.mem_map_of_mem (List.mem_filter.mpr ⟨ho, ht⟩)))
            | false =>
              exact .inr (List.mem_map_of_mem (List.mem_filter.mpr ⟨ho, by simp [ht]⟩))
        · cases hd

theorem topologicalStrata_inOrder (ho : topologicalStrata rounds remaining emitted = .ok strata) :
    ∀ stratum ∈ strata, stratum ≠ [] ∧ stratum.Sublist remaining := by
  induction rounds generalizing remaining emitted strata with
  | zero => cases ho; simp
  | succ rounds ih =>
    rw [topologicalStrata] at ho
    split at ho
    · cases ho; simp
    · dsimp only at ho
      split at ho
      · cases ho
      · next hr =>
        obtain ⟨u, hl, hd⟩ := bind_eq_ok_iff.mp ho
        cases hd
        refine List.forall_mem_cons.mpr ⟨⟨?_, List.filter_sublist⟩, fun stratum hm => ?_⟩
        · simpa using hr
        · exact (ih hl stratum hm).imp_right fun h => h.trans List.filter_sublist

theorem Layered.earlier (hl : Layered emitted strata)
    (hs : strata = before ++ stratum :: u) : ∀ planned ∈ stratum, ∀ id ∈ planned.dependsOn,
      id ∈ emitted ++ before.flatten.map PlannedModel.id := by
  induction before generalizing emitted strata with
  | nil =>
    subst hs
    intro planned hm id hi
    simpa using hl.1 planned hm id hi
  | cons first before ih =>
    subst hs
    intro planned hm id hi
    have ht := ih hl.2 rfl planned hm id hi
    simpa [List.append_assoc] using ht

/-- Walks along the dependencies of a stratum go through the strata before it. -/
theorem Layered.acc {edge : Nat → Nat → Prop}
    {strata : List (List PlannedModel)} (hly : Layered emitted strata)
    (hem : ∀ id ∈ emitted, Acc (fun b a => edge a b) id)
    (he : ∀ planned ∈ strata.flatten, ∀ id, edge planned.id id → id ∈ planned.dependsOn) :
    ∀ planned ∈ strata.flatten, Acc (fun b a => edge a b) planned.id := by
  induction strata generalizing emitted with
  | nil => simp
  | cons stratum u ih =>
    have h1 : ∀ planned ∈ stratum, Acc (fun b a => edge a b) planned.id := by
      intro planned hm
      refine ⟨_, fun id hi => hem id (hly.1 planned hm id ?_)⟩
      exact he planned (List.mem_append_left _ hm) id hi
    intro planned hm
    rcases List.mem_append.mp hm with hh | hl
    · exact h1 planned hh
    · refine ih hly.2 (fun id hi => ?_) (fun p hp => he p (List.mem_append_right _ hp)) planned hl
      rcases List.mem_append.mp hi with ho | hn
      · exact hem id ho
      · obtain ⟨p, hp, rfl⟩ := List.mem_map.mp hn
        exact h1 p hp

variable {drafts : List Constructed}

theorem prepared_eq_ok (ho : (drafts.mapM fun (modelId, constructed) => do
      let proposed ← constructed
      return (modelId, proposed)) = Except.ok (ε := ModelError) prepared) :
    drafts = prepared.map fun e => (e.1, .ok e.2) := by
  rw [mapM_eq_ok_iff] at ho
  induction ho with
  | nil => rfl
  | cons h1 _ ih =>
    obtain ⟨proposed, hc, hd⟩ := bind_eq_ok_iff.mp h1
    cases hd
    rw [List.map_cons, ← ih, ← hc]

theorem eq_map_of_drafts {proposed : List (Nat × ModelCreate)} {models : List PlannedModel}
    (ha : List.Forall₂ (fun e planned => planned.id = e.1 ∧ planned.proposed = e.2)
      proposed models) : proposed = models.map fun planned => (planned.id, planned.proposed) := by
  induction ha with
  | nil => rfl
  | cons h1 _ ih => rw [List.map_cons, ← ih, h1.1, h1.2]

theorem not_refused_of_ok {plan : ModelBatchPlan} (hok : planConstructed rules drafts = .ok plan) :
    Stratified rules drafts plan ∧ ¬ Refused rules drafts := by
  obtain ⟨prepared, hpr, ha⟩ := bind_eq_ok_iff.mp hok
  obtain rfl := prepared_eq_ok hpr
  obtain ⟨hnd, hdr, hdp, hst⟩ := planAssigned_steps ha
  obtain rfl := eq_map_of_drafts hdr
  obtain ⟨hpe, hl⟩ := topologicalStrata_eq_ok le_rfl hst
  simp only [List.map_map, Function.comp_def] at hnd hdp hok ⊢
  have hmn : ∀ {planned : PlannedModel} {proposed : ModelCreate}, planned ∈ plan.models →
      (planned.id, .ok proposed) ∈ plan.models.map (fun planned =>
        (planned.id, Except.ok (ε := ModelError) planned.proposed)) →
      planned.proposed = proposed := by
    intro planned proposed hpl hm
    obtain ⟨other, ho, heq⟩ := List.mem_map.mp hm
    cases List.inj_on_of_nodup_map hnd ho hpl (congrArg Prod.fst heq)
    cases heq
    rfl
  have he : ∀ planned ∈ plan.models, ∀ id, BatchEdge rules (plan.models.map fun planned =>
      (planned.id, .ok planned.proposed)) planned.id id → id ∈ planned.dependsOn := by
    rintro planned hpl id ⟨proposed, hd, ⟨refs, hr, hi⟩, hb⟩
    cases hmn hpl hd
    obtain ⟨_, hr', -, hde⟩ := intraBatchDependencies_ok_iff.mp (hdp planned hpl)
    cases hr.symm.trans hr'
    rw [← hde, mem_dependencies]
    exact ⟨hi, by simpa [Function.comp_def] using hb⟩
  have hin : ∀ planned, planned ∈ plan.strata.flatten ↔ planned ∈ plan.models := fun _ => hpe.mem_iff
  refine ⟨⟨rfl, hnd, hpe, topologicalStrata_inOrder hst, ?_⟩, fun hre => ?_⟩
  · intro before stratum u hsp planned hm id hi
    refine hl.earlier hsp planned hm id (he planned ?_ id hi)
    rw [← hin, hsp]
    simp [hm]
  · cases hre with
    | construction modelId error hd => simp at hd
    | duplicateIds hrp => exact hrp (by simpa [Function.comp_def] using hnd)
    | notUuid modelId proposed hd hrf =>
      obtain ⟨planned, hpl, heq⟩ := List.mem_map.mp hd
      cases heq
      obtain ⟨refs, hr, ⟨hn, -⟩, -⟩ := intraBatchDependencies_ok_iff.mp (hdp planned hpl)
      exact hn (hrf refs hr)
    | selfDependency modelId proposed hd hrf =>
      obtain ⟨planned, hpl, heq⟩ := List.mem_map.mp hd
      cases heq
      obtain ⟨refs, hr, ⟨-, hs⟩, -⟩ := intraBatchDependencies_ok_iff.mp (hdp planned hpl)
      obtain ⟨_, hr', hi⟩ := hrf
      cases hr.symm.trans hr'
      exact hs hi
    | cycle hc =>
      refine hc (Graph.acyclic_of_acc ?_)
      rintro a b ⟨proposed, hd, -⟩
      obtain ⟨planned, hpl, heq⟩ := List.mem_map.mp hd
      cases heq
      exact hl.acc (by simp) (fun p hp => he p ((hin p).mp hp)) planned ((hin planned).mpr hpl)

theorem refused_of_error {error : ModelError}
    (her : planConstructed rules drafts = .error error) : Refused rules drafts := by
  rcases bind_eq_error_iff.mp her with hp | ⟨prepared, hp, ha⟩
  · obtain ⟨⟨modelId, constructed⟩, hm, hdr⟩ := exists_error_of_mapM hp
    rcases bind_eq_error_iff.mp hdr with rfl | ⟨_, _, hd⟩
    · exact .construction modelId error hm
    · cases hd
  obtain rfl := prepared_eq_ok hp
  have hi : (prepared.map fun e =>
      (e.1, Except.ok (ε := ModelError) e.2)).map Prod.fst = prepared.map Prod.fst := by
    simp
  rcases bind_eq_error_iff.mp ha with hrf | ⟨_, -, ha⟩
  · refine .duplicateIds fun hnd => ?_
    rw [planAssigned.refuse, if_pos (duplicateIds_eq_nil.mpr ⟨hi ▸ hnd, by simp⟩)] at hrf
    cases hrf
  rcases bind_eq_error_iff.mp ha with hpl | ⟨planned, hpl, ha⟩
  · obtain ⟨⟨⟨modelId, proposed⟩, index⟩, hm, he⟩ := exists_error_of_mapM hpl
    have hdr : (modelId, Except.ok (ε := ModelError) proposed) ∈ prepared.map fun e =>
        (e.1, Except.ok (ε := ModelError) e.2) :=
      List.mem_map_of_mem (f := fun e => (e.1, Except.ok e.2)) (List.fst_mem_of_mem_zipIdx hm)
    by_cases hu : RefersToNoUuid rules proposed
    · exact .notUuid modelId proposed hdr hu
    · simp only [RefersToNoUuid, not_forall] at hu
      obtain ⟨refs, hr, hn⟩ := hu
      by_cases hs : some modelId ∈ refs
      · exact .selfDependency modelId proposed hdr ⟨refs, hr, hs⟩
      · have ho : intraBatchDependencies rules proposed modelId (prepared.map Prod.fst) = .ok _ :=
          intraBatchDependencies_ok_iff.mpr ⟨refs, hr, ⟨hn, hs⟩, rfl⟩
        simp [ho, bind, Except.bind, pure, Except.pure] at he
  · rcases bind_eq_error_iff.mp ha with hst | ⟨_, _, hd⟩
    · obtain ⟨hdrf, hdp⟩ := planned_spec hpl
      obtain rfl := eq_map_of_drafts hdrf
      simp only [List.map_map, Function.comp_def] at hdp ⊢
      have hsp := fun e hm => intraBatchDependencies_ok_iff.mp (hdp e hm)
      refine .cycle fun hac => topologicalStrata_eq_error (fun e hm id hid => ?_) hst (hac.mono ?_)
      · obtain ⟨refs, -, -, hde⟩ := hsp e hm
        rw [← hde, mem_dependencies] at hid
        exact .inr hid.2
      · rintro a b ⟨e, hm, rfl, hid⟩
        obtain ⟨refs, hr, -, hde⟩ := hsp e hm
        rw [← hde, mem_dependencies] at hid
        refine ⟨e.proposed, List.mem_map_of_mem (f := fun planned : PlannedModel =>
          (planned.id, Except.ok planned.proposed)) hm, ⟨refs, hr, hid.1⟩, ?_⟩
        simpa [Function.comp_def] using hid.2
    · cases hd

theorem batch_stratified_or_refused (rules : InsertRules)
    (construct : ModelCreate → Except ModelError ModelCreate) (uuid7 : Nat → Nat)
    (proposed : List ModelCreate) :
    ((∃ error, planConstructed rules (constructAll construct uuid7 proposed) = .error error) ↔
        Refused rules (constructAll construct uuid7 proposed)) ∧
      ∀ plan, planConstructed rules (constructAll construct uuid7 proposed) = .ok plan →
        Stratified rules (constructAll construct uuid7 proposed) plan := by
  refine ⟨⟨fun ⟨_, herror⟩ => refused_of_error herror, fun hrefused => ?_⟩,
    fun plan hok => (not_refused_of_ok hok).1⟩
  cases hplan : planConstructed rules (constructAll construct uuid7 proposed) with
  | ok plan => exact absurd hrefused (not_refused_of_ok hplan).2
  | error error => exact ⟨error, rfl⟩

end FyralisCore.Models
