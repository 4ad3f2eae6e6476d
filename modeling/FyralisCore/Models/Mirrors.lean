import FyralisCore.Models.EdgeCalls

/-! The two rows of a symmetric kind. Every call treats a row and its mirror
alike: a link merges the same values into both, and the conditions of the
deletions and updates do not tell them apart. -/
namespace FyralisCore.Models

open Relational Transaction Transition Table RegistryKind

/-- The rows agree on what a link merges and the lifecycle changes; evidence is
compared as a set. -/
structure RowsAgree (row mirror : EdgeRow) : Prop where
  weight : row.weight = mirror.weight
  status : row.status = mirror.status
  reviewStatus : row.reviewStatus = mirror.reviewStatus
  confidence : row.confidence = mirror.confidence
  confirmedCount : row.confirmedCount = mirror.confirmedCount
  evidenceEvents : ∀ event, event ∈ row.evidenceEventIds ↔ event ∈ mirror.evidenceEventIds
  evidenceModels : ∀ model, model ∈ row.evidenceModelIds ↔ model ∈ mirror.evidenceModelIds

def IsSymmetric (db : ModelDb) (tenantId : Nat) (kind : EdgeKind) : Prop :=
  ∃ spec, resolveEdgeKindSpec db tenantId kind = .ok spec ∧ spec.isDirected = false

/-- A symmetric kind has both rows of a pair, in agreement, or neither. -/
def Mirrored (db : ModelDb) : Prop :=
  ∀ key : EdgeKey, IsSymmetric db key.tenantId key.kind →
    Option.Rel RowsAgree (db.edges.get key) (db.edges.get key.mirror)

variable {db after : ModelDb}

variable {row mirror : EdgeRow}

theorem RowsAgree.confirm (hr : RowsAgree row mirror)
    (hex : RowsAgree excluded mirrorExcluded) (now : Nat) :
    RowsAgree (row.confirm excluded now) (mirror.confirm mirrorExcluded now) where
  weight := by simp [EdgeRow.confirm, hr.weight, hex.weight]
  status := hr.status
  reviewStatus := by simp [EdgeRow.confirm, hr.reviewStatus, hex.reviewStatus]
  confidence := by simp [EdgeRow.confirm, hr.confidence, hex.confidence]
  confirmedCount := by simp [EdgeRow.confirm, hr.confirmedCount]
  evidenceEvents event := by
    simp [EdgeRow.confirm, List.mem_eraseDups, List.mem_append, hr.evidenceEvents,
      hex.evidenceEvents]
  evidenceModels model := by
    simp [EdgeRow.confirm, List.mem_eraseDups, List.mem_append, hr.evidenceModels,
      hex.evidenceModels]

theorem linkedRow_agree (hr : Option.Rel RowsAgree existing existingMirror)
    (hex : RowsAgree excluded mirrorExcluded) (now : Nat) :
    RowsAgree (linkedRow existing now excluded) (linkedRow existingMirror now mirrorExcluded) := by
  cases hr with
  | some ha => exact ha.confirm hex now
  | none => exact hex

theorem mirrored_updateEdges {change : EdgeRow → EdgeRow} (hm : Mirrored db)
    (hc : ∀ key row mirror, IsSymmetric db key.tenantId key.kind →
      RowsAgree row mirror → condition key row = condition key.mirror mirror)
    (hch : ∀ row mirror, RowsAgree row mirror → RowsAgree (change row) (change mirror)) :
    Mirrored (db.updateEdges condition change) := by
  intro key hs
  have hb := hm key hs
  unfold ModelDb.updateEdges
  rw [get_updateWhere, get_updateWhere]
  generalize db.edges.get key = found, db.edges.get key.mirror = foundMirror at hb
  cases hb with
  | none => exact .none
  | some ha =>
    refine .some ?_
    unfold Table.changed
    rw [hc key _ _ hs ha]
    split
    · exact hch _ _ ha
    · exact ha

theorem mirrored_deleteEdges {condition : EdgeKey → Bool} (hm : Mirrored db)
    (hc : ∀ key, IsSymmetric db key.tenantId key.kind → condition key = condition key.mirror) :
    Mirrored (db.deleteEdges fun key _ => condition key) := by
  intro key hs
  have hb := hm key hs
  unfold ModelDb.deleteEdges
  rw [get_deleteWhere, get_deleteWhere, hc key hs]
  generalize db.edges.get key = found, db.edges.get key.mirror = foundMirror at hb
  cases hb with
  | none => exact .none
  | some ha =>
    cases condition key.mirror with
    | true => exact .none
    | false => exact .some ha

theorem betweenPair_mirror (hr : resolveEdgeKindSpec db pair.tenantId pair.kind = .ok spec)
    (hsy : IsSymmetric db key.tenantId key.kind) :
    betweenPair spec pair key = betweenPair spec pair key.mirror := by
  obtain ⟨keySpec, hk, hd⟩ := hsy
  rw [Bool.eq_iff_iff, betweenPair_iff, betweenPair_iff]
  constructor
  · rintro (rfl | ⟨hs, rfl⟩)
    · obtain rfl := Except.ok.inj (hk.symm.trans hr)
      exact .inr ⟨hd, rfl⟩
    · exact .inl rfl
  · rintro (he | ⟨hs, he⟩)
    · obtain rfl : pair.mirror = key := by rw [← he, mirror_mirror]
      obtain rfl := Except.ok.inj (hk.symm.trans hr)
      exact .inr ⟨hd, rfl⟩
    · exact .inl (congrArg EdgeKey.mirror he)

theorem mirrored_linkedDb (hm : Mirrored db) (hp : LinkPasses db a spec reviewStatus detectedBy) :
    Mirrored (linkedDb db now spec a.key (a.excluded detectedBy reviewStatus now) n) := by
  intro key hsym
  have hsy : IsSymmetric db key.tenantId key.kind := by
    obtain ⟨keySpec, hk, hd⟩ := hsym
    exact ⟨keySpec, by rwa [resolveEdgeKindSpec_congr key.tenantId key.kind
      (linkedDb_proposals db now spec a.key _ n)] at hk, hd⟩
  have hs : a.key.source ≠ a.key.target := hp.notSelf
  have hb : betweenPair spec a.key key = betweenPair spec a.key key.mirror :=
    betweenPair_mirror hp.resolved hsy
  rw [get_linkedDb _ _ _ _ _ hs, get_linkedDb _ _ _ _ _ hs, ← hb]
  split
  · refine .some (linkedRow_agree (hm key hsy) ?_ now)
    exact ⟨rfl, rfl, rfl, rfl, rfl, fun _ => Iff.rfl, fun _ => Iff.rfl⟩
  · exact hm key hsy

theorem touchesModel_mirror (ha : RowsAgree row mirror) :
    touchesModel modelId tenantId key row = touchesModel modelId tenantId key.mirror mirror := by
  simp [touchesModel, EdgeKey.mirror, ha.status, or_comm]

theorem mirrored_step {call : EdgeCall} (hm : Mirrored db)
    (he : EdgeEffect db call after) : Mirrored after := by
  cases he with
  | link hp => exact mirrored_linkedDb hm hp
  | unlink hr =>
    exact mirrored_deleteEdges hm fun key hs =>
      betweenPair_mirror hr hs
  | retire hr =>
    refine mirrored_updateEdges hm (fun key row mirror hs ha => ?_)
      fun row mirror ha => { ha with status := rfl, reviewStatus := rfl }
    rw [activeBetweenPair, activeBetweenPair, ha.status, betweenPair_mirror hr hs]
  | markInert =>
    exact mirrored_updateEdges hm (fun key row mirror _ ha => touchesModel_mirror ha)
      fun row mirror ha => { ha with status := rfl }

theorem mirrored_of_empty (he : db.edges = ∅) : Mirrored db := by
  intro key _
  rw [he, get_empty, get_empty]
  exact .none

/-- From an empty table every call sequence keeps the two rows of a symmetric
kind together and in agreement. -/
theorem mirror_agrees {start db : Database ModelDb} (hempty : start.state.edges = ∅)
    (hreach : Reach edgeStep anyStep start db) {key : EdgeKey} {row : EdgeRow}
    (hsymmetric : IsSymmetric db.state key.tenantId key.kind)
    (hrow : db.state.edges.get key = some row) :
    ∃ mirror, db.state.edges.get key.mirror = some mirror ∧ RowsAgree row mirror := by
  have hmirrored : Mirrored db.state :=
    Database.invariant_of_returns hreach (mirrored_of_empty hempty)
      fun _ _ _ _ _ hbefore _ hreturns => mirrored_step hbefore (EdgeCall.effect hreturns)
  have hrel := hmirrored key hsymmetric
  rw [hrow] at hrel
  generalize hmirror : db.state.edges.get key.mirror = found at hrel
  cases hrel with
  | some hagree => exact ⟨_, rfl, hagree⟩

theorem mirror_agrees_contradicts : ∃ mirror, (Database.run ModelDb.apply (EdgeCall.run (.link 0
        { source := 1, target := 2, kind := contradicts, tenantId := 0,
          detectedBy := "manual", weight := some 1 })) ⟨{}, 0⟩).state.edges.get
        ⟨0, 2, 1, contradicts⟩ = some mirror ∧ mirror.weight = some 1 := by
  have hreach : Reach edgeStep anyStep ⟨{}, 0⟩ (Database.run ModelDb.apply (EdgeCall.run (.link 0
      { source := 1, target := 2, kind := contradicts, tenantId := 0,
        detectedBy := "manual", weight := some 1 })) ⟨{}, 0⟩) := Reach.start.next trivial rfl
  have hrow : ∃ row, (Database.run ModelDb.apply (EdgeCall.run (.link 0
      { source := 1, target := 2, kind := contradicts, tenantId := 0,
        detectedBy := "manual", weight := some 1 })) ⟨{}, 0⟩).state.edges.get
      ⟨0, 1, 2, contradicts⟩ = some row ∧ row.weight = some 1 := ⟨_, rfl, rfl⟩
  obtain ⟨row, hrow, hweight⟩ := hrow
  obtain ⟨mirror, hmirror, hagree⟩ :=
    mirror_agrees rfl hreach ⟨_, resolveEdgeKindSpec_registry _ _ _, rfl⟩ hrow
  exact ⟨mirror, hmirror, hagree.weight.symm.trans hweight⟩

end FyralisCore.Models
