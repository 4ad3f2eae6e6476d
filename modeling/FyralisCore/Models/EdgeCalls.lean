import FyralisCore.Models.EdgesRepo

/-! The calls of the edge repository, run one after another, and what each of
them does to the edges when it returns. -/
namespace FyralisCore.Models

open Relational Transaction Tx ModelDb

inductive EdgeCall where
  | link (now : Nat) (args : EdgeLink)
  | unlink (source target : Nat) (kind : EdgeKind) (tenantId : Nat)
  | retire (now source target : Nat) (kind : EdgeKind) (tenantId : Nat) (reason : String)
  | markInert (now modelId tenantId : Nat) (reason : String)

def EdgeCall.run : EdgeCall → ModelTx Unit
  | .link now args => (Models.link now args).bind fun _ => .done ()
  | .unlink source target kind tenantId =>
    (Models.unlink source target kind tenantId).bind fun _ => .done ()
  | .retire now source target kind tenantId reason =>
    (Models.retire now source target kind tenantId reason).bind fun _ => .done ()
  | .markInert now modelId tenantId reason =>
    (Models.markInert now modelId tenantId reason).bind fun _ => .done ()

/-- The edge repository as a transition system, one transaction a call. -/
def edgeStep : Database ModelDb → EdgeCall → Option (Database ModelDb) :=
  Database.step apply EdgeCall.run

variable {db after : ModelDb} {supply left : Nat}

@[simp] theorem resolveEdgeKindSpec_registry (db : ModelDb) (tenantId : Nat) (kind : RegistryKind) :
    resolveEdgeKindSpec db tenantId kind = .ok (edgeRegistry kind) := by
  simp [resolveEdgeKindSpec, assertWritable, edgeRegistry_enabled]

theorem resolveEdgeKindSpec_congr (tenantId : Nat) (kind : EdgeKind)
    (hp : after.proposals = db.proposals) :
    resolveEdgeKindSpec after tenantId kind = resolveEdgeKindSpec db tenantId kind := by
  simp [resolveEdgeKindSpec, loadAcceptedProposal, hp]

variable {α : Type} {spec : EdgeKindSpec} {kind : EdgeKind} {source target tenantId now : Nat}
  {r : Unit} {key : EdgeKey} {call : EdgeCall} {row : EdgeRow}

@[simp] theorem returns_ask : Tx.Returns apply (ask answer) db supply v after left ↔
      answer db = .ok v ∧ db = after ∧ supply = left := by
  unfold ask
  rw [returns_query]
  cases answer db with
  | error error => simp [Except.map]
  | ok found => simp [Except.map, eq_comm]

@[simp] theorem returns_execute :
    Tx.Returns apply (execute answer) db supply v after left ↔
      ∃ w, answer db = .ok (w, v) ∧ after = w db ∧ supply = left := by
  unfold execute
  rw [returns_query]
  cases answer db with
  | error error => simp [Except.map]
  | ok found => simp [Except.map, apply, Prod.ext_iff, and_assoc]

theorem returns_checkMutualExclusion :
    Tx.Returns apply (checkMutualExclusion spec kind source target tenantId) db supply
        r after left ↔
      excludedKind db spec tenantId source target = none ∧ db = after ∧ supply = left := by
  unfold checkMutualExclusion
  rw [returns_require, Option.map_eq_none_iff]

theorem returns_when_checkMutualExclusion : Tx.Returns apply
        (Tx.when condition (checkMutualExclusion spec kind source target tenantId)) db supply
        r after left ↔
      (condition → excludedKind db spec tenantId source target = none) ∧
        db = after ∧ supply = left := by
  rw [returns_when, returns_checkMutualExclusion]
  cases condition <;> simp

theorem returns_checkNoCycle :
    Tx.Returns apply (checkNoCycle kind source targets tenantId cycleScope) db supply
        r after left ↔ (∀ scope, cycleScope = some scope →
        cycleError db kind source targets tenantId scope = none) ∧ db = after ∧ supply = left := by
  cases cycleScope with
  | none => simp [checkNoCycle]
  | some scope => simp [checkNoCycle, returns_require]

theorem returns_insertOne {excluded : Nat → EdgeRow} {id : Nat} :
    Tx.Returns apply (insertOne now key excluded) db supply id after left ↔
      id = (upsertedRow db key (excluded supply) now).id ∧
        after = upsertEdge db key (excluded supply) now ∧ left = supply + 1 := by
  unfold insertOne
  rw [bind_eq_bind, returns_newId_bind, returns_execute]
  simp only [Except.ok.injEq, Prod.mk.injEq]
  grind

structure LinkPasses (db : ModelDb) (args : EdgeLink) (spec : EdgeKindSpec)
    (reviewStatus : ReviewStatus) (detectedBy : EdgeDetectedBy) : Prop where
  resolved : resolveEdgeKindSpec db args.tenantId args.kind = .ok spec
  weight : validateWeightForSpec spec args.weight = .ok ()
  confidence : 0 ≤ args.confidence ∧ args.confidence ≤ 1
  reviewStatus : ReviewStatus.ofText args.reviewStatus = some reviewStatus
  detectedBy : EdgeDetectedBy.ofText args.detectedBy = some detectedBy
  notSelf : args.source ≠ args.target
  notExcluded : excludedKind db spec args.tenantId args.source args.target = none
  mirrorNotExcluded : spec.isDirected = false →
    excludedKind db spec args.tenantId args.target args.source = none
  noCycle : ∀ scope, spec.cycleScope = some scope →
    cycleError db args.kind args.source [args.target] args.tenantId scope = none

theorem validateConfidence_eq_ok_iff (confidence : Rat) :
    validateConfidence confidence = .ok () ↔ 0 ≤ confidence ∧ confidence ≤ 1 := by
  unfold validateConfidence
  split <;> simp_all

theorem returns_linkChecks :
    Tx.Returns apply (linkChecks a) db supply (spec, reviewStatus, detectedBy) after
        left ↔ LinkPasses db a spec reviewStatus detectedBy ∧ db = after ∧ supply = left := by
  unfold linkChecks
  simp only [bind_eq_bind, pure_eq_done]
  constructor
  · intro hrt
    obtain ⟨_, _, _, ha, hrt⟩ := hrt.parts
    obtain ⟨hrs, rfl, rfl⟩ := returns_ask.mp ha
    obtain ⟨_, _, _, hch, hrt⟩ := hrt.parts
    obtain ⟨hw, rfl, rfl⟩ := returns_ofExcept.mp hch
    obtain ⟨_, _, _, hch, hrt⟩ := hrt.parts
    obtain ⟨hcn, rfl, rfl⟩ := returns_ofExcept.mp hch
    obtain ⟨_, _, _, hpr, hrt⟩ := hrt.parts
    obtain ⟨hr, rfl, rfl⟩ := returns_orRaise.mp hpr
    obtain ⟨_, _, _, hpr, hrt⟩ := hrt.parts
    obtain ⟨hd, rfl, rfl⟩ := returns_orRaise.mp hpr
    obtain ⟨_, _, _, hch, hrt⟩ := hrt.parts
    obtain ⟨hs, rfl, rfl⟩ := returns_ensure.mp hch
    obtain ⟨_, _, _, hch, hrt⟩ := hrt.parts
    obtain ⟨hex, rfl, rfl⟩ := returns_checkMutualExclusion.mp hch
    obtain ⟨_, _, _, hch, hrt⟩ := hrt.parts
    obtain ⟨hm, rfl, rfl⟩ := returns_when_checkMutualExclusion.mp hch
    obtain ⟨_, _, _, hch, hrt⟩ := hrt.parts
    obtain ⟨hc, rfl, rfl⟩ := returns_checkNoCycle.mp hch
    obtain ⟨he, rfl, rfl⟩ := hrt.ended
    cases he
    exact ⟨⟨hrs, hw, (validateConfidence_eq_ok_iff _).mp hcn, hr,
      hd, by simpa using hs, hex, by simpa using hm, hc⟩, rfl, rfl⟩
  · rintro ⟨hp, rfl, rfl⟩
    simp only [returns_bind, returns_ask, returns_ofExcept, returns_orRaise,
      returns_ensure, returns_checkMutualExclusion, returns_checkNoCycle,
      returns_when_checkMutualExclusion, returns_done]
    exact ⟨spec, _, _, ⟨hp.resolved, rfl, rfl⟩, (), _, _, ⟨hp.weight, rfl, rfl⟩,
      (), _, _, ⟨(validateConfidence_eq_ok_iff _).mpr hp.confidence, rfl, rfl⟩,
      reviewStatus, _, _, ⟨hp.reviewStatus, rfl, rfl⟩, detectedBy, _, _, ⟨hp.detectedBy, rfl, rfl⟩,
      (), _, _, ⟨by simpa using hp.notSelf, rfl, rfl⟩, (), _, _, ⟨hp.notExcluded, rfl, rfl⟩,
      (), _, _, ⟨by simpa using hp.mirrorNotExcluded, rfl, rfl⟩,
      (), _, _, ⟨hp.noCycle, rfl, rfl⟩, rfl, rfl, rfl⟩

def linkedDb (db : ModelDb) (now : Nat) (spec : EdgeKindSpec) (key : EdgeKey)
    (excluded : Nat → EdgeRow) (supply : Nat) : ModelDb :=
  if spec.isDirected then upsertEdge db key (excluded supply) now
  else upsertEdge (upsertEdge db key (excluded supply) now) key.mirror (excluded (supply + 1)) now

theorem linkRows_returns (db : ModelDb) (supply now : Nat) (spec : EdgeKindSpec)
    (key : EdgeKey) (excluded : Nat → EdgeRow) :
    ∃ ids left, Tx.Returns apply (linkRows now spec key excluded) db supply ids
      (linkedDb db now spec key excluded supply) left := by
  unfold linkRows linkedDb
  simp only [bind_eq_bind, returns_bind, returns_insertOne]
  cases spec.isDirected with
  | true => exact ⟨_, _, _, _, _, ⟨rfl, rfl, rfl⟩, returns_done.mpr ⟨rfl, rfl, rfl⟩⟩
  | false =>
    refine ⟨_, _, _, _, _, ⟨rfl, rfl, rfl⟩, returns_bind.mpr
      ⟨_, _, _, returns_insertOne.mpr ⟨rfl, rfl, rfl⟩, returns_done.mpr ⟨rfl, rfl, rfl⟩⟩⟩

theorem returns_link_iff : (∃ ids left, Tx.Returns apply (link now a) db supply ids after left) ↔
      ∃ spec reviewStatus detectedBy, LinkPasses db a spec reviewStatus detectedBy ∧
        after = linkedDb db now spec a.key (a.excluded detectedBy reviewStatus now)
          supply := by
  unfold link
  simp only [bind_eq_bind, returns_bind, Prod.exists, returns_linkChecks]
  constructor
  · rintro ⟨ids, left, spec, reviewStatus, detectedBy, _, _, ⟨hp, rfl, rfl⟩, hrs⟩
    obtain ⟨_, _, hr⟩ := linkRows_returns db supply now spec a.key
      (a.excluded detectedBy reviewStatus now)
    exact ⟨spec, reviewStatus, detectedBy, hp, (hrs.unique hr).2.1⟩
  · rintro ⟨spec, reviewStatus, detectedBy, hp, rfl⟩
    obtain ⟨ids, left, hr⟩ := linkRows_returns db supply now spec a.key
      (a.excluded detectedBy reviewStatus now)
    exact ⟨ids, left, spec, reviewStatus, detectedBy, _, _, ⟨hp, rfl, rfl⟩, hr⟩

theorem mirror_mirror (key : EdgeKey) : key.mirror.mirror = key := rfl

theorem mirror_ne (hs : key.source ≠ key.target) : key.mirror ≠ key :=
  fun he => hs (congrArg EdgeKey.target he)

theorem betweenPair_iff (spec : EdgeKindSpec) (pair key : EdgeKey) : betweenPair spec pair key ↔
      key = pair ∨ (spec.isDirected = false ∧ key = pair.mirror) := by
  simp [betweenPair]

def linkedRow (existing : Option EdgeRow) (now : Nat) (excluded : EdgeRow) : EdgeRow :=
  match existing with
  | some row => row.confirm excluded now
  | none => excluded

section

variable (db)

theorem get_upsertEdge (key other : EdgeKey) (excluded : EdgeRow) (now : Nat) :
    (upsertEdge db key excluded now).edges.get other =
      if other = key then some (linkedRow (db.edges.get other) now excluded)
      else db.edges.get other := by
  unfold upsertEdge upsertedRow linkedRow
  rw [Table.get_put]
  split
  · next he =>
    subst he
    rfl
  · rfl

theorem get_linkedDb (now : Nat) (spec : EdgeKindSpec)
    (excluded : Nat → EdgeRow) (supply : Nat) (hs : pair.source ≠ pair.target) (key : EdgeKey) :
    (linkedDb db now spec pair excluded supply).edges.get key =
      if betweenPair spec pair key then
        some (linkedRow (db.edges.get key) now
          (excluded (if key = pair then supply else supply + 1)))
      else db.edges.get key := by
  unfold linkedDb betweenPair
  have hn : pair.mirror ≠ pair := mirror_ne hs
  cases spec.isDirected with
  | true =>
    rw [if_pos rfl, get_upsertEdge]
    by_cases he : key = pair
    · simp [he]
    · simp [he]
  | false =>
    rw [if_neg Bool.false_ne_true, get_upsertEdge, get_upsertEdge]
    by_cases he : key = pair
    · simp [he, hn.symm]
    · simp [he]

theorem linkedDb_proposals (now : Nat) (spec : EdgeKindSpec) (key : EdgeKey) (excluded : Nat →
    EdgeRow) (supply : Nat) : (linkedDb db now spec key excluded supply).proposals =
    db.proposals := by
  unfold linkedDb
  split <;> rfl

end

theorem returns_unlink (hr : Tx.Returns apply (unlink source target kind tenantId) db supply count
      after left) : ∃ spec, resolveEdgeKindSpec db tenantId kind = .ok spec ∧
      after = db.deleteEdges fun key _ => betweenPair spec ⟨tenantId, source, target, kind⟩ key := by
  unfold unlink at hr
  simp only [bind_eq_bind, returns_bind, returns_ask, returns_execute] at hr
  obtain ⟨spec, _, _, ⟨hrs, rfl, rfl⟩, _, ha, rfl, -⟩ := hr
  cases ha
  exact ⟨spec, hrs, rfl⟩

theorem returns_retire (hr : Tx.Returns apply (retire now source target kind tenantId reason) db
      supply count after left) : ∃ spec, resolveEdgeKindSpec db tenantId kind = .ok spec ∧
      after = db.updateEdges (activeBetweenPair spec ⟨tenantId, source, target, kind⟩)
        (EdgeRow.retired now reason) := by
  unfold retire at hr
  simp only [bind_eq_bind, returns_bind, returns_ask, returns_execute] at hr
  obtain ⟨spec, _, _, ⟨hrs, rfl, rfl⟩, _, ha, rfl, -⟩ := hr
  cases ha
  exact ⟨spec, hrs, rfl⟩

theorem returns_markInert
    (hr : Tx.Returns apply (markInert now modelId tenantId reason) db supply rows after left) :
    after = db.updateEdges (touchesModel modelId tenantId) (EdgeRow.madeInert now reason) := by
  unfold markInert at hr
  rw [returns_execute] at hr
  obtain ⟨_, ha, rfl, -⟩ := hr
  cases ha
  rfl

/-- What a call that returns has done to the edges: a link, a deletion, or an
update that leaves its rows inert. -/
inductive EdgeEffect (db : ModelDb) : EdgeCall → ModelDb → Prop where
  | link {now : Nat} {args : EdgeLink} {spec : EdgeKindSpec} {reviewStatus : ReviewStatus}
    {detectedBy : EdgeDetectedBy} {supply : Nat}
    (hpasses : LinkPasses db args spec reviewStatus detectedBy) :
    EdgeEffect db (.link now args)
      (linkedDb db now spec args.key (args.excluded detectedBy reviewStatus now) supply)
  | unlink {source target tenantId : Nat} {kind : EdgeKind} {spec : EdgeKindSpec}
    (hresolved : resolveEdgeKindSpec db tenantId kind = .ok spec) :
    EdgeEffect db (.unlink source target kind tenantId)
      (db.deleteEdges fun key _ => betweenPair spec ⟨tenantId, source, target, kind⟩ key)
  | retire {now source target tenantId : Nat} {kind : EdgeKind} {reason : String}
    {spec : EdgeKindSpec} (hresolved : resolveEdgeKindSpec db tenantId kind = .ok spec) :
    EdgeEffect db (.retire now source target kind tenantId reason)
      (db.updateEdges (activeBetweenPair spec ⟨tenantId, source, target, kind⟩)
        (EdgeRow.retired now reason))
  | markInert {now modelId tenantId : Nat} {reason : String} :
    EdgeEffect db (.markInert now modelId tenantId reason)
      (db.updateEdges (touchesModel modelId tenantId) (EdgeRow.madeInert now reason))

theorem returns_ignore : Tx.Returns apply (body.bind fun _ => .done ()) db supply r after left ↔
      ∃ v, Tx.Returns apply body db supply v after left := by
  rw [returns_bind]
  constructor
  · rintro ⟨v, _, _, hb, hd⟩
    obtain ⟨-, rfl, rfl⟩ := hd.ended
    exact ⟨v, hb⟩
  · rintro ⟨v, hb⟩
    exact ⟨v, after, left, hb, returns_done.mpr ⟨rfl, rfl, rfl⟩⟩

theorem EdgeCall.effect (hrt : Tx.Returns apply call.run db supply r after left) :
    EdgeEffect db call after := by
  cases call with
  | link now a =>
    obtain ⟨ids, hl⟩ := returns_ignore.mp hrt
    obtain ⟨spec, reviewStatus, detectedBy, hp, rfl⟩ := returns_link_iff.mp ⟨ids, left, hl⟩
    exact .link hp
  | unlink source target kind tenantId =>
    obtain ⟨_, hu⟩ := returns_ignore.mp hrt
    obtain ⟨spec, hrs, rfl⟩ := returns_unlink hu
    exact .unlink hrs
  | retire now source target kind tenantId reason =>
    obtain ⟨_, hr⟩ := returns_ignore.mp hrt
    obtain ⟨spec, hrs, rfl⟩ := returns_retire hr
    exact .retire hrs
  | markInert now modelId tenantId reason =>
    obtain ⟨_, hm⟩ := returns_ignore.mp hrt
    obtain rfl := returns_markInert hm
    exact .markInert

/-! ### Which rows are active, and which are live -/

theorem isLive_iff (row : EdgeRow) :
    row.isLive ↔ row.status = .active ∧ row.reviewStatus ≠ .rejected := by
  simp [EdgeRow.isLive]

@[simp] theorem confirm_status (existing excluded : EdgeRow) (now : Nat) :
    (existing.confirm excluded now).status = existing.status := rfl

@[simp] theorem retired_status (now : Nat) (reason : String) (row : EdgeRow) :
    (row.retired now reason).status = .inert := rfl

@[simp] theorem madeInert_status (now : Nat) (reason : String) (row : EdgeRow) :
    (row.madeInert now reason).status = .inert := rfl

section

variable (a : EdgeLink) (detectedBy : EdgeDetectedBy) (reviewStatus : ReviewStatus) (now id : Nat)

@[simp] theorem excluded_status :
    (a.excluded detectedBy reviewStatus now id).status = .active := rfl

@[simp] theorem excluded_reviewStatus :
    (a.excluded detectedBy reviewStatus now id).reviewStatus = reviewStatus := rfl

end

theorem isLive_of_confirm {existing : EdgeRow}
    (hl : (existing.confirm excluded now).isLive) : existing.isLive := by
  obtain ⟨ha, hr⟩ := (isLive_iff _).mp hl
  refine (isLive_iff _).mpr ⟨ha, fun hrj => hr ?_⟩
  simp [EdgeRow.confirm, mergeReviewStatus, hrj]

def NotRevived (db : ModelDb) (key : EdgeKey) (row : EdgeRow) : Prop :=
  ∃ old, db.edges.get key = some old ∧ (row.status = .active → old.status = .active) ∧
    (row.isLive → old.isLive)

theorem notRevived_of_get (hg : db.edges.get key = some row) : NotRevived db key row :=
  ⟨row, hg, id, id⟩

theorem notRevived_of_updateEdges
    {change : EdgeRow → EdgeRow} (hi : ∀ row, (change row).status = .inert)
    (hg : (db.updateEdges condition change).edges.get key = some row) : NotRevived db key row := by
  unfold updateEdges at hg
  rw [Table.get_updateWhere, Option.map_eq_some_iff] at hg
  obtain ⟨old, ho, rfl⟩ := hg
  unfold Table.changed
  split
  · refine ⟨old, ho, fun ha => ?_, fun hl => ?_⟩
    · rw [hi] at ha
      cases ha
    · obtain ⟨ha, -⟩ := (isLive_iff _).mp hl
      rw [hi] at ha
      cases ha
  · exact notRevived_of_get ho

theorem notRevived_of_deleteEdges (hg : (db.deleteEdges condition).edges.get key = some row) :
    NotRevived db key row := by
  unfold deleteEdges at hg
  rw [Table.get_deleteWhere, Option.filter_eq_some_iff] at hg
  exact notRevived_of_get hg.1

structure NewRow (db : ModelDb) (now : Nat) (args : EdgeLink) (spec : EdgeKindSpec)
    (reviewStatus : ReviewStatus) (detectedBy : EdgeDetectedBy) (key : EdgeKey)
    (row : EdgeRow) : Prop where
  passes : LinkPasses db args spec reviewStatus detectedBy
  absent : db.edges.get key = none
  between : betweenPair spec args.key key
  row_eq : ∃ id, row = args.excluded detectedBy reviewStatus now id

theorem EdgeEffect.row_cases (he : EdgeEffect db call after) (hg : after.edges.get key = some row) :
    NotRevived db key row ∨ ∃ now a spec reviewStatus detectedBy, call = .link now a ∧
        NewRow db now a spec reviewStatus detectedBy key row := by
  cases he with
  | @link now a spec reviewStatus detectedBy supply hp =>
    rw [get_linkedDb _ _ _ _ _ hp.notSelf] at hg
    split at hg
    · next hb =>
      cases hg
      cases ho : db.edges.get key with
      | none =>
        exact .inr ⟨now, a, spec, reviewStatus, detectedBy, rfl, hp, ho, hb, _, rfl⟩
      | some old => exact .inl ⟨old, ho, id, isLive_of_confirm⟩
    · exact .inl (notRevived_of_get hg)
  | unlink hr => exact .inl (notRevived_of_deleteEdges hg)
  | retire hr =>
    exact .inl (notRevived_of_updateEdges (fun row => retired_status _ _ row) hg)
  | markInert => exact .inl (notRevived_of_updateEdges (fun row => madeInert_status _ _ row) hg)

/-- A later row of the same edge. -/
structure Accumulates (row later : EdgeRow) : Prop where
  id : later.id = row.id
  inert : row.status = .inert → later.status = .inert
  confirmed : row.confirmedCount ≤ later.confirmedCount
  events : row.evidenceEventIds ⊆ later.evidenceEventIds
  models : row.evidenceModelIds ⊆ later.evidenceModelIds

theorem Accumulates.refl (row : EdgeRow) : Accumulates row row :=
  ⟨rfl, fun h => h, Nat.le_refl _, fun _ h => h, fun _ h => h⟩

theorem Accumulates.trans (h1 : Accumulates row m) (h2 : Accumulates m later) :
    Accumulates row later :=
  ⟨h2.id.trans h1.id, fun h => h2.inert (h1.inert h), Nat.le_trans h1.confirmed h2.confirmed,
    fun _ h => h2.events (h1.events h), fun _ h => h2.models (h1.models h)⟩

theorem EdgeEffect.accumulates (he : EdgeEffect db call after)
    (hn : ∀ pair, pair = key ∨ pair = key.mirror →
      call ≠ .unlink pair.source pair.target pair.kind pair.tenantId)
    (hg : db.edges.get key = some row) :
    ∃ later, after.edges.get key = some later ∧ Accumulates row later := by
  cases he with
  | link hp =>
    rw [get_linkedDb _ _ _ _ _ hp.notSelf, hg]
    split
    · refine ⟨_, rfl, rfl, fun h => h, Nat.le_succ _, fun _ h => ?_, fun _ h => ?_⟩ <;>
        exact List.mem_eraseDups.mpr (List.mem_append_left _ h)
    · exact ⟨row, rfl, .refl row⟩
  | unlink hr =>
    refine ⟨row, ?_, .refl row⟩
    rw [deleteEdges, Table.get_deleteWhere, hg, Option.filter_eq_some_iff]
    refine ⟨rfl, ?_⟩
    simp only [Bool.not_eq_true', ← Bool.not_eq_true, betweenPair_iff]
    rintro (rfl | ⟨-, rfl⟩)
    · exact hn _ (.inl rfl) rfl
    · exact hn _ (.inr rfl) rfl
  | retire | markInert =>
    simp only [updateEdges, Table.get_updateWhere, hg, Option.map_some]
    refine ⟨_, rfl, ?_⟩
    unfold Table.changed
    split
    · exact ⟨rfl, fun _ => rfl, Nat.le_refl _, fun _ h => h, fun _ h => h⟩
    · exact .refl row

/-- Until it is unlinked, an edge keeps its row and its evidence, loses no confirmation and
is not revived. -/
theorem edges_accumulate {start db : Database ModelDb} (hrow : start.state.edges.get key = some row)
    (hreach : Transition.Reach edgeStep (fun _ call => ∀ pair, pair = key ∨ pair = key.mirror →
      call ≠ .unlink pair.source pair.target pair.kind pair.tenantId) start db) :
    ∃ later, db.state.edges.get key = some later ∧ Accumulates row later := by
  refine Database.invariant_of_returns hreach (P := fun after => ∃ later,
    after.edges.get key = some later ∧ Accumulates row later) ⟨row, hrow, .refl row⟩ ?_
  rintro before call v after left ⟨mid, hmid, hkept⟩ hallowed hreturns
  obtain ⟨later, hlater, hnext⟩ := (EdgeCall.effect hreturns).accumulates hallowed hmid
  exact ⟨later, hlater, hkept.trans hnext⟩

theorem edges_accumulate_inert : ∃ start db : Database ModelDb, ∃ key later,
    edgeStep start (.markInert 5 1 0 "merged") = some db ∧
      db.state.edges.get key = some later ∧ later.id = 7 := by
  let key : EdgeKey := ⟨0, 1, 2, RegistryKind.causes⟩
  let edge : EdgeRow := { id := 7, detectedBy := .manual, createdAt := 0 }
  let start : Database ModelDb := ⟨{ edges := Table.put ∅ key edge }, 8⟩
  have hrow : start.state.edges.get key = some edge := rfl
  obtain ⟨later, hlater, hkept⟩ := edges_accumulate hrow
    (.next (a := .markInert 5 1 0 "merged") .start (fun _ _ => nofun) rfl)
  exact ⟨start, _, key, later, rfl, hlater, hkept.id⟩

end FyralisCore.Models
