import FyralisCore.Models.EdgeCalls

/-! Mutual exclusion between edge kinds. A link consults the exclusions of the
kind it adds only, so the law holds in every run as far as the registry's
relation is symmetric; `blocks` excludes `supports` without the converse. -/
namespace FyralisCore.Models

open Relational Transaction Transition

def liveAt (db : ModelDb) (key : EdgeKey) : Bool :=
  (db.edges.get key).any EdgeRow.isLive

/-- No ordered pair of a tenant carries two live edges of kinds of which the
registry excludes one from the other. -/
def Exclusive (db : ModelDb) : Prop :=
  ∀ (tenantId source target : Nat) (kind other : RegistryKind),
    EdgeKind.registry other ∈ (edgeRegistry kind).mutuallyExclusiveWith →
      ¬ (liveAt db ⟨tenantId, source, target, kind⟩ ∧ liveAt db ⟨tenantId, source, target, other⟩)

/-- The call does not add a live `supports` edge to a pair with a live
`blocks` edge. -/
def RespectsBlocks (db : Database ModelDb) : EdgeCall → Prop
  | .link _ args =>
    ¬ (args.kind = RegistryKind.supports ∧ args.reviewStatus ≠ ReviewStatus.rejected.text ∧
      db.state.edges.get args.key = none ∧
      liveAt db.state ⟨args.tenantId, args.source, args.target, RegistryKind.blocks⟩)
  | _ => True

theorem excludes_irrefl (kind : RegistryKind) :
    EdgeKind.registry kind ∉ (edgeRegistry kind).mutuallyExclusiveWith := by
  cases kind <;> decide

theorem excludes_symm (he : EdgeKind.registry other ∈ (edgeRegistry kind).mutuallyExclusiveWith) :
    EdgeKind.registry kind ∈ (edgeRegistry other).mutuallyExclusiveWith ∨
      (kind = .blocks ∧ other = .supports) := by
  revert he
  cases kind <;> cases other <;> decide

variable {db after : ModelDb}

theorem liveAt_iff (db : ModelDb) (key : EdgeKey) :
    liveAt db key ↔ ∃ row, db.edges.get key = some row ∧ row.isLive := by
  simp [liveAt, Option.any_eq_true]

theorem excludedKind_eq_none_iff (db : ModelDb) (spec : EdgeKindSpec)
    (tenantId source target : Nat) : excludedKind db spec tenantId source target = none ↔
      ∀ kind ∈ spec.mutuallyExclusiveWith, liveAt db ⟨tenantId, source, target, kind⟩ = false := by
  simp [excludedKind, liveAt]

theorem reviewStatus_ofText (hp : ReviewStatus.ofText text = some status) : status.text = text := by
  simpa using List.find?_some hp

variable {row : EdgeRow}

theorem NewRow.notExcluded (hn : NewRow db now a spec reviewStatus detectedBy key row) :
    key.kind = a.kind ∧ excludedKind db spec key.tenantId key.source key.target = none := by
  rcases (betweenPair_iff _ _ _).mp hn.between with rfl | ⟨hs, rfl⟩
  · exact ⟨rfl, hn.passes.notExcluded⟩
  · exact ⟨rfl, hn.passes.mirrorNotExcluded hs⟩

theorem NewRow.not_liveAt {reviewStatus : ReviewStatus} {detectedBy : EdgeDetectedBy} {source : Nat}
    {kind : RegistryKind}
    (hnw : NewRow db now a spec reviewStatus detectedBy ⟨tenantId, source, target, kind⟩ row)
    (he : EdgeKind.registry other ∈ (edgeRegistry kind).mutuallyExclusiveWith) :
    liveAt db ⟨tenantId, source, target, other⟩ = false := by
  obtain ⟨hk, hn⟩ := hnw.notExcluded
  have hs : edgeRegistry kind = spec := by
    have hr := hnw.passes.resolved
    rw [← hk, resolveEdgeKindSpec_registry] at hr
    exact Except.ok.inj hr
  subst hs
  exact (excludedKind_eq_none_iff _ _ _ _ _).mp hn _ he

theorem liveAt_of_notRevived (hk : NotRevived db key row) (hl : row.isLive) : liveAt db key := by
  obtain ⟨old, ho, -, hr⟩ := hk
  exact (liveAt_iff db key).mpr ⟨old, ho, hr hl⟩

theorem exclusive_step (hex : Exclusive db)
    (hrs : RespectsBlocks ⟨db, n⟩ call) (he : EdgeEffect db call after) :
    Exclusive after := by
  rintro tenantId source target kind other hexc ⟨hk, ho⟩
  obtain ⟨row, hr, hrw⟩ := (liveAt_iff _ _).mp hk
  obtain ⟨otherRow, hotherRow, hlives⟩ := (liveAt_iff _ _).mp ho
  rcases he.row_cases hr with hkp | ⟨now, args, spec, reviewStatus, detectedBy, hc, hn⟩
  · have hkn := liveAt_of_notRevived hkp hrw
    rcases he.row_cases hotherRow with
      hoth | ⟨now, args, spec, reviewStatus, detectedBy, hc, hn⟩
    · exact hex _ _ _ _ _ hexc ⟨hkn, liveAt_of_notRevived hoth hlives⟩
    · rcases excludes_symm hexc with hsy | ⟨rfl, rfl⟩
      · rw [hn.not_liveAt hsy] at hkn
        cases hkn
      · -- The new row is a `supports` edge on a pair with a live `blocks` edge.
        subst hc
        obtain ⟨id, rfl⟩ := hn.row_eq
        have hsp : spec.isDirected := by
          have hre := hn.passes.resolved
          rw [← hn.notExcluded.1, resolveEdgeKindSpec_registry] at hre
          rw [← Except.ok.inj hre]
          rfl
        have hky : (⟨tenantId, source, target, RegistryKind.supports⟩ : EdgeKey) = args.key := by
          rcases (betweenPair_iff _ _ _).mp hn.between with heq | ⟨hsym, -⟩
          · exact heq
          · rw [hsp] at hsym
            cases hsym
        obtain ⟨rfl, rfl, rfl, ha⟩ := EdgeKey.mk.inj hky
        refine hrs ⟨ha.symm, fun ht => ?_, hky ▸ hn.absent, hkn⟩
        have hrv := reviewStatus_ofText hn.passes.reviewStatus
        have hl := (isLive_iff _).mp hlives
        cases hst : reviewStatus <;> simp_all [ReviewStatus.text]
  · rcases he.row_cases hotherRow with
      hoth | ⟨now', args', spec', reviewStatus', detectedBy', hc', hn'⟩
    · have hotherBefore := liveAt_of_notRevived hoth hlives
      rw [hn.not_liveAt hexc] at hotherBefore
      cases hotherBefore
    · subst hc
      cases hc'
      have hs : EdgeKind.registry kind = EdgeKind.registry other :=
        hn.notExcluded.1.trans hn'.notExcluded.1.symm
      cases hs
      exact excludes_irrefl kind hexc

theorem not_exclusive_of_not_respects
    (hr : ¬ RespectsBlocks ⟨db, n⟩ call) (he : EdgeEffect db call after) :
    ¬ Exclusive after := by
  intro hex
  cases he with
  | unlink hrs => exact hr trivial
  | retire hrs => exact hr trivial
  | markInert => exact hr trivial
  | @link now a spec reviewStatus detectedBy supply' hp =>
    obtain ⟨hk, ht, ha, hbl⟩ := not_not.mp hr
    have hrv : reviewStatus ≠ .rejected := by
      rintro rfl
      exact ht (reviewStatus_ofText hp.reviewStatus).symm
    have hs : a.key.source ≠ a.key.target := hp.notSelf
    have hb := get_linkedDb db now spec (a.excluded detectedBy reviewStatus now) supply' hs
      ⟨a.tenantId, a.source, a.target, RegistryKind.blocks⟩
    rw [if_neg ?_] at hb
    · refine hex a.tenantId a.source a.target .blocks .supports (by decide) ⟨?_, ?_⟩
      · rwa [liveAt, hb]
      · have hky : a.key = ⟨a.tenantId, a.source, a.target, RegistryKind.supports⟩ := by
          rw [EdgeLink.key, hk]
        rw [← hky, liveAt_iff, get_linkedDb _ _ _ _ _ hs]
        exact ⟨_, if_pos ((betweenPair_iff _ _ _).mpr (.inl rfl)), by
          rw [ha]
          exact (isLive_iff _).mpr ⟨rfl, hrv⟩⟩
    · rw [betweenPair_iff]
      simp [EdgeLink.key, EdgeKey.mirror, hk]

theorem exclusive_of_empty (he : db.edges = ∅) : Exclusive db := by
  rintro tenantId source target kind other - ⟨hl, -⟩
  simp [liveAt, he] at hl

/-- From an empty table the law holds in every state of a run whose links
respect the `blocks` edges, and there it survives just the calls that do. -/
theorem mutual_exclusion_of_respected {start db : Database ModelDb}
    (hempty : start.state.edges = ∅) (hreach : Reach edgeStep RespectsBlocks start db) :
    Exclusive db.state ∧ ∀ call value after left,
        Tx.Returns ModelDb.apply (EdgeCall.run call) db.state db.supply value after left →
          (Exclusive after ↔ RespectsBlocks db call) := by
  have hinvariant : Exclusive db.state :=
    Database.invariant_of_returns hreach (exclusive_of_empty hempty)
      fun _ _ _ _ _ hbefore hrespects hreturns =>
        exclusive_step hbefore hrespects (EdgeCall.effect hreturns)
  refine ⟨hinvariant, fun call value after left hreturns => ⟨fun hafter => ?_, fun hrespects => ?_⟩⟩
  · by_contra hrespects
    exact not_exclusive_of_not_respects hrespects (EdgeCall.effect hreturns) hafter
  · exact exclusive_step hinvariant hrespects (EdgeCall.effect hreturns)

def plainLink (source target : Nat) (kind : RegistryKind) : EdgeCall :=
  .link 0 { source, target, kind := kind, tenantId := 0, detectedBy := "manual" }

def withLink (db : Database ModelDb) (source target : Nat) (kind : RegistryKind) : Database ModelDb :=
  db.run ModelDb.apply (plainLink source target kind).run

/-- `supports` refuses `blocks` on its pair. On the other pair `blocks` comes first, so a plain
`supports` that returns there would end the law. -/
theorem mutual_exclusion_of_respected_refused : ∃ db, Reach edgeStep RespectsBlocks ⟨{}, 0⟩ db ∧
      liveAt db.state ⟨0, 1, 2, RegistryKind.supports⟩ ∧
      db.state.edges.get ⟨0, 1, 2, RegistryKind.blocks⟩ = none ∧ Exclusive db.state ∧
      ∀ value after left, Tx.Returns ModelDb.apply (plainLink 2 1 .supports).run db.state
        db.supply value after left → ¬ Exclusive after := by
  have hsupports : RespectsBlocks ⟨{}, 0⟩ (plainLink 1 2 .supports) := by
    rintro ⟨-, -, -, hlive⟩
    cases hlive
  have hother : ∀ db source target, RespectsBlocks db (plainLink source target .blocks) := by
    rintro db source target ⟨hkind, -⟩
    cases hkind
  have hreach : Reach edgeStep RespectsBlocks ⟨{}, 0⟩
      (withLink (withLink (withLink ⟨{}, 0⟩ 1 2 .supports) 1 2 .blocks) 2 1 .blocks) :=
    ((Reach.start.next hsupports rfl).next (hother _ 1 2) rfl).next (hother _ 2 1) rfl
  obtain ⟨hexclusive, hcalls⟩ := mutual_exclusion_of_respected rfl hreach
  refine ⟨_, hreach, by decide +kernel, by decide +kernel, hexclusive, ?_⟩
  intro value after left hreturns hafter
  refine (hcalls _ _ _ _ hreturns).mp hafter ⟨rfl, by decide, ?_, ?_⟩ <;> decide +kernel

/-- `blocks` first and `supports` second leaves both. -/
theorem supports_after_blocks_live :
    ∃ db, Reach edgeStep anyStep ⟨{}, 0⟩ db ∧ ¬ Exclusive db.state := by
  refine ⟨withLink (withLink ⟨{}, 0⟩ 1 2 .blocks) 1 2 .supports, ?_, fun hexclusive => ?_⟩
  · exact (Reach.start.next trivial rfl).next trivial rfl
  · exact hexclusive 0 1 2 .blocks .supports (by decide) ⟨by decide +kernel, by decide +kernel⟩

end FyralisCore.Models
