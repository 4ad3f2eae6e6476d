import FyralisCore.Lib.Graph
import FyralisCore.Models.EdgeCalls

/-! Acyclicity of the cycle scopes. The edges of a tenant whose kinds lie in one
scope form a graph; a link checks it before it adds an edge, and no other call
adds one. -/
namespace FyralisCore.Models

open Relational Transaction Transition Graph Relation ModelDb Database EdgeCall

def scopeGraph (db : ModelDb) (tenantId : Nat) (scope : List EdgeKind) : Nat → Nat → Prop :=
  EdgeOf (scopeEdges db tenantId scope)

def ScopesAcyclic (db : ModelDb) : Prop :=
  ∀ (tenantId : Nat) (kind : RegistryKind) (scope : List EdgeKind),
    (edgeRegistry kind).cycleScope = some scope → Acyclic (scopeGraph db tenantId scope)

structure OtherChecksPass (db : ModelDb) (args : EdgeLink) (kind : RegistryKind) : Prop where
  weight : validateWeightForSpec (edgeRegistry kind) args.weight = .ok ()
  confidence : 0 ≤ args.confidence ∧ args.confidence ≤ 1
  reviewStatus : (ReviewStatus.ofText args.reviewStatus).isSome
  detectedBy : (EdgeDetectedBy.ofText args.detectedBy).isSome
  notExcluded : excludedKind db (edgeRegistry kind) args.tenantId args.source args.target = none

variable {db after : ModelDb}

theorem scopeGraph_iff (db : ModelDb) (tenantId : Nat) (scope : List EdgeKind) (a b : Nat) :
    scopeGraph db tenantId scope a b ↔
      ∃ kind ∈ scope, ∃ row, db.edges.get ⟨tenantId, a, b, kind⟩ = some row ∧
        row.status = .active := by
  unfold scopeGraph scopeEdges
  rw [edgeOf_iff]
  simp only [List.mem_map, List.mem_filter, decide_eq_true_eq, Prod.exists, Prod.mk.injEq,
    Table.mem_rows_iff]
  constructor
  · rintro ⟨⟨tenant, source, target, kind⟩, row, ⟨hg, rfl, hk, ha⟩, rfl, rfl⟩
    exact ⟨kind, hk, row, hg, ha⟩
  · rintro ⟨kind, hk, row, hg, ha⟩
    exact ⟨_, row, ⟨hg, rfl, hk, ha⟩, rfl, rfl⟩

variable {scope : List EdgeKind}

theorem cycleError_eq_none_iff (hs : source ≠ target) :
    cycleError db kind source [target] tenantId scope = none ↔
      ¬ ReflTransGen (scopeGraph db tenantId scope) target source := by
  have ht : [target].filter (· ≠ source) = [target] := by simp [hs.symm]
  have hf : source ∈ reachable (scopeEdges db tenantId scope) [target] ↔
      ReflTransGen (scopeGraph db tenantId scope) target source := by
    rw [mem_reachable_iff]
    simp [scopeGraph]
  unfold cycleError
  simp only [ht, List.cons_ne_nil, if_false, ← hf]
  split
  · next hc => simp [hc]
  · next hfr => simp [hfr]

theorem EdgeEffect.scopeGraph_cases (he : EdgeEffect db call after)
    (hs : (edgeRegistry kind).cycleScope = some scope) :
    (∀ a b, scopeGraph after tenantId scope a b → scopeGraph db tenantId scope a b) ∨
      ∃ source target, source ≠ target ∧
        ¬ ReflTransGen (scopeGraph db tenantId scope) target source ∧
        ∀ a b, scopeGraph after tenantId scope a b →
          withEdge (scopeGraph db tenantId scope) source target a b := by
  by_cases had : ∃ a b, scopeGraph after tenantId scope a b ∧ ¬ scopeGraph db tenantId scope a b
  · -- The edge that is new comes from a link, and so do all the others.
    have hnw : ∀ a b, scopeGraph after tenantId scope a b → ¬ scopeGraph db tenantId scope a b →
        ∃ now args spec reviewStatus detectedBy, call = .link now args ∧
          LinkPasses db args spec reviewStatus detectedBy ∧ spec.cycleScope = some scope ∧
            args.tenantId = tenantId ∧ args.source = a ∧ args.target = b := by
      intro a b ha hb
      obtain ⟨member, hm, row, hg, hac⟩ := (scopeGraph_iff _ _ _ _ _).mp ha
      rcases he.row_cases hg with hkp | ⟨now, args, spec, reviewStatus, detectedBy, hc, hn⟩
      · obtain ⟨old, ho, hw, -⟩ := hkp
        exact absurd ((scopeGraph_iff _ _ _ _ _).mpr ⟨member, hm, old, ho, hw hac⟩) hb
      · obtain ⟨other, rfl, hother⟩ := cycleScope_shared hs hm
        have hk : args.kind = other := by
          rcases (betweenPair_iff _ _ _).mp hn.between with heq | ⟨-, heq⟩
          · exact (congrArg EdgeKey.kind heq).symm
          · exact (congrArg EdgeKey.kind heq).symm
        have hspc : edgeRegistry other = spec := by
          have hr := hn.passes.resolved
          rw [hk, resolveEdgeKindSpec_registry] at hr
          exact Except.ok.inj hr
        subst hspc
        rcases (betweenPair_iff _ _ _).mp hn.between with heq | ⟨hsy, -⟩
        · obtain ⟨ht, hsr, htg, -⟩ := EdgeKey.mk.inj heq
          exact ⟨now, args, _, reviewStatus, detectedBy, hc, hn.passes, hother,
            ht.symm, hsr.symm, htg.symm⟩
        · rw [isDirected_of_cycleScope hother] at hsy
          cases hsy
    obtain ⟨a, b, ha, hb⟩ := had
    obtain ⟨now, args, spec, reviewStatus, detectedBy, hc, hp, hsp, rfl, rfl, rfl⟩ :=
      hnw a b ha hb
    refine .inr ⟨args.source, args.target, hp.notSelf,
      (cycleError_eq_none_iff hp.notSelf).mp (hp.noCycle scope hsp), ?_⟩
    intro x y hx
    by_cases ho : scopeGraph db args.tenantId scope x y
    · exact .inl ho
    · obtain ⟨_, args', _, _, _, hc', -, -, -, hsr, htg⟩ := hnw x y hx ho
      rw [hc] at hc'
      cases hc'
      exact .inr ⟨hsr.symm, htg.symm⟩
  · left
    intro a b ha
    by_contra hb
    exact had ⟨a, b, ha, hb⟩

theorem scopesAcyclic_step (ha : ScopesAcyclic db)
    (he : EdgeEffect db call after) : ScopesAcyclic after := by
  intro tenantId kind scope hs
  have hb := ha tenantId kind scope hs
  rcases he.scopeGraph_cases hs with hsb | ⟨source, target, -, hf, hsb⟩
  · exact hb.mono hsb
  · exact ((acyclic_withEdge_iff hb source target).mpr hf).mono hsb

theorem refuses_link_iff (db : Database ModelDb) (now : Nat) (a : EdgeLink) :
    Database.Refuses apply (run (.link now a)) db ↔
      ¬ ∃ spec reviewStatus detectedBy, LinkPasses db.state a spec reviewStatus detectedBy := by
  rw [refuses_iff, not_iff_not]
  constructor
  · rintro ⟨v, after, left, hr⟩
    obtain ⟨ids, hl⟩ := returns_ignore.mp hr
    obtain ⟨spec, reviewStatus, detectedBy, hp, -⟩ := returns_link_iff.mp ⟨ids, left, hl⟩
    exact ⟨spec, reviewStatus, detectedBy, hp⟩
  · rintro ⟨spec, reviewStatus, detectedBy, hp⟩
    obtain ⟨ids, left, hl⟩ : ∃ ids left, Tx.Returns apply (link now a) db.state
        db.supply ids _ left := returns_link_iff.mpr ⟨spec, reviewStatus, detectedBy, hp, rfl⟩
    exact ⟨(), _, left, returns_ignore.mpr ⟨ids, hl⟩⟩

theorem refuses_self_link (db : Database ModelDb) (now : Nat) (hs : a.source = a.target) :
    Database.Refuses apply (run (.link now a)) db := by
  rw [refuses_link_iff]
  rintro ⟨_, _, _, hp⟩
  exact hp.notSelf hs

/-- With its other checks passed, a link of a kind with a scope refuses exactly
when its edge would close a cycle. -/
theorem refuses_link_iff_cycle {db : Database ModelDb} {now : Nat} {a : EdgeLink}
    {kind : RegistryKind} (hk : a.kind = kind)
    (hs : (edgeRegistry kind).cycleScope = some scope) (hsf : a.source ≠ a.target)
    (hc : OtherChecksPass db.state a kind)
    (ha : Acyclic (scopeGraph db.state a.tenantId scope)) :
    Database.Refuses apply (run (.link now a)) db ↔
      ¬ Acyclic (withEdge (scopeGraph db.state a.tenantId scope) a.source a.target) := by
  have hrs : resolveEdgeKindSpec db.state a.tenantId a.kind = .ok (edgeRegistry kind) := by
    rw [hk, resolveEdgeKindSpec_registry]
  have hf : cycleError db.state a.kind a.source [a.target] a.tenantId scope = none ↔
      ¬ ReflTransGen (scopeGraph db.state a.tenantId scope) a.target a.source :=
    cycleError_eq_none_iff hsf
  rw [refuses_link_iff, acyclic_withEdge_iff ha, not_iff_not, ← hf]
  constructor
  · rintro ⟨spec, _, _, hp⟩
    obtain rfl : edgeRegistry kind = spec := by
      rw [← Except.ok.injEq (ε := ModelError), ← hrs, hp.resolved]
    exact hp.noCycle scope hs
  · intro hf
    obtain ⟨reviewStatus, hr⟩ := Option.isSome_iff_exists.mp hc.reviewStatus
    obtain ⟨detectedBy, hd⟩ := Option.isSome_iff_exists.mp hc.detectedBy
    refine ⟨edgeRegistry kind, reviewStatus, detectedBy, hrs, hc.weight,
      hc.confidence, hr, hd, hsf, hc.notExcluded, ?_, ?_⟩
    · intro hsy
      rw [isDirected_of_cycleScope hs] at hsy
      cases hsy
    · intro other ho
      obtain rfl : scope = other := Option.some.inj (hs.symm.trans ho)
      exact hf

theorem scopesAcyclic_of_empty (hem : db.edges = ∅) : ScopesAcyclic db := by
  intro tenantId kind scope _ node hc
  obtain ⟨next, he, -⟩ := TransGen.head'_iff.mp hc
  obtain ⟨_, _, _, hg, -⟩ := (scopeGraph_iff _ _ _ _ _).mp he
  simp [hem] at hg

theorem scopesAcyclic_of_reach {db : Database ModelDb}
    (he : start.state.edges = ∅) (hr : Reach edgeStep anyStep start db) :
    ScopesAcyclic db.state :=
  invariant_of_returns hr (scopesAcyclic_of_empty he)
    fun _ _ _ _ _ hb _ hrt => scopesAcyclic_step hb (effect hrt)

/-- In every state that runs reach from an empty table, each tenant's scopes
are acyclic, a link of a kind with a scope refuses exactly the edges that would
close a cycle there, and self edges are refused for every kind. -/
theorem scopes_acyclic_and_links_refuse {start db : Database ModelDb}
    (hempty : start.state.edges = ∅) (hreach : Reach edgeStep anyStep start db) :
    ScopesAcyclic db.state ∧
      (∀ (now : Nat) (args : EdgeLink) (kind : RegistryKind) (scope : List EdgeKind),
        args.kind = EdgeKind.registry kind → (edgeRegistry kind).cycleScope = some scope →
        args.source ≠ args.target → OtherChecksPass db.state args kind →
          (Database.Refuses apply (run (.link now args)) db ↔
            ¬ Acyclic (withEdge (scopeGraph db.state args.tenantId scope) args.source
              args.target))) ∧ ∀ (now : Nat) (args : EdgeLink), args.source = args.target →
        Database.Refuses apply (run (.link now args)) db := by
  have hacyclic := scopesAcyclic_of_reach hempty hreach
  refine ⟨hacyclic, fun now args kind scope hkind hscope hself hchecks => ?_,
    fun now args hself => refuses_self_link db now hself⟩
  exact refuses_link_iff_cycle hkind hscope hself hchecks (hacyclic _ _ _ hscope)

def tenantEdge (tenantId source target : Nat) (kind : RegistryKind) (weight : Option Rat) :
    EdgeLink :=
  { source, target, kind := kind, tenantId, detectedBy := "manual", weight }

def tenantLink (tenantId source target : Nat) (kind : RegistryKind) (weight : Option Rat) :
    EdgeCall :=
  .link 0 (tenantEdge tenantId source target kind weight)

/-- Two links in a row, and the one that would lead back to the first model is refused. -/
theorem scopes_acyclic_and_links_refuse_back :
    ∃ db, Reach edgeStep anyStep ⟨{}, 0⟩ db ∧ ScopesAcyclic db.state ∧
      Database.Refuses apply (tenantLink 0 3 1 .supports none).run db := by
  have hreach : Reach edgeStep anyStep ⟨{}, 0⟩ ((run apply (tenantLink 0 1 2 .supports
      none).run ⟨{}, 0⟩).run apply (tenantLink 0 2 3 .supports none).run) :=
    (Reach.start.next trivial rfl).next trivial rfl
  obtain ⟨hacyclic, hlinks, -⟩ := scopes_acyclic_and_links_refuse rfl hreach
  refine ⟨_, hreach, hacyclic, (hlinks 0 (tenantEdge 0 3 1 .supports none) .supports _ rfl rfl
    (by decide) ⟨rfl, by decide +kernel, rfl, rfl, by decide +kernel⟩).mpr fun hback => ?_⟩
  refine hback 1 (.head (b := 2) (.inl ?_) (.head (b := 3) (.inl ?_) (.single (.inr ⟨rfl, rfl⟩)))) <;>
  · unfold scopeGraph EdgeOf
    decide +kernel

/-- Two tenants may close a cycle together, and a link may be refused for
another reason than a cycle. -/
theorem scopes_cross_tenants_and_exclusion_refuses : (∃ db, Reach edgeStep anyStep ⟨{}, 0⟩ db ∧
      ∃ (kind : RegistryKind) (scope : List EdgeKind), (edgeRegistry kind).cycleScope = some scope ∧
          ¬ Acyclic fun a b => ∃ tenantId, scopeGraph db.state tenantId scope a b) ∧
    ∃ db, Reach edgeStep anyStep ⟨{}, 0⟩ db ∧
      ∃ (args : EdgeLink) (kind : RegistryKind) (scope : List EdgeKind),
        args.kind = EdgeKind.registry kind ∧ (edgeRegistry kind).cycleScope = some scope ∧
          Database.Refuses apply (run (.link 0 args)) db ∧
          Acyclic (withEdge (fun a b => ∃ tenantId, scopeGraph db.state tenantId scope a b)
            args.source args.target) := by
  constructor
  · refine ⟨(run apply (tenantLink 0 1 2 .supports none).run ⟨{}, 0⟩).run
      apply (tenantLink 1 2 1 .supports none).run,
      (Reach.start.next trivial rfl).next trivial rfl, .supports, _, rfl, fun hacyclic => ?_⟩
    refine hacyclic 1 (.head (b := 2) ⟨0, ?_⟩ (.single ⟨1, ?_⟩)) <;>
    · unfold scopeGraph EdgeOf
      decide +kernel
  · refine ⟨run apply (tenantLink 0 1 2 .contradicts (some 1)).run ⟨{}, 0⟩,
      Reach.start.next trivial rfl,
      tenantEdge 0 1 2 .supports none, .supports, _, rfl, rfl, ⟨_, rfl⟩, ?_⟩
    have hkinds : ∀ entry ∈ (run apply
        (tenantLink 0 1 2 .contradicts (some 1)).run ⟨{}, 0⟩).state.edges.rows,
        entry.1.kind ∉ [EdgeKind.registry .supports, EdgeKind.registry .instanceOf] := by
      decide +kernel
    have hnone : ∀ a b, ¬ ∃ tenantId, scopeGraph (run apply
        (tenantLink 0 1 2 .contradicts (some 1)).run ⟨{}, 0⟩).state tenantId
          [EdgeKind.registry .supports, EdgeKind.registry .instanceOf] a b := by
      rintro a b ⟨tenantId, hedge⟩
      obtain ⟨kind, hkind, row, hget, -⟩ := (scopeGraph_iff _ _ _ _ _).mp hedge
      exact hkinds _ ((Table.mem_rows_iff _ _ _).mpr hget) hkind
    refine (acyclic_withEdge_iff (acyclic_empty.mono hnone) 1 2).mpr fun hpath => ?_
    rcases ReflTransGen.cases_head hpath with heq | ⟨next, hedge, -⟩
    · exact absurd heq (by decide)
    · exact hnone _ _ hedge

end FyralisCore.Models
