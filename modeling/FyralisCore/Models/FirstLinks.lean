import FyralisCore.Models.BatchContent
import FyralisCore.Models.MutualExclusion

/-! The first links into a model: as long as no other edge leads to it, the
links of its relations pass every check. -/
namespace FyralisCore.Models

open Relational Transaction Relation Graph List Tx EdgeKind ModelDb RegistryKind

variable {base db m t : ModelDb} {n left now modelId : Nat} {a : RelationArgs}
  {kind : RegistryKind} {kinds : List EdgeKind}

def draftKinds : List EdgeKind :=
  [supports, contributesToResolution]

def LinkedInto (base db : ModelDb) (modelId : Nat) (kinds : List EdgeKind) : Prop :=
  ∀ key row, db.edges.get key = some row →
    base.edges.get key = some row ∨ (key.target = modelId ∧ key.kind ∈ kinds)

def NoEdgeInto (base : ModelDb) (modelId : Nat) : Prop :=
  ∀ key : EdgeKey, key.target = modelId → base.edges.get key = none

theorem LinkedInto.mono (hl : LinkedInto base db modelId kinds)
    (hs : kinds ⊆ wider) : LinkedInto base db modelId wider := by
  intro key row hg
  rcases hl key row hg with hb | ⟨ht, hk⟩
  · exact .inl hb
  · exact .inr ⟨ht, hs hk⟩

variable {key : EdgeKey} {planned : PlannedModel}

theorem LinkedInto.kind_of_target (hl : LinkedInto base db modelId kinds)
    (hn : NoEdgeInto base modelId) (hg : db.edges.get key = some row)
    (ht : key.target = modelId) : key.kind ∈ kinds := by
  rcases hl key row hg with hb | ⟨-, hk⟩
  · rw [hn key ht] at hb
    cases hb
  · exact hk

theorem LinkedInto.path (hl : LinkedInto base db modelId kinds)
    (hp : ReflTransGen (scopeGraph db tenantId scope) modelId node) :
    ReflTransGen (scopeGraph base tenantId scope) modelId node := by
  refine path_of_edges_to_start (fun a b he => ?_) hp
  obtain ⟨kind, hk, row, hg, ha⟩ := (scopeGraph_iff _ _ _ _ _).mp he
  rcases hl _ row hg with hb | ⟨ht, -⟩
  · exact .inl ((scopeGraph_iff _ _ _ _ _).mpr ⟨kind, hk, row, hb, ha⟩)
  · exact .inr ht

section

variable (hk : registry kind ∈ draftKinds)

include hk

theorem draftKinds_not_excluded (hex : excluded ∈ (edgeRegistry kind).mutuallyExclusiveWith) :
    excluded ∉ draftKinds := by
  revert hk hex
  cases kind <;> simp [draftKinds, edgeRegistry, edgeRegistry.freelyWeighted]
  rintro (rfl | rfl) <;> simp

theorem draftKinds_scope (hs : (edgeRegistry kind).cycleScope = some scope) :
    scope ⊆ dependencyKinds := by
  simp only [draftKinds, mem_cons, registry.injEq, not_mem_nil, or_false] at hk
  rcases hk with rfl | rfl <;> obtain rfl := Option.some.inj hs <;> simp [dependencyKinds]

theorem draftKinds_directed : (edgeRegistry kind).isDirected := by
  simp only [draftKinds, mem_cons, registry.injEq, not_mem_nil, or_false] at hk
  rcases hk with rfl | rfl <;> rfl

end

theorem LinkedInto.linkPasses (hln : LinkedInto base db a.modelId kinds)
    (hn : NoEdgeInto base a.modelId) (hkn : kinds ⊆ draftKinds)
    (hk : registry kind ∈ draftKinds) (hd : a.detectedBy = "llm_explicit")
    (hsf : source ≠ a.modelId) (hp : ∀ scope ⊆ dependencyKinds,
      ¬ ReflTransGen (scopeGraph base a.tenantId scope) a.modelId source) :
    LinkPasses db (a.edgeLink kind source a.modelId) (edgeRegistry kind) .accepted
      .llmExplicit where
  resolved := resolveEdgeKindSpec_registry _ _ _
  weight := by
    simp only [draftKinds, mem_cons, registry.injEq, not_mem_nil, or_false] at hk
    rcases hk with rfl | rfl <;> rfl
  confidence := ⟨zero_le_one, le_rfl⟩
  reviewStatus := rfl
  detectedBy := by
    change EdgeDetectedBy.ofText a.detectedBy = _
    rw [hd]
    rfl
  notSelf := hsf
  notExcluded := by
    rw [excludedKind_eq_none_iff]
    intro excluded hex
    by_contra hl
    obtain ⟨row, hg, -⟩ := (liveAt_iff _ _).mp (Bool.not_eq_false _ ▸ hl)
    exact draftKinds_not_excluded hk hex (hkn (hln.kind_of_target hn hg rfl))
  mirrorNotExcluded hsy := by
    rw [draftKinds_directed hk] at hsy
    cases hsy
  noCycle scope hs := (cycleError_eq_none_iff hsf).mpr fun hc =>
    hp scope (draftKinds_scope hk hs) (hln.path hc)

section

variable (hlnk : LinkedInto base db a.modelId kinds) (hn : NoEdgeInto base a.modelId)
  (hkn : kinds ⊆ draftKinds)

include hlnk hn hkn

theorem exists_returns_edgeLinks (hm : registry kind ∈ kinds) (hd : a.detectedBy = "llm_explicit")
    (hsr : ∀ source ∈ sources, source ≠ a.modelId ∧ ∀ scope ⊆ dependencyKinds,
      ¬ ReflTransGen (scopeGraph base a.tenantId scope) a.modelId source) (n : Nat) :
    ∃ t left, Tx.Returns apply (Tx.forEach sources fun source =>
        (link now (a.edgeLink kind source a.modelId)).bind fun _ => .done ()) db n ()
        t left ∧ LinkedInto base t a.modelId kinds := by
  induction sources generalizing db n with
  | nil => exact ⟨db, n, returns_forEach_nil.mpr ⟨rfl, rfl⟩, hlnk⟩
  | cons source rest ih =>
    obtain ⟨hs, hpt⟩ := hsr source (.head _)
    have hp := hlnk.linkPasses hn hkn (hkn hm) hd hs hpt
    obtain ⟨m, remaining, hb⟩ : ∃ m remaining, Tx.Returns apply
        ((link now (a.edgeLink kind source a.modelId)).bind fun _ => .done ()) db n ()
        m remaining := by
      obtain ⟨ids, remaining, hli⟩ := returns_link_iff.mpr ⟨_, _, _, hp, rfl⟩
      exact ⟨_, remaining, returns_ignore.mpr ⟨ids, hli⟩⟩
    obtain ⟨-, -, _, _, -, hg⟩ := returns_edgeLink (draftKinds_directed (hkn hm)) hb
    have hln : LinkedInto base m a.modelId kinds := by
      intro key row hr
      rw [hg] at hr
      split at hr
      · next hk => exact .inr (hk ▸ ⟨rfl, hm⟩)
      · exact hlnk key row hr
    obtain ⟨t, left, ht, hl⟩ := ih hln (fun other ho => hsr other (.tail _ ho)) remaining
    exact ⟨t, left, returns_forEach_cons.mpr ⟨m, remaining, hb, ht⟩, hl⟩

theorem exists_returns_syncIncomingKind (hf : registry kind ∉ kinds)
    (hk : registry kind ∈ draftKinds) (hd : a.detectedBy = "llm_explicit")
    (hs : ∀ source ∈ desired, source ≠ a.modelId ∧ ∀ scope ⊆ dependencyKinds,
      ¬ ReflTransGen (scopeGraph base a.tenantId scope) a.modelId source) (n : Nat) :
    ∃ t left, Tx.Returns apply (syncIncomingKind now kind a desired) db n ()
        t left ∧ LinkedInto base t a.modelId (kind :: kinds) := by
  have hex : (db.edges.rows.filter fun e =>
      e.1.tenantId = a.tenantId ∧ e.1.target = a.modelId ∧
        e.1.kind ∈ [registry kind] ∧ e.2.status = .active) = [] := by
    rw [filter_eq_nil_iff]
    rintro ⟨key, row⟩ hr hmt
    obtain ⟨-, ht, hm, -⟩ := of_decide_eq_true hmt
    exact hf (mem_singleton.mp hm ▸ hlnk.kind_of_target hn ((Table.mem_rows_iff _ _ _).mp hr) ht)
  obtain ⟨t, left, hln, hl⟩ : ∃ t left, Tx.Returns apply (Tx.forEach desired.eraseDups fun source =>
        (link now (a.edgeLink kind source a.modelId)).bind fun _ => .done ()) db n ()
      t left ∧ LinkedInto base t a.modelId (kind :: kinds) :=
    exists_returns_edgeLinks (hlnk.mono (subset_cons_self _ _)) hn
      (cons_subset.mpr ⟨hk, hkn⟩) (.head _) hd
      (fun source hm => hs source (mem_eraseDups.mp hm)) n
  refine ⟨t, left, ?_, hl⟩
  unfold syncIncomingKind syncKind traverseBackward
  simp only [bind_eq_bind, returns_read_bind, hex, map_nil, filter_nil,
    not_mem_nil, not_false_eq_true, decide_true, filter_true]
  exact returns_bind.mpr ⟨(), t, left, hln, returns_forEach_nil.mpr ⟨rfl, rfl⟩⟩

end

theorem not_activeAt_of_noEdgeInto (hn : NoEdgeInto db modelId)
    (ht : key.target = modelId) : ¬ ActiveAt db key := by
  rintro ⟨row, hg, -⟩
  rw [hn key ht] at hg
  cases hg

/-- The relations of a draft can be set when no edge leads to its model and no
path of edges leads from it to what it lists. -/
theorem exists_returns_draftRelations {proposed : ModelCreate} (hn : NoEdgeInto db modelId)
    (hs : ∀ source, source ∈ proposed.supportingModelIds ∨ source ∈ proposed.contributingModels →
        source ≠ modelId ∧ ∀ scope ⊆ dependencyKinds,
          ¬ ReflTransGen (scopeGraph db proposed.tenantId scope) modelId source) (n : Nat) :
    ∃ t left, Tx.Returns apply (setModelRelations now (proposed.relations modelId)) db
      n () t left := by
  have hs0 : LinkedInto db db (proposed.relations modelId).modelId [] := fun _ _ hg => .inl hg
  obtain ⟨supported, k, hsp, hl⟩ : ∃ t left, Tx.Returns apply
      (syncIncomingKind now .supports (proposed.relations modelId) proposed.supportingModelIds) db
      n () t left ∧
      LinkedInto db t (proposed.relations modelId).modelId [supports] :=
    exists_returns_syncIncomingKind hs0 hn (nil_subset _) not_mem_nil
      (by simp [draftKinds]) rfl (fun source hm => hs source (.inl hm)) n
  obtain ⟨t, left, hc, -⟩ : ∃ t left, Tx.Returns apply
      (syncIncomingKind now .contributesToResolution (proposed.relations modelId)
        proposed.contributingModels) supported k () t left ∧ LinkedInto db t modelId
        [contributesToResolution, supports] :=
    exists_returns_syncIncomingKind hl hn
      (by simp [draftKinds]) (by simp) (by simp [draftKinds]) rfl
      (fun source hm => hs source (.inr hm)) k
  refine ⟨t, left, ?_⟩
  exact returns_bind.mpr ⟨(), supported, k, hsp, returns_bind.mpr ⟨(), t, left, hc, returns_bind.mpr
      ⟨(), t, left, returns_done.mpr ⟨rfl, rfl, rfl⟩, returns_bind.mpr
        ⟨(), t, left, returns_done.mpr ⟨rfl, rfl, rfl⟩, returns_done.mpr ⟨rfl, rfl, rfl⟩⟩⟩⟩⟩

theorem supportsKey_of_names (hn : NamesEdge planned key) (hk : key.kind = .registry .supports) :
    supportsKey (planned.proposed.relations planned.id) key.source = key := by
  obtain ⟨ht, htg, -, -⟩ := hn
  obtain ⟨tenantId, source, target, kind⟩ := key
  simp only at ht htg hk
  subst ht htg hk
  rfl

theorem contributesKey_of_names (hn : NamesEdge planned key)
    (hk : key.kind = .registry .contributesToResolution) :
    contributesKey (planned.proposed.relations planned.id) key.source = key := by
  obtain ⟨ht, htg, -, -⟩ := hn
  obtain ⟨tenantId, source, target, kind⟩ := key
  simp only at ht htg hk
  subst ht htg hk
  rfl

theorem Converged.newRow (hc : Converged db t now a keyOf desired) (hm : item ∈ desired)
    (ha : db.edges.get (keyOf item) = none) :
    ∃ detectedBy id, t.edges.get (keyOf item) = some (a.newRow detectedBy now id) := by
  have hac : ¬ ActiveAt db (keyOf item) := by
    rintro ⟨row, hg, -⟩
    rw [ha] at hg
    cases hg
  obtain ⟨detectedBy, id, -, hr⟩ := hc.added item hm hac
  refine ⟨detectedBy, id, ?_⟩
  rw [hr, ha]
  rfl

theorem returns_draftRelations (hn : NoEdgeInto db planned.id)
    (hs : planned.id ∉ planned.proposed.supportingModelIds ∧
      planned.id ∉ planned.proposed.contributingModels) (hrt : Tx.Returns apply
      (setModelRelations now (planned.proposed.relations planned.id)) db n r t left) :
    EdgesOnly db t ∧ (∀ key, NamesEdge planned key → ∃ detectedBy id, t.edges.get key =
        some ((planned.proposed.relations planned.id).newRow detectedBy now id)) ∧
      ∀ key, ¬ NamesEdge planned key → t.edges.get key = db.edges.get key := by
  obtain ⟨supported, contributed, instanced, superseded, hsup, hc, hi,
    hsu, har⟩ := returns_setModelRelations hrt
  obtain rfl : instanced = contributed := hi
  obtain rfl := hsu.unchanged rfl
  rcases har with ⟨hu, -⟩ | ⟨-, rfl⟩
  · cases hu
  have hsup : Converged db supported now (planned.proposed.relations planned.id)
      (supportsKey (planned.proposed.relations planned.id))
      planned.proposed.supportingModelIds := hsup
  have hc : Converged supported t now (planned.proposed.relations planned.id)
      (contributesKey (planned.proposed.relations planned.id))
      planned.proposed.contributingModels := hc
  have hap : ∀ item other, supportsKey (planned.proposed.relations planned.id) item ≠
      contributesKey (planned.proposed.relations planned.id) other := by
    intro item other he
    cases congrArg EdgeKey.kind he
  refine ⟨hsup.edgesOnly.trans hc.edgesOnly, fun key hname => ?_, fun key hname => ?_⟩
  · rcases hname.2.2.2 with ⟨hk, hm⟩ | ⟨hk, hm⟩
    · obtain ⟨detectedBy, id, hr⟩ := hsup.newRow hm (hn _ rfl)
      rw [supportsKey_of_names hname hk] at hr
      refine ⟨detectedBy, id, ?_⟩
      rw [hc.frame key fun item he => hap key.source item
        ((supportsKey_of_names hname hk).trans he.symm), hr]
    · have ha : supported.edges.get
          (contributesKey (planned.proposed.relations planned.id) key.source) = none := by
        rw [hsup.frame _ fun item => hap item key.source]
        exact hn _ rfl
      obtain ⟨detectedBy, id, hr⟩ := hc.newRow hm ha
      rw [contributesKey_of_names hname hk] at hr
      exact ⟨detectedBy, id, hr⟩
  · have hsp : supported.edges.get key = db.edges.get key := by
      by_cases hky : ∃ item, supportsKey (planned.proposed.relations planned.id) item = key
      · obtain ⟨item, rfl⟩ := hky
        refine hsup.untouched item (fun hm => hname ?_) (not_activeAt_of_noEdgeInto hn rfl)
        exact ⟨rfl, rfl, fun he => hs.1 (he ▸ hm), .inl ⟨rfl, hm⟩⟩
      · exact hsup.frame key fun item he => hky ⟨item, he⟩
    rw [← hsp]
    by_cases hky : ∃ item, contributesKey (planned.proposed.relations planned.id) item = key
    · obtain ⟨item, rfl⟩ := hky
      refine hc.untouched item (fun hm => hname ?_) ?_
      · exact ⟨rfl, rfl, fun he => hs.2 (he ▸ hm), .inr ⟨rfl, hm⟩⟩
      · rw [activeAt_congr hsp]
        exact not_activeAt_of_noEdgeInto hn rfl
    · exact hc.frame key fun item he => hky ⟨item, he⟩

end FyralisCore.Models
