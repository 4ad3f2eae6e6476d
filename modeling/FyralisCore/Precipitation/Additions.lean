import FyralisCore.Models.InsertEffects
import FyralisCore.Lib.Raises
import FyralisCore.Precipitation.Proposer

/-! What a promotion makes of the relations of its constituents. `instance_of` is
replaced by the pattern and the array by the supporters and the pattern, so
nothing is lost exactly where a constituent is in no pattern yet and its array
lists its supporters. -/
namespace FyralisCore.Precipitation

open Relational Transaction Models List Tx RegistryKind

variable {db m after : ModelDb} {supply left now : Nat}

def instanceEdge (tenantId constituent pattern : Nat) : EdgeKey :=
  ⟨tenantId, constituent, pattern, instanceOf⟩

def supportEdge (tenantId source target : Nat) : EdgeKey :=
  ⟨tenantId, source, target, supports⟩

def Supports (db : ModelDb) (source target : Nat) : Prop :=
  ∃ tenantId, ActiveAt db (supportEdge tenantId source target)

def inactive (row : Option EdgeRow) : Option EdgeRow :=
  row.filter fun row => row.status ≠ .active

theorem inactive_inactive (row : Option EdgeRow) : inactive (inactive row) = inactive row := by
  unfold inactive
  rw [Option.filter_filter]
  simp [Bool.and_self]

theorem inactive_eq_self_iff :
    inactive (db.edges.get key) = db.edges.get key ↔ ¬ ActiveAt db key := by
  unfold inactive ActiveAt
  cases db.edges.get key with
  | none => simp
  | some row =>
    by_cases ha : row.status = .active <;> simp [ha]

theorem inactive_of_active (ha : ActiveAt db key) : inactive (db.edges.get key) = none := by
  obtain ⟨row, hr, hs⟩ := ha
  simp [inactive, hr, hs]

structure Linked (db after : ModelDb) (tenantId pattern : Nat) (linked : List Nat) : Prop where
  frame : ∀ key, (∀ constituent ∈ linked, ∀ other, instanceEdge tenantId constituent other ≠ key) →
    after.edges.get key = db.edges.get key
  replaced : ∀ constituent ∈ linked, ∀ other ≠ pattern,
    after.edges.get (instanceEdge tenantId constituent other) =
      inactive (db.edges.get (instanceEdge tenantId constituent other))
  added : ∀ constituent ∈ linked, ¬ StaleAt db (instanceEdge tenantId constituent pattern) →
    ActiveAt after (instanceEdge tenantId constituent pattern)
  arrays : ∀ constituent ∈ linked, ∀ row, db.models.get constituent = some row →
    ∃ supporting, after.models.get constituent = some { row with supportingModelIds := supporting } ∧
      ∀ item, item ∈ supporting ↔ Supports db item constituent ∨ item = pattern
  others : ∀ id ∉ linked, after.models.get id = db.models.get id

variable {candidate : CandidateRow} {pattern born : Nat} {r : Unit} {confidence : Rat}
  {constituents : List Nat}

theorem linked_of_returns (hrt : Tx.Returns ModelDb.apply
      (setModelRelations now (instanceRelations candidate bornFromEventId pattern constituent)) db
      supply r after left) : Linked db after candidate.tenantId pattern [constituent] := by
  obtain ⟨supported, contributed, instanced, superseded, hsu, hc, hin,
    hsp, har⟩ := returns_setModelRelations hrt
  obtain rfl : supported = db := hsu
  obtain rfl : contributed = supported := hc
  obtain rfl := hsp.unchanged rfl
  have hcv : Converged contributed superseded now _ _ [pattern] := hin
  have hmr : ArraysMirror superseded after
      (instanceRelations candidate bornFromEventId pattern constituent) := by
    rcases har with ⟨-, hmr⟩ | ⟨hu, -⟩
    · exact hmr
    · cases hu
  have he : after.edges = superseded.edges := by
    obtain ⟨_, rfl⟩ := hmr.modelsOnly
    rfl
  have hm := hcv.edgesOnly.models
  constructor
  · intro key hk
    rw [he]
    exact hcv.frame key fun other =>
      hk constituent (mem_singleton_self _) other
  · intro other ho item hi
    obtain rfl := mem_singleton.mp ho
    rw [he]
    have hn : item ∉ [pattern] := by simpa using hi
    by_cases hac : ActiveAt contributed (instanceEdge candidate.tenantId other item)
    · rw [inactive_of_active hac]
      exact hcv.removed item hn hac
    · rw [inactive_eq_self_iff.mpr hac]
      exact hcv.untouched item hn hac
  · intro other ho hsl
    obtain rfl := mem_singleton.mp ho
    have hif := hin.activeAt_iff pattern
    have hs : ActiveAt after (instanceEdge candidate.tenantId other pattern) ↔
        ActiveAt superseded (instanceEdge candidate.tenantId other pattern) :=
      activeAt_congr (by rw [he])
    exact hs.mpr (hif.mpr ⟨mem_singleton_self _, hsl⟩)
  · intro other ho row hr
    obtain rfl := mem_singleton.mp ho
    obtain ⟨supporting, ha, hit, -⟩ := hmr.arrays row (by rw [hm]; exact hr)
    refine ⟨supporting, ha, fun item => ?_⟩
    rw [hit (.inr rfl) item]
    refine or_congr ?_ mem_singleton
    refine exists_congr fun tenantId => activeAt_congr (hcv.frame _ fun found heq => ?_)
    cases congrArg EdgeKey.kind heq
  · intro id hid
    rw [hmr.frame id fun hs => hid (mem_singleton.mpr hs), hm]

theorem Linked.supports_iff (hl : Linked db after tenantId pattern linked) (source target : Nat) :
    Supports after source target ↔ Supports db source target := by
  refine exists_congr fun tenant => activeAt_congr (hl.frame _ fun constituent _ other he => ?_)
  cases congrArg EdgeKey.kind he

theorem Linked.nil (db : ModelDb) (tenantId pattern : Nat) : Linked db db tenantId pattern [] where
  frame _ _ := rfl
  replaced _ hm := absurd hm not_mem_nil
  added _ hm := absurd hm not_mem_nil
  arrays _ hm := absurd hm not_mem_nil
  others _ _ := rfl

theorem Linked.cons (h1 : Linked db m tenantId pattern [constituent])
    (ht : Linked m after tenantId pattern rest) :
    Linked db after tenantId pattern (constituent :: rest) := by
  have hsf := mem_singleton_self constituent
  have hfr : ∀ key, (∀ other, instanceEdge tenantId constituent other ≠ key) →
      m.edges.get key = db.edges.get key := fun key hk =>
    h1.frame key fun found hf other => by
      obtain rfl := mem_singleton.mp hf
      exact hk other
  have hky : ∀ {first other second third},
      instanceEdge tenantId first other = instanceEdge tenantId second third → first = second :=
    fun he => congrArg EdgeKey.source he
  have hl : ∀ {found other}, found ∉ rest → after.edges.get (instanceEdge tenantId found other) =
        m.edges.get (instanceEdge tenantId found other) := fun hlt =>
    ht.frame _ fun next hn third he => hlt (hky he ▸ hn)
  constructor
  · intro key hk
    rw [ht.frame key fun found hf => hk found (.tail _ hf), hfr key (hk constituent (.head _))]
  · intro found hf other ho
    by_cases hlt : found ∈ rest
    · rw [ht.replaced found hlt other ho]
      by_cases hs : found = constituent
      · rw [hs, h1.replaced constituent hsf other ho, inactive_inactive]
      · rw [hfr _ fun third he => hs (hky he).symm]
    · obtain rfl : found = constituent := (mem_cons.mp hf).resolve_right hlt
      rw [hl hlt, h1.replaced found hsf other ho]
  · intro found hf hsl
    by_cases hlt : found ∈ rest
    · refine ht.added found hlt fun hmd => ?_
      by_cases hs : found = constituent
      · subst hs
        obtain ⟨row, hr, hst⟩ := hmd
        obtain ⟨active, hact, hac⟩ := h1.added found hsf hsl
        cases hr.symm.trans hact
        exact hst hac
      · rw [staleAt_congr (hfr _ fun third he => hs (hky he).symm)] at hmd
        exact hsl hmd
    · obtain rfl : found = constituent := (mem_cons.mp hf).resolve_right hlt
      rw [activeAt_congr (hl hlt)]
      exact h1.added found hsf hsl
  · intro found hf row hr
    by_cases hlt : found ∈ rest
    · by_cases hs : found = constituent
      · subst hs
        obtain ⟨supporting, hmd, -⟩ := h1.arrays found hsf row hr
        obtain ⟨final, ha, hi⟩ := ht.arrays found hlt _ hmd
        exact ⟨final, ha, fun item => by rw [hi, h1.supports_iff]⟩
      · rw [← h1.others found (by simpa using hs)] at hr
        obtain ⟨final, ha, hi⟩ := ht.arrays found hlt row hr
        exact ⟨final, ha, fun item => by rw [hi, h1.supports_iff]⟩
    · obtain rfl : found = constituent := (mem_cons.mp hf).resolve_right hlt
      rw [ht.others found hlt]
      exact h1.arrays found hsf row hr
  · intro id hid
    rw [ht.others id fun hm => hid (.tail _ hm),
      h1.others id fun hm => hid (mem_singleton.mp hm ▸ mem_cons_self)]

structure PatternInserted (db after : ModelDb) (tenantId pattern : Nat) (constituents : List Nat) :
    Prop where
  fresh : db.models.get pattern = none
  models : ∃ row : ModelRow, row.supportingModelIds = constituents ∧
    after.models = db.models.put pattern row
  frame : ∀ key : EdgeKey, key.kind ≠ contributesToResolution →
    (key.target = pattern → key.kind = instanceOf ∨ key.tenantId ≠ tenantId) →
      after.edges.get key = db.edges.get key
  added : ∀ constituent ∈ constituents, ¬ StaleAt db (supportEdge tenantId constituent pattern) →
    ActiveAt after (supportEdge tenantId constituent pattern)
  only : ∀ key, after.edges.get key ≠ none →
    db.edges.get key ≠ none ∨ key.source ∈ constituents ∧ key.target = pattern

theorem patternInserted_of_returns
    (hsm : candidate.constituentModelIds ≠ []) (hr : Tx.Returns ModelDb.apply
      (insertConstructed rules now (patternModel candidate proposition born confidence)) db supply
      pattern after left) :
    PatternInserted db after candidate.tenantId pattern candidate.constituentModelIds := by
  obtain ⟨hf, inserted, -, he, ⟨hn, -⟩ | ⟨supported, hsp, hc⟩⟩ := returns_insertConstructed hr
  · exact absurd hn hsm
  have hs : ∀ key, inserted.edges.get key = db.edges.get key := fun key => by rw [he]
  have hl : ∀ key : EdgeKey, key.kind ≠ contributesToResolution →
      after.edges.get key = supported.edges.get key := fun key hk =>
    hc.frame key fun item heq => hk (heq ▸ rfl)
  constructor
  · exact hf
  · exact ⟨_, rfl, models_of_returns_insertConstructed hr⟩
  · intro key hk hky
    rw [hl key hk, hsp.frame key, hs]
    rintro item rfl
    rcases hky rfl with hin | ht
    · cases hin
    · exact ht rfl
  · intro constituent hm hsl
    rw [activeAt_congr (hl _ fun hk => by cases hk)]
    have hg : ConvergedIfGiven inserted supported now _ _ (some candidate.constituentModelIds) :=
      hsp
    refine (hg.activeAt_iff constituent).mpr ⟨hm, ?_⟩
    rwa [staleAt_congr (hs _)]
  · intro key hky
    rcases hc.only hky with hky | ⟨item, hi, -⟩
    · rcases hsp.only hky with hky | ⟨item, hi, rfl⟩
      · exact .inl (hs key ▸ hky)
      · exact .inr ⟨hi, rfl⟩
    · cases hi

/-- What the schema and the generator of identifiers promise of the models: edges
join models, and no identifier in use is still to be generated. -/
structure Sound (db : ModelDb) (supply : Nat) : Prop where
  edges : ∀ key, db.edges.get key ≠ none →
    db.models.get key.source ≠ none ∧ db.models.get key.target ≠ none
  models : ∀ id, db.models.get id ≠ none → id < supply
  entries : ∀ id row, db.models.get id = some row → ∀ item ∈ row.supportingModelIds, item < supply

/-- A call that has promoted the candidate to the pattern. -/
structure Promotes (db after : PrecipitationDb) (supply left candidateId pattern : Nat)
    (candidate : CandidateRow) : Prop where
  pending : db.candidates.get candidateId = some candidate ∧ candidate.promotedAt = none
  exists_constituents : ∀ constituent ∈ candidate.constituentModelIds,
    db.models.models.get constituent ≠ none
  minted : supply ≤ pattern ∧ pattern < left
  written : ∃ inserted,
    PatternInserted db.models inserted candidate.tenantId pattern candidate.constituentModelIds ∧
      Linked inserted after.models candidate.tenantId pattern candidate.constituentModelIds
  recorded : ∃ promotedAt, after.candidates = db.candidates.update candidateId fun row =>
    { row with promotedAt := some promotedAt, promotedPatternModelId := some pattern }

theorem lt_of_returns_insertConstructed (hn : proposed.id = none)
    (hr : Tx.Returns ModelDb.apply (insertConstructed rules now proposed) db supply modelId
      after left) : modelId < left := by
  unfold insertConstructed at hr
  simp only [bind_eq_bind, pure_eq_done, hn, idOrNew] at hr
  obtain ⟨_, _, _, -, hr⟩ := hr.parts
  rw [returns_newId_bind] at hr
  have hl := hr.supply_le
  obtain ⟨_, _, _, -, hr⟩ := hr.parts
  obtain ⟨_, _, _, -, hr⟩ := hr.parts
  obtain ⟨_, _, _, -, hd⟩ := hr.parts
  obtain ⟨rfl, -⟩ := hd.ended
  exact hl

theorem returns_execute {w : PrecipitationDb → PrecipitationDb} {db after : PrecipitationDb} :
    Tx.Returns change (execute w) db supply r after left ↔ after = w db ∧ supply = left := by
  unfold execute
  rw [returns_query]
  simp [Transaction.change]

section

variable {db after : PrecipitationDb}

theorem linked_of_forEach (hr : Tx.Returns change (Tx.forEach constituents fun constituent =>
        onModels (setModelRelations now (instanceRelations candidate born pattern constituent)))
      db supply r after left) :
    Linked db.models after.models candidate.tenantId pattern constituents ∧
      after = { db with models := after.models } := by
  induction constituents generalizing db supply with
  | nil =>
    obtain ⟨rfl, -⟩ := returns_forEach_nil.mp hr
    exact ⟨.nil _ _ _, rfl⟩
  | cons constituent rest ih =>
    obtain ⟨m, k, hi, ht⟩ := returns_forEach_cons.mp hr
    obtain ⟨hs, hm⟩ := returns_onPart hi
    obtain ⟨hl, ha⟩ := ih ht
    refine ⟨(linked_of_returns hs).cons hl, ?_⟩
    rw [ha, hm]
    rfl

theorem returns_pendingCandidate
    (hrt : Tx.Returns change (pendingCandidate candidateId) db supply candidate after left) :
    (db.candidates.get candidateId = some candidate ∧ candidate.promotedAt = none) ∧ db = after ∧
    supply = left := by
  obtain ⟨ws, ha, rfl, rfl⟩ := returns_query.mp hrt
  split at ha
  · cases ha
  · next row hr =>
    split at ha
    · cases ha
    · next hp =>
      split at ha
      · cases ha
      · cases ha
        exact ⟨⟨hr, by simpa using hp⟩, rfl, rfl⟩

theorem returns_checkConstituents
    (hr : Tx.Returns change (checkConstituents constituents) db supply r after left) :
    (∀ constituent ∈ constituents, db.models.models.get constituent ≠ none) ∧ db = after ∧ supply =
    left := by
  obtain ⟨hc, rfl, rfl⟩ := returns_require.mp hr
  split at hc
  · next ha =>
    refine ⟨fun constituent hm hn => ?_, rfl, rfl⟩
    have hs := all_eq_true.mp ha constituent hm
    rw [hn] at hs
    cases hs
  · cases hc

theorem returns_computeCentroidEmbedding
    (hr : Tx.Returns change (computeCentroidEmbedding constituents) db supply r after left) :
    constituents ≠ [] ∧ db = after ∧ supply = left := by
  obtain ⟨hc, rfl, rfl⟩ := returns_require.mp hr
  refine ⟨?_, rfl, rfl⟩
  rintro rfl
  cases hc

end

theorem returns_insertPattern {rules : PromotionRules} {db after : PrecipitationDb}
    {proposition : Acts.Json} (hs : candidate.constituentModelIds ≠ []) (hr : Tx.Returns change
      (insertPattern rules now (patternModel candidate proposition born confidence)) db supply
      pattern after left) : PatternInserted db.models after.models candidate.tenantId pattern
        candidate.constituentModelIds ∧
      after.candidates = db.candidates ∧ supply ≤ pattern ∧ pattern < left := by
  obtain ⟨made, stored, _, hm, hr⟩ := hr.parts
  obtain ⟨_, _, _, he, hd⟩ := hr.parts
  obtain ⟨rfl, rfl, rfl⟩ := hd.ended
  obtain ⟨rfl, rfl⟩ := returns_execute.mp he
  obtain ⟨hc, hst⟩ := returns_onPart hm
  refine ⟨patternInserted_of_returns hs hc, ?_, ?_, ?_⟩
  · rw [hst]
    rfl
  · rcases takesId_of_returns hc with hg | ⟨-, hl⟩
    · cases hg
    · exact hl
  · exact lt_of_returns_insertConstructed rfl hc

theorem promotes_of_returns {rules : PromotionRules} {db after : PrecipitationDb}
    (hr : Tx.Returns change (promotePatternCandidate rules now candidateId born confidence) db
      supply pattern after left) :
    ∃ candidate, Promotes db after supply left candidateId pattern candidate := by
  obtain ⟨candidate, _, _, hsl, hr⟩ := hr.parts
  obtain ⟨hp, rfl, rfl⟩ := returns_pendingCandidate hsl
  obtain ⟨_, _, _, hpr, hr⟩ := hr.parts
  obtain ⟨-, rfl, rfl⟩ := returns_ofExcept.mp hpr
  obtain ⟨_, _, _, hce, hr⟩ := hr.parts
  obtain ⟨hs, rfl, rfl⟩ := returns_computeCentroidEmbedding hce
  obtain ⟨_, _, _, hn, hr⟩ := hr.parts
  obtain ⟨-, rfl, rfl⟩ := returns_ofExcept.mp hn
  obtain ⟨_, _, _, hco, hr⟩ := hr.parts
  obtain ⟨-, rfl, rfl⟩ := returns_ensure.mp hco
  obtain ⟨canonical, _, _, hca, hr⟩ := hr.parts
  obtain ⟨-, rfl, rfl⟩ := returns_ofExcept.mp hca
  obtain ⟨_, _, _, hc, hr⟩ := hr.parts
  obtain ⟨he, rfl, rfl⟩ := returns_checkConstituents hc
  obtain ⟨_, inserted, _, hin, hr⟩ := hr.parts
  obtain ⟨hi, hcn, hlw, hu⟩ := returns_insertPattern hs hin
  obtain ⟨_, linked, _, hl, hr⟩ := hr.parts
  obtain ⟨hln, hk⟩ := linked_of_forEach hl
  obtain ⟨_, _, _, hrc, hd⟩ := hr.parts
  obtain ⟨rfl, rfl, rfl⟩ := hd.ended
  obtain ⟨rfl, rfl⟩ := returns_execute.mp hrc
  refine ⟨candidate, hp, he, ⟨hlw, hu.trans_le hl.supply_le⟩, ⟨inserted.models, hi, hln⟩, now, ?_⟩
  rw [hk, ← hcn]

end FyralisCore.Precipitation
