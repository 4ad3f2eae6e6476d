import FyralisCore.Precipitation.Additions

/-! Runs of promotions: each candidate is promoted once, and a promotion adds the
pattern to its constituents and takes nothing from them exactly when they are
unshared. -/
namespace FyralisCore.Precipitation

open Relational Transaction Transition Models List Option Table Option

variable {db after : PrecipitationDb} {supply left candidateId pattern : Nat}
  {candidate : CandidateRow}

/-- The constituent has the relations it had before, and the pattern. -/
structure Additive (before after : ModelDb) (tenantId pattern constituent : Nat) : Prop where
  edges : ∀ key : EdgeKey,
    key.kind = RegistryKind.supports ∨ key.kind = RegistryKind.instanceOf →
    key.source = constituent ∨ key.target = constituent →
    key ≠ supportEdge tenantId constituent pattern →
    key ≠ instanceEdge tenantId constituent pattern → after.edges.get key = before.edges.get key
  supports : ActiveAt after (supportEdge tenantId constituent pattern)
  instanceOf : ActiveAt after (instanceEdge tenantId constituent pattern)
  array : ∀ row, before.models.get constituent = some row → ∃ supporting,
    after.models.get constituent = some { row with supportingModelIds := supporting } ∧
      ∀ item, item ∈ supporting ↔ item ∈ row.supportingModelIds ∨ item = pattern

/-- The constituent is in no pattern yet, and its array lists its supporters. -/
structure Unshared (db : ModelDb) (tenantId constituent : Nat) : Prop where
  instances : ∀ other, ¬ ActiveAt db (instanceEdge tenantId constituent other)
  array : ∀ row, db.models.get constituent = some row →
    ∀ item, item ∈ row.supportingModelIds ↔ Supports db item constituent

variable {key : EdgeKey}

theorem Sound.get_eq_none {db : ModelDb} (hsd : Sound db supply)
    (hk : db.models.get key.source = none ∨ db.models.get key.target = none) :
    db.edges.get key = none := by
  by_contra he
  obtain ⟨hs, ht⟩ := hsd.edges key he
  exact hk.elim hs ht

theorem not_activeAt_of_none {db : ModelDb} (hn : db.edges.get key = none) : ¬ ActiveAt db key := by
  rintro ⟨row, hr, -⟩
  rw [hn] at hr
  cases hr

theorem not_staleAt_of_none {db : ModelDb} (hn : db.edges.get key = none) : ¬ StaleAt db key := by
  rintro ⟨row, hr, -⟩
  rw [hn] at hr
  cases hr

section Promotion

variable {inserted : ModelDb}

variable {constituent : Nat}

theorem ne_pattern (he : ∀ constituent ∈ candidate.constituentModelIds,
      db.models.models.get constituent ≠ none)
    (hi : PatternInserted db.models inserted candidate.tenantId pattern
      candidate.constituentModelIds) (hm : constituent ∈ candidate.constituentModelIds) :
    constituent ≠ pattern := by
  rintro rfl
  exact he constituent hm hi.fresh

theorem PatternInserted.supports_iff
    (hi : PatternInserted before inserted tenantId pattern constituents)
    (hn : target ≠ pattern) (source : Nat) :
    Supports inserted source target ↔ Supports before source target :=
  exists_congr fun tenant => activeAt_congr
    (hi.frame _ (fun hk => by cases hk) fun ht => absurd ht hn)

section

variable
  (hi : PatternInserted db.models inserted candidate.tenantId pattern candidate.constituentModelIds)
  (hl : Linked inserted after.models candidate.tenantId pattern candidate.constituentModelIds)

include hi hl

theorem get_of_promotes (hk : key.kind = RegistryKind.supports ∨ key.kind = RegistryKind.instanceOf)
    (hs : key ≠ supportEdge candidate.tenantId key.source pattern)
    (hin : ∀ constituent ∈ candidate.constituentModelIds, ∀ other,
    instanceEdge candidate.tenantId constituent other ≠ key) : after.models.edges.get key =
    db.models.edges.get key := by
  rw [hl.frame key hin]
  refine hi.frame key ?_ fun htg => ?_
  · rcases hk with hk | hk <;> rw [hk] <;> exact fun he => by cases he
  · rcases hk with hk | hk
    · refine .inr fun ht => hs ?_
      rw [supportEdge, ← ht, ← htg, ← hk]
    · exact .inl hk

theorem get_instanceEdge (hm : constituent ∈ candidate.constituentModelIds) (ho : other ≠ pattern) :
    after.models.edges.get (instanceEdge candidate.tenantId constituent other) = inactive
    (db.models.edges.get (instanceEdge candidate.tenantId constituent other)) := by
  rw [hl.replaced constituent hm other ho, hi.frame _ (fun hk => by cases hk) fun _ => .inl rfl]

end

section

variable (hp : Promotes db after supply left candidateId pattern candidate)

include hp

theorem array_of_promotes (hi : PatternInserted db.models inserted candidate.tenantId pattern
      candidate.constituentModelIds) (hl : Linked inserted after.models candidate.tenantId pattern
      candidate.constituentModelIds) (hm : constituent ∈ candidate.constituentModelIds)
    (hr : db.models.models.get constituent = some row) : ∃ supporting,
      after.models.models.get constituent = some { row with supportingModelIds := supporting } ∧
        ∀ item, item ∈ supporting ↔ Supports db.models item constituent ∨ item = pattern := by
  have hn := ne_pattern hp.exists_constituents hi hm
  obtain ⟨_, -, hmd⟩ := hi.models
  obtain ⟨supporting, ha, hit⟩ := hl.arrays constituent hm row (by
    rw [hmd, get_put_ne _ _ hn]
    exact hr)
  exact ⟨supporting, ha, fun item => by rw [hit, hi.supports_iff hn]⟩

/-- A promotion adds the pattern and takes nothing exactly when its constituents are
unshared. -/
theorem Promotes.additive_iff (hsd : Sound db.models supply) :
    (∀ constituent ∈ candidate.constituentModelIds,
    Additive db.models after.models candidate.tenantId pattern constituent) ↔
    ∀ constituent ∈ candidate.constituentModelIds,
    Unshared db.models candidate.tenantId constituent := by
  obtain ⟨inserted, hins, hln⟩ := hp.written
  have hn : ∀ source, db.models.edges.get (supportEdge candidate.tenantId source pattern) = none ∧
      db.models.edges.get (instanceEdge candidate.tenantId source pattern) = none := fun source =>
    ⟨hsd.get_eq_none (.inr hins.fresh), hsd.get_eq_none (.inr hins.fresh)⟩
  constructor
  · intro had constituent hm
    have hb := had constituent hm
    constructor
    · intro other hac
      have ho : other ≠ pattern := by
        rintro rfl
        exact not_activeAt_of_none (hn constituent).2 hac
      have hkp := hb.edges (instanceEdge candidate.tenantId constituent other) (.inr rfl)
        (.inl rfl) (fun heq => by cases congrArg EdgeKey.kind heq)
        (fun heq => ho (congrArg EdgeKey.target heq))
      rw [get_instanceEdge hins hln hm ho, inactive_of_active hac] at hkp
      exact not_activeAt_of_none hkp.symm hac
    · intro row hr item
      obtain ⟨supporting, ha, hit⟩ := hb.array row hr
      obtain ⟨other, ho, hother⟩ := array_of_promotes hp hins hln hm hr
      obtain rfl : supporting = other :=
        congrArg ModelRow.supportingModelIds (some.inj (ha.symm.trans ho))
      by_cases hi : item = pattern
      · subst hi
        refine iff_of_false (fun he => ?_) ?_
        · exact absurd (hsd.entries constituent row hr _ he) (Nat.not_lt.mpr hp.minted.1)
        · rintro ⟨tenantId, hac⟩
          exact not_activeAt_of_none (hsd.get_eq_none (.inl hins.fresh)) hac
      · have hs := (hit item).symm.trans (hother item)
        simpa only [hi, or_false] using hs
  · intro hu constituent hm
    have hst : ∀ source ∈ candidate.constituentModelIds, ∀ other ≠ pattern,
        after.models.edges.get (instanceEdge candidate.tenantId source other) =
          db.models.edges.get (instanceEdge candidate.tenantId source other) := by
      intro source hsr other ho
      rw [get_instanceEdge hins hln hsr ho]
      exact inactive_eq_self_iff.mpr ((hu source hsr).instances other)
    constructor
    · intro key hk htc hsp hin
      by_cases hl : ∃ source ∈ candidate.constituentModelIds, ∃ other,
          instanceEdge candidate.tenantId source other = key
      · obtain ⟨source, hsr, other, rfl⟩ := hl
        refine hst source hsr other ?_
        rintro rfl
        rcases htc with hs | hs
        · obtain rfl : source = constituent := hs
          exact hin rfl
        · exact ne_pattern hp.exists_constituents hins hm hs.symm
      · refine get_of_promotes hins hln hk (fun heq => ?_) fun source hsr other heq =>
          hl ⟨source, hsr, other, heq⟩
        rcases htc with hs | hs
        · exact hsp (hs ▸ heq)
        · have ht : key.target = pattern := congrArg EdgeKey.target heq
          exact ne_pattern hp.exists_constituents hins hm (hs.symm.trans ht)
    · rw [activeAt_congr (hln.frame _ fun source _ other heq => by
        cases congrArg EdgeKey.kind heq)]
      exact hins.added constituent hm (not_staleAt_of_none (hn constituent).1)
    · refine hln.added constituent hm (not_staleAt_of_none ?_)
      rw [hins.frame _ (fun hk => by cases hk) fun _ => .inl rfl]
      exact (hn constituent).2
    · intro row hr
      obtain ⟨supporting, ha, hit⟩ := array_of_promotes hp hins hln hm hr
      refine ⟨supporting, ha, fun item => ?_⟩
      rw [hit, (hu constituent hm).array row hr]

end

end Promotion

structure Promotion where
  candidateId : Nat
  patternId : Nat
  before : PrecipitationDb
  after : PrecipitationDb

structure System where
  db : Database PrecipitationDb
  promotions : List Promotion := []

inductive Call where
  | promote (candidateId bornFromEventId : Nat) (patternConfidence : Rat)
  /-- The branch of the Think handler on `pattern_review`. -/
  | review (tenantId candidateId : Nat) (observationId : Option Nat)
  | reject (candidateId : Nat) (reason : String)
  | propose (clusters : List Cluster)

structure Action where
  clock : Acts.Clock
  call : Call

section

variable (rules : PromotionRules) (reason : PrecipitationError → String)

/-- The transaction of a call, and the candidate it has promoted with its pattern. -/
def Action.body (action : Action) : PrecipitationTx (Option (Nat × Nat)) :=
  let now := action.clock.transactionNow
  match action.call with
  | .promote candidateId bornFromEventId patternConfidence =>
    (promotePatternCandidate rules now candidateId bornFromEventId patternConfidence).bind
      fun patternId => .done (some (candidateId, patternId))
  | .review tenantId candidateId observationId =>
    (patternReview rules reason action.clock tenantId candidateId observationId).bind
      fun promoted => .done (promoted.map fun patternId => (candidateId, patternId))
  | .reject candidateId reason =>
    (rejectPatternCandidate now candidateId reason).bind fun _ => .done none
  | .propose clusters => (writeCandidates clusters).bind fun _ => .done none

/-- The call runs in a transaction of its own, which is rolled back when it raises. -/
def step (system : System) (action : Action) : Option System :=
  match (action.body rules reason).exec change system.db.state system.db.supply with
  | ⟨.ok (some (candidateId, patternId)), after, left⟩ =>
    some
      { db := ⟨after, left⟩
        promotions := system.promotions ++ [⟨candidateId, patternId, system.db.state, after⟩] }
  | ⟨.ok none, after, left⟩ => some { system with db := ⟨after, left⟩ }
  | ⟨.error _, _, left⟩ => some { system with db := ⟨system.db.state, left⟩ }

end

/-- Nothing has happened to the models, and no candidate is taken back. -/
def Quiet (db after : PrecipitationDb) : Prop :=
  after.models = db.models ∧ ∀ id row, db.candidates.get id = some row → row.promotedAt ≠ none →
    after.candidates.get id = some row

instance : IsPreorder PrecipitationDb Quiet where
  refl _ := ⟨rfl, fun _ _ hrow _ => hrow⟩
  trans _ _ _ hfirst hsecond :=
    ⟨hsecond.1.trans hfirst.1, fun id row hrow hpromoted =>
      hsecond.2 id row (hfirst.2 id row hrow hpromoted) hpromoted⟩

theorem quiet_reject : Tx.Within change Quiet (rejectPatternCandidate now candidateId why) := by
  unfold rejectPatternCandidate execute
  refine .query fun db ws _ ha => ?_
  cases ha
  refine ⟨rfl, fun id row hr hp => ?_⟩
  change (db.candidates.updateWhere _ _).get id = some row
  rw [get_updateWhere, hr]
  have hs : row.promotedAt.isNone = false := by
    rwa [isNone_eq_false_iff, isSome_iff_ne_none]
  simp [Table.changed, hs]

variable {id : Nat}

theorem quiet_insertCandidate : Tx.Within change Quiet (insertCandidate id row) := by
  refine .query fun db ws _ ha => ?_
  split at ha
  · cases ha
  · next hfr =>
    split at ha
    · cases ha
    · split at ha
      · cases ha
      · cases ha
        refine ⟨rfl, fun other found hf _ => ?_⟩
        change (db.candidates.put id row).get other = some found
        rw [get_put_ne _ _, hf]
        rintro rfl
        exact hfr (by rw [hf]; rfl)

theorem quiet_writeCandidate : Tx.Within change Quiet (writeCandidate cluster) := by
  refine .bind Tx.Reads.read.within fun existing => ?_
  cases existing with
  | some id => exact Tx.Reads.done.within
  | none =>
    exact .bind Tx.Reads.newId.within fun _ =>
      .bind quiet_insertCandidate fun _ => Tx.Reads.done.within

theorem quiet_writeCandidates : Tx.Within change Quiet (writeCandidates clusters) := by
  induction clusters with
  | nil => exact Tx.Reads.done.within
  | cons cluster rest ih =>
    exact .bind quiet_writeCandidate fun _ => .bind ih fun _ => Tx.Reads.done.within

def promotionTables (db : PrecipitationDb) : ModelDb × Table Nat CandidateRow :=
  (db.models, db.candidates)

theorem keeps_bornEvent :
    Tx.Keeps change promotionTables (bornEvent clock tenantId candidateId observationId) := by
  cases observationId with
  | some id => exact Tx.Reads.done.keeps
  | none => exact .onPart fun _ _ => rfl

theorem Promotes.of_tables (hpr : Promotes db after supply left candidateId pattern candidate)
    (ht : promotionTables db = promotionTables other) (hp : earlier ≤ supply) :
    Promotes other after earlier left candidateId pattern candidate := by
  obtain ⟨hm, hc⟩ := Prod.mk.inj ht
  exact
    { pending := hc ▸ hpr.pending
      exists_constituents := hm ▸ hpr.exists_constituents
      minted := ⟨hp.trans hpr.minted.1, hpr.minted.2⟩
      written := hm ▸ hpr.written
      recorded := hc ▸ hpr.recorded }

theorem quiet_of_tables (ht : promotionTables after = promotionTables db) : Quiet db after := by
  obtain ⟨hm, hc⟩ := Prod.mk.inj ht
  exact ⟨hm, fun id row hr _ => by rw [hc, hr]⟩

section

variable {rules : PromotionRules} {reason : PrecipitationError → String}

theorem returns_patternReview (hrt : Tx.Returns change
      (patternReview rules reason clock tenantId candidateId observationId) db supply promoted
      after left) : (∃ pattern candidate, promoted = some pattern ∧
        Promotes db after supply left candidateId pattern candidate) ∨
      promoted = none ∧ Quiet db after := by
  obtain ⟨born, started, _, hb, hrt⟩ := hrt.parts
  have htb := keeps_bornEvent.view_eq hb
  obtain ⟨r, m, _, hs, ht⟩ := hrt.parts
  rcases Tx.returns_savepoint hs with ⟨pattern, rfl, hp⟩ | ⟨⟨error, rfl⟩, rfl⟩
  · obtain ⟨rfl, rfl, rfl⟩ := ht.ended
    obtain ⟨candidate, hpr⟩ := promotes_of_returns hp
    exact .inl ⟨pattern, candidate, rfl, hpr.of_tables htb hb.supply_le⟩
  · obtain ⟨_, _, _, hr, hd⟩ := ht.parts
    obtain ⟨rfl, rfl, -⟩ := hd.ended
    exact .inr ⟨rfl, trans_of Quiet (quiet_of_tables htb) (quiet_reject.relates hr)⟩

theorem returns_body {action : Action}
    (hrt : Tx.Returns change (action.body rules reason) db supply promoted after left) :
    (∃ candidateId pattern candidate, promoted = some (candidateId, pattern) ∧
        Promotes db after supply left candidateId pattern candidate) ∨
      promoted = none ∧ Quiet db after := by
  rcases action with ⟨clock, call⟩
  cases call with
  | promote candidateId born confidence =>
    obtain ⟨pattern, _, _, hp, hd⟩ := hrt.parts
    obtain ⟨rfl, rfl, rfl⟩ := hd.ended
    obtain ⟨candidate, hprm⟩ := promotes_of_returns hp
    exact .inl ⟨candidateId, pattern, candidate, rfl, hprm⟩
  | review tenantId candidateId observationId =>
    obtain ⟨found, _, _, hr, hd⟩ := hrt.parts
    obtain ⟨rfl, rfl, rfl⟩ := hd.ended
    rcases returns_patternReview hr with ⟨pattern, candidate, rfl, hprm⟩ | ⟨rfl, hq⟩
    · exact .inl ⟨candidateId, pattern, candidate, rfl, hprm⟩
    · exact .inr ⟨rfl, hq⟩
  | reject candidateId why =>
    obtain ⟨_, _, _, hrj, hd⟩ := hrt.parts
    obtain ⟨rfl, rfl, -⟩ := hd.ended
    exact .inr ⟨rfl, quiet_reject.relates hrj⟩
  | propose clusters =>
    obtain ⟨_, _, _, hpr, hd⟩ := hrt.parts
    obtain ⟨rfl, rfl, -⟩ := hd.ended
    exact .inr ⟨rfl, quiet_writeCandidates.relates hpr⟩

end

def Promotion.Additive (promotion : Promotion) : Prop :=
  ∀ candidate, promotion.before.candidates.get promotion.candidateId = some candidate →
    ∀ constituent ∈ candidate.constituentModelIds,
      Precipitation.Additive promotion.before.models promotion.after.models candidate.tenantId
        promotion.patternId constituent

def Promotion.Unshared (promotion : Promotion) : Prop :=
  ∀ candidate, promotion.before.candidates.get promotion.candidateId = some candidate →
    ∀ constituent ∈ candidate.constituentModelIds,
      Precipitation.Unshared promotion.before.models candidate.tenantId constituent

structure System.Lawful (system : System) : Prop where
  once : ∀ candidateId,
    system.promotions.countP (fun promotion => promotion.candidateId = candidateId) ≤ 1
  additive : ∀ promotion ∈ system.promotions, promotion.Additive

/-- What is kept: the promotions made are of candidates that say so, and each began in
a sound state. -/
structure Coherent (system : System) : Prop where
  sound : Sound system.db.state.models system.db.supply
  promoted : ∀ promotion ∈ system.promotions, ∃ row,
    system.db.state.candidates.get promotion.candidateId = some row ∧ row.promotedAt ≠ none
  once : ∀ candidateId,
    system.promotions.countP (fun promotion => promotion.candidateId = candidateId) ≤ 1
  made : ∀ promotion ∈ system.promotions, ∃ supply left candidate,
    Sound promotion.before.models supply ∧
      Promotes promotion.before promotion.after supply left promotion.candidateId
        promotion.patternId candidate

theorem Sound.mono {db : ModelDb} (hs : Sound db supply) (hl : supply ≤ left) : Sound db left where
  edges := hs.edges
  models := fun id hid => (hs.models id hid).trans_le hl
  entries := fun id row hr item hi => (hs.entries id row hr item hi).trans_le hl

section

variable (hp : Promotes db after supply left candidateId pattern candidate)

include hp

theorem Promotes.models_iff (id : Nat) : after.models.models.get id ≠ none ↔
    db.models.models.get id ≠ none ∨ id = pattern := by
  obtain ⟨inserted, hi, hl⟩ := hp.written
  obtain ⟨row, -, hmd⟩ := hi.models
  by_cases hm : id ∈ candidate.constituentModelIds
  · have he := hp.exists_constituents id hm
    obtain ⟨found, hf⟩ := ne_none_iff_exists'.mp he
    obtain ⟨supporting, ha, -⟩ := array_of_promotes hp hi hl hm hf
    rw [ha, hf]
    simp
  · rw [hl.others id hm, hmd, get_put]
    split
    · next hid => simp [hid]
    · next hid => simp [hid]

theorem Promotes.sound (hsd : Sound db.models supply) : Sound after.models left := by
  have hmi := hp.minted
  have hex : ∀ id, db.models.models.get id ≠ none → id < left := fun id hid =>
    (hsd.models id hid).trans (hmi.1.trans_lt hmi.2)
  obtain ⟨inserted, hins, hln⟩ := hp.written
  constructor
  · intro key hk
    simp only [hp.models_iff]
    have hin : inserted.edges.get key ≠ none →
        (db.models.models.get key.source ≠ none ∨ key.source = pattern) ∧
          (db.models.models.get key.target ≠ none ∨ key.target = pattern) := by
      intro hk
      rcases hins.only key hk with hb | ⟨hs, ht⟩
      · exact ⟨.inl (hsd.edges key hb).1, .inl (hsd.edges key hb).2⟩
      · exact ⟨.inl (hp.exists_constituents _ hs), .inr ht⟩
    by_cases hl : ∃ constituent ∈ candidate.constituentModelIds, ∃ other,
        instanceEdge candidate.tenantId constituent other = key
    · obtain ⟨constituent, hm, other, rfl⟩ := hl
      by_cases ho : other = pattern
      · exact ⟨.inl (hp.exists_constituents _ hm), .inr ho⟩
      · refine hin fun hn => hk ?_
        rw [hln.replaced constituent hm other ho, hn]
        rfl
    · rw [hln.frame key fun constituent hm other heq =>
        hl ⟨constituent, hm, other, heq⟩] at hk
      exact hin hk
  · intro id hid
    rcases (hp.models_iff id).mp hid with hb | rfl
    · exact hex id hb
    · exact hmi.2
  · intro id row hr item hi
    by_cases hm : id ∈ candidate.constituentModelIds
    · obtain ⟨found, hf⟩ := ne_none_iff_exists'.mp (hp.exists_constituents id hm)
      obtain ⟨supporting, ha, hit⟩ := array_of_promotes hp hins hln hm hf
      cases hr.symm.trans ha
      rcases (hit item).mp hi with ⟨tenantId, edge, he, -⟩ | rfl
      · exact hex item (hsd.edges _ (by rw [he]; exact some_ne_none _)).1
      · exact hmi.2
    · obtain ⟨made, hc, hmd⟩ := hins.models
      rw [hln.others id hm, hmd, get_put] at hr
      split at hr
      · cases hr
        rw [hc] at hi
        exact hex item (hp.exists_constituents item hi)
      · exact (hsd.entries id row hr item hi).trans (hmi.1.trans_lt hmi.2)

end

theorem Promotes.promoted (hprm : Promotes db after supply left candidateId pattern candidate)
    (hr : db.candidates.get id = some row)
    (hpr : row.promotedAt ≠ none) : after.candidates.get id = some row := by
  obtain ⟨promotedAt, hc⟩ := hprm.recorded
  rw [hc, get_update, if_neg, hr]
  rintro rfl
  obtain ⟨hcn, hp⟩ := hprm.pending
  rw [hr] at hcn
  exact hpr (some.inj hcn ▸ hp)

section

variable {rules : PromotionRules} {reason : PrecipitationError → String} {system next : System}

theorem Coherent.start {start : Database PrecipitationDb} (hs : Sound start.state.models start.supply) :
    Coherent { db := start } where
  sound := hs
  promoted _ hm := absurd hm not_mem_nil
  once _ := Nat.zero_le _
  made _ hm := absurd hm not_mem_nil

theorem Coherent.promote (hch : Coherent system)
    (hpr : Promotes system.db.state after system.db.supply left candidateId pattern candidate) :
    Coherent
      { db := ⟨after, left⟩
        promotions := system.promotions ++ [⟨candidateId, pattern, system.db.state, after⟩] } where
  sound := hpr.sound hch.sound
  promoted := by
    intro promotion hm
    rcases mem_append.mp hm with ho | hnw
    · obtain ⟨row, hr, hp⟩ := hch.promoted promotion ho
      exact ⟨row, hpr.promoted hr hp, hp⟩
    · obtain rfl := mem_singleton.mp hnw
      obtain ⟨promotedAt, hc⟩ := hpr.recorded
      refine ⟨{ candidate with promotedAt := some promotedAt, promotedPatternModelId := some pattern },
        ?_, some_ne_none _⟩
      rw [hc, get_update, if_pos rfl, hpr.pending.1]
      rfl
  once := by
    intro id
    have hb := hch.once id
    by_cases hs : candidateId = id
    · have hn : system.promotions.countP (fun promotion => promotion.candidateId = id) = 0 := by
        refine countP_eq_zero.mpr fun promotion hm hi => ?_
        obtain ⟨row, hr, hp⟩ := hch.promoted promotion hm
        rw [of_decide_eq_true hi, ← hs, hpr.pending.1] at hr
        exact hp (some.inj hr ▸ hpr.pending.2)
      simp [hn, hs]
    · simpa [hs] using hb
  made := by
    intro promotion hm
    rcases mem_append.mp hm with ho | hnw
    · exact hch.made promotion ho
    · obtain rfl := mem_singleton.mp hnw
      exact ⟨_, _, _, hch.sound, hpr⟩

theorem Coherent.quiet (hc : Coherent system) (hq : Quiet system.db.state after)
    (hl : system.db.supply ≤ left) : Coherent { system with db := ⟨after, left⟩ } where
  sound := by
    rw [hq.1]
    exact hc.sound.mono hl
  promoted := by
    intro promotion hm
    obtain ⟨row, hr, hp⟩ := hc.promoted promotion hm
    exact ⟨row, hq.2 _ row hr hp, hp⟩
  once := hc.once
  made := hc.made

theorem Coherent.step {action : Action} (hc : Coherent system)
    (hst : Precipitation.step rules reason system action = some next) : Coherent next := by
  have hl := (action.body rules reason).le_exec_supply change system.db.state system.db.supply
  unfold Precipitation.step at hst
  split at hst
  · next candidateId pattern after left hx =>
    cases hst
    rcases returns_body hx with ⟨_, _, candidate, hs, hp⟩ | ⟨hn, -⟩
    · cases hs
      exact hc.promote hp
    · cases hn
  · next after left hx =>
    cases hst
    rcases returns_body hx with ⟨_, _, _, hsm, -⟩ | ⟨-, hq⟩
    · cases hsm
    · exact hc.quiet hq (by rwa [hx] at hl)
  · next error after left hx =>
    cases hst
    exact hc.quiet (refl_of Quiet _) (by rwa [hx] at hl)

/-- In every run of promotions, reviews, rejections and proposals each candidate is
promoted at most once, and the promotions are additive exactly when each finds its
constituents unshared. -/
theorem promotions_lawful_iff {start : Database PrecipitationDb}
    (hsound : Sound start.state.models start.supply)
    (hreach : Reach (step rules reason) anyStep { db := start } system) :
    system.Lawful ↔ ∀ promotion ∈ system.promotions, promotion.Unshared := by
  have hcoherent : Coherent system := hreach.invariant (.start hsound)
    fun _ _ _ hbefore _ hstep => hbefore.step hstep
  have hiff : ∀ promotion ∈ system.promotions, promotion.Additive ↔ promotion.Unshared := by
    intro promotion hmem
    obtain ⟨supply, left, candidate, hbefore, hpromotes⟩ := hcoherent.made promotion hmem
    have hcandidate := hpromotes.pending.1
    unfold Promotion.Additive Promotion.Unshared
    simp only [hcandidate, some.injEq, forall_eq']
    exact hpromotes.additive_iff hbefore
  constructor
  · intro hlawful promotion hmem
    exact (hiff promotion hmem).mp (hlawful.additive promotion hmem)
  · intro hunshared
    exact ⟨hcoherent.once, fun promotion hmem => (hiff promotion hmem).mpr (hunshared promotion hmem)⟩

end

def plainRules : PromotionRules where
  insert :=
    { str := fun _ => ""
      parseUuid := fun _ => none
      isAdequateFalsifier := fun _ => none
      validateRecommendation := fun _ _ _ => none }
  construct proposition _ := .ok proposition

def plainModel : ModelRow where
  tenantId := 0
  proposition := .object []
  createdAt := 0

def plainCandidate (constituents : List Nat) : CandidateRow where
  tenantId := 0
  proposedSignature := .object []
  observedTendency := .object []
  constituentModelIds := constituents
  clusterSize := constituents.length
  density := 1

def sharedConstituents : Database PrecipitationDb where
  state :=
    { models :=
        { models := [1, 2, 3, 4].foldl (fun table id => table.put id plainModel) ∅ }
      candidates := ((∅ : Table Nat CandidateRow).put 50 (plainCandidate [1, 2, 3])).put 51
        (plainCandidate [1, 2, 4])
      embedded := [1] }
  supply := 100

theorem get_sharedConstituents (hr : sharedConstituents.state.models.models.get id = some row) :
    row = plainModel ∧ id < 100 := by
  simp only [sharedConstituents, foldl_cons, foldl_nil, get_put] at hr
  split at hr
  · exact ⟨(some.inj hr).symm, by omega⟩
  · split at hr
    · exact ⟨(some.inj hr).symm, by omega⟩
    · split at hr
      · exact ⟨(some.inj hr).symm, by omega⟩
      · split at hr
        · exact ⟨(some.inj hr).symm, by omega⟩
        · cases hr

theorem sound_sharedConstituents :
    Sound sharedConstituents.state.models sharedConstituents.supply where
  edges key hk := absurd rfl hk
  models id hid := by
    obtain ⟨row, hr⟩ := ne_none_iff_exists'.mp hid
    exact (get_sharedConstituents hr).2
  entries id row hr item hi := by
    rw [(get_sharedConstituents hr).1] at hi
    cases hi

def promoteAt (candidateId : Nat) : Action := ⟨⟨0, 0⟩, .promote candidateId 7 (7 / 10)⟩

def Promotion.isFirst (promotion : Promotion) : Bool :=
  promotion.before.models.edges.rows.isEmpty &&
    promotion.before.models.models.rows.all fun entry => entry.2.supportingModelIds.isEmpty

theorem Promotion.unshared_of_isFirst {promotion : Promotion} (h1 : promotion.isFirst) :
    promotion.Unshared := by
  obtain ⟨he, hen⟩ := Bool.and_eq_true_iff.mp h1
  have hn : ∀ key, ¬ ActiveAt promotion.before.models key := by
    rintro key ⟨row, hr, -⟩
    have hm := (mem_rows_iff _ _ _).mpr hr
    rw [isEmpty_iff.mp he] at hm
    cases hm
  intro candidate _ constituent _
  refine ⟨fun other => hn _, fun row hr item => ?_⟩
  have hem := all_eq_true.mp hen _ ((mem_rows_iff _ _ _).mpr hr)
  refine iff_of_false (fun hm => ?_) fun ⟨tenantId, ha⟩ => hn _ ha
  rw [isEmpty_iff.mp hem] at hm
  cases hm

def Promotion.sharesInstance (promotion : Promotion) : Bool :=
  (promotion.before.candidates.get promotion.candidateId).any
      (fun candidate => candidate.tenantId == 0 && candidate.constituentModelIds.contains 1) &&
    (promotion.before.models.edges.get (instanceEdge 0 1 100)).any fun row => row.status == .active

/-- The first promotion is lawful; the second one of a model that has become an instance is not. -/
theorem promotions_lawful_first : (∃ system : System,
      Reach (step plainRules fun _ => "") anyStep { db := sharedConstituents } system ∧
        system.promotions.length = 1 ∧ system.Lawful) ∧
    ∃ system : System,
      Reach (step plainRules fun _ => "") anyStep { db := sharedConstituents } system ∧
        system.promotions.length = 2 ∧ ¬ system.Lawful := by
  constructor
  · have hrun : (runAll (step plainRules fun _ => "") { db := sharedConstituents }
        [promoteAt 50]).any (fun system =>
          system.promotions.length == 1 && system.promotions.all Promotion.isFirst) := by
      decide +kernel
    obtain ⟨system, hsystem, hcheck⟩ := (any_eq_true _ _).mp hrun
    obtain ⟨hlength, hall⟩ := Bool.and_eq_true_iff.mp hcheck
    have hreach := reach_of_run hsystem
    refine ⟨system, hreach, beq_iff_eq.mp hlength,
      (promotions_lawful_iff sound_sharedConstituents hreach).mpr fun promotion hmem => ?_⟩
    exact promotion.unshared_of_isFirst (all_eq_true.mp hall promotion hmem)
  · have hrun : (runAll (step plainRules fun _ => "") { db := sharedConstituents }
        [promoteAt 50, promoteAt 51]).any (fun system =>
          system.promotions.length == 2 && system.promotions.any Promotion.sharesInstance) := by
      decide +kernel
    obtain ⟨system, hsystem, hcheck⟩ := (any_eq_true _ _).mp hrun
    obtain ⟨hlength, hshares⟩ := Bool.and_eq_true_iff.mp hcheck
    obtain ⟨promotion, hmem, hinstance⟩ := any_eq_true.mp hshares
    have hreach := reach_of_run hsystem
    refine ⟨system, hreach, beq_iff_eq.mp hlength, fun hlawful => ?_⟩
    have hunshared :=
      (promotions_lawful_iff sound_sharedConstituents hreach).mp hlawful promotion hmem
    simp only [Promotion.sharesInstance, Bool.and_eq_true, Option.any_eq_true, beq_iff_eq,
      contains_iff_mem] at hinstance
    obtain ⟨⟨candidate, hcandidate, htenant, hconstituent⟩, row, hrow, hactive⟩ := hinstance
    refine (hunshared candidate hcandidate 1 hconstituent).instances 100 ?_
    rw [htenant]
    exact ⟨row, hrow, hactive⟩

def Promotion.losesInstance (promotion : Promotion) : Bool :=
  (promotion.before.candidates.get promotion.candidateId).any
      (fun candidate => candidate.tenantId == 0 && candidate.constituentModelIds.contains 1) &&
    promotion.patternId != 100 &&
      (promotion.before.models.edges.get (instanceEdge 0 1 100)).isSome &&
        (promotion.after.models.edges.get (instanceEdge 0 1 100)).isNone

theorem shared_constituent_lost : ¬ ∀ (rules : PromotionRules)
    (reason : PrecipitationError → String) (start : Database PrecipitationDb) (system : System),
    Sound start.state.models start.supply → Reach (step rules reason) anyStep { db := start } system →
      system.Lawful := by
  have hrun : (runAll (step plainRules fun _ => "") { db := sharedConstituents }
      [promoteAt 50, promoteAt 51]).any
        (fun system => system.promotions.any Promotion.losesInstance) := by
    decide +kernel
  obtain ⟨system, hsystem, hloses⟩ := (any_eq_true _ _).mp hrun
  obtain ⟨promotion, hmem, hloses⟩ := any_eq_true.mp hloses
  intro hall
  have hlawful := hall plainRules (fun _ => "") sharedConstituents system sound_sharedConstituents
    (reach_of_run hsystem)
  simp only [Promotion.losesInstance, Bool.and_eq_true, Option.any_eq_true, beq_iff_eq,
    bne_iff_ne, contains_iff_mem] at hloses
  obtain ⟨⟨⟨⟨candidate, hcandidate, htenant, hconstituent⟩, hpattern⟩, hbefore⟩, hafter⟩ := hloses
  have hkept := (hlawful.additive promotion hmem candidate hcandidate 1 hconstituent).edges
    (instanceEdge 0 1 100) (.inr rfl) (.inl rfl) (fun heq => by cases congrArg EdgeKey.kind heq)
    (fun heq => hpattern (congrArg EdgeKey.target heq).symm)
  rw [isNone_iff_eq_none.mp hafter] at hkept
  rw [← hkept] at hbefore
  cases hbefore

end FyralisCore.Precipitation
