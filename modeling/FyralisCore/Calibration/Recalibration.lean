import Mathlib.Tactic.NormNum
import FyralisCore.Calibration.Offsets

/-! Two calibration runs in a row, and the rewrite of the active models beside the
calibration of a new one. -/
namespace FyralisCore.Calibration

open Relational List OffsetRow

variable {now : Nat} {scope : Option Nat} {stats : List StatRow} {offsets after : Offsets}
  {key : TupleKey} {row : OffsetRow} {model : CalibratedModel} {db : CalibrationDb}

theorem buckets_valid : ∀ bucket ∈ confidenceBuckets,
    0 ≤ bucket.1 ∧ bucket.1 ≤ 1 ∧ 0 < bucket.2 ∧ bucket.2 ≤ 1 ∧ bucket.1 < bucket.2 := by
  simp only [confidenceBuckets, forall_mem_cons, not_mem_nil]
  norm_num

theorem clip_bounds {v low hi : ℚ} (hle : low ≤ hi) : low ≤ clip v low hi ∧ clip v low hi ≤ hi := by
  unfold clip
  split
  · exact ⟨le_rfl, hle⟩
  split
  · exact ⟨hle, le_rfl⟩
  · next hl hh => exact ⟨not_lt.mp hl, not_lt.mp hh⟩

theorem bucketOffset_bounds {samples : List Stat} {bucket : ℚ × ℚ}
    (hr : bucketOffset samples bucket = some row) :
    row.bucketLow = bucket.1 ∧ row.bucketHigh = bucket.2 ∧ 0.3 ≤ row.offset ∧ row.offset ≤ 1.5 := by
  simp only [bucketOffset] at hr
  split at hr
  · cases hr
  · cases hr
    exact ⟨rfl, rfl, clip_bounds (by norm_num)⟩

theorem allowed_bucketedOffsets (samples : List Stat) : (bucketedOffsets samples).all allowed := by
  rw [all_eq_true]
  intro row hm
  obtain ⟨bucket, hb, hr⟩ := mem_filterMap.mp hm
  obtain ⟨hl, hh, hmn, hmx⟩ := bucketOffset_bounds hr
  have hv := buckets_valid bucket hb
  simp [allowed, hl, hh, hmn, hmx, hv]

/-- The default row reaches beyond 1, which the table refuses. -/
theorem not_allowed_coldStart (kind : String) : (coldStartOffsets kind).all allowed = false := by
  simp only [coldStartOffsets, all_cons, allowed]
  norm_num

/-- The updater can write the rows of a tuple when it has enough samples, some bucket too. -/
def Warm (samples : List Stat) : Prop :=
  minSamplesPerTuple ≤ (concluded samples).length ∧
    ∃ bucket ∈ confidenceBuckets, minSamplesPerBucket ≤ (bucketOf samples bucket).length

theorem allowed_compute_iff (samples : List Stat) (kind : String) :
    (computeOffsetsForTuple samples kind).all allowed ↔ Warm samples := by
  have ht : concluded (concluded samples) = concluded samples := by simp [concluded]
  have he : bucketedOffsets (concluded samples) = [] ↔
      ¬ ∃ bucket ∈ confidenceBuckets, minSamplesPerBucket ≤ (bucketOf samples bucket).length := by
    simp [bucketedOffsets, filterMap_eq_nil_iff, bucketOffset, bucketOf, ht]
  unfold computeOffsetsForTuple Warm
  split
  · next hf => simp [not_allowed_coldStart, Nat.not_le.mpr hf]
  split
  · next h => simp [not_allowed_coldStart, he.mp h]
  · next hf h =>
    simp only [allowed_bucketedOffsets, true_iff]
    exact ⟨Nat.not_lt.mp hf, not_not.mp (mt he.mpr h)⟩

/-- No confidence lies in two buckets. -/
theorem eq_of_covers {samples : List Stat} {kind : String} {confidence : ℚ} {other : OffsetRow}
    (hr : row ∈ computeOffsetsForTuple samples kind)
    (ho : other ∈ computeOffsetsForTuple samples kind) (hc : row.covers confidence)
    (hd : other.covers confidence) : row = other := by
  have ha : (computeOffsetsForTuple samples kind).Pairwise fun a b =>
      a.bucketHigh ≤ b.bucketLow := by
    unfold computeOffsetsForTuple
    split
    · exact pairwise_singleton _ _
    split
    · exact pairwise_singleton _ _
    · refine pairwise_filterMap.mpr (List.Pairwise.imp ?_ (R := fun a b => a.2 ≤ b.1) ?_)
      · intro a b hab first hf second hs
        rw [(bucketOffset_bounds hf).2.1, (bucketOffset_bounds hs).1]
        exact hab
      · simp only [confidenceBuckets, pairwise_cons, forall_mem_cons, not_mem_nil]
        norm_num
  by_contra hn
  have : Std.Symm fun a b : OffsetRow => a.bucketHigh ≤ b.bucketLow ∨ b.bucketHigh ≤ a.bucketLow :=
    ⟨fun _ _ => Or.symm⟩
  simp only [covers, Bool.and_eq_true, decide_eq_true_eq] at hc hd
  have he := (ha.imp (S := fun a b => a.bucketHigh ≤ b.bucketLow ∨
    b.bucketHigh ≤ a.bucketLow) Or.inl).forall hr ho hn
  rcases he with h | h
  · exact absurd (hc.2.trans_le (h.trans hd.1)) (lt_irrefl _)
  · exact absurd (hd.2.trans_le (h.trans hc.1)) (lt_irrefl _)

/-- A table that runs of the updater can leave behind. -/
def Written (offsets : Offsets) : Prop :=
  ∀ key, offsets key = [] ∨ ∃ samples, offsets key = computeOffsetsForTuple samples
    key.propositionKind ∧ (offsets key).all allowed

theorem Written.lookup_eq {confidence : ℚ} (hw : Written offsets) (hr : row ∈ offsets key)
    (hc : row.covers confidence) : lookupOffset offsets key confidence = some row := by
  obtain ⟨found, hf⟩ : ∃ found, lookupOffset offsets key confidence = some found := by
    rw [← Option.isSome_iff_exists, lookupOffset, List.find?_isSome]
    exact ⟨row, hr, hc⟩
  rcases hw key with hn | ⟨samples, hs, -⟩
  · rw [hn] at hr
    cases hr
  · have hm := mem_of_find?_eq_some hf
    rw [hs] at hm hr
    rw [hf, eq_of_covers hm hr (List.find?_some hf) hc]

theorem newConfidence_of_lookup (ha : model.status = "active")
    (hs : inScope scope model.tenantId) (hk : model.key = some key)
    (hf : lookupOffset offsets key model.confidenceAtAssertion = some row) :
    newConfidence scope offsets model =
      if |model.confidenceAtAssertion * row.offset - model.confidence| < 1 / 1000 then none
      else some (model.confidenceAtAssertion * row.offset) := by
  rw [newConfidence, if_pos ⟨ha, hs⟩, hk, Option.bind_eq_bind, Option.bind_some, hf]
  rfl

/-- A model whose row counts enough samples for both is rewritten to the confidence that it
would be inserted with, unless it stands within the tolerance already. A model without a row
is left alone. -/
theorem recalibration_agrees (hwritten : Written offsets) {actor : Nat} {others : List Nat}
    (hactive : model.status = "active") (hscope : inScope scope model.tenantId)
    (hactors : model.scopeActors = actor :: others) :
    (∀ row ∈ offsets ⟨model.tenantId, actor, model.propositionKind⟩,
      row.covers model.confidenceAtAssertion → minSamplesPerTuple ≤ row.sampleSize →
        (recalibrated scope offsets model).confidence =
          if |model.confidenceAtAssertion * row.offset - model.confidence| < 1 / 1000 then
            model.confidence
          else applyCalibration offsets model.confidenceAtAssertion model.scopeActors
            model.propositionKind model.tenantId) ∧
    ((∀ row ∈ offsets ⟨model.tenantId, actor, model.propositionKind⟩,
      ¬ row.covers model.confidenceAtAssertion) →
        (recalibrated scope offsets model).confidence = model.confidence) := by
  have hkey : model.key = some ⟨model.tenantId, actor, model.propositionKind⟩ := by
    simp [CalibratedModel.key, hactors]
  constructor
  · intro row hr hc hsamples
    have hf := hwritten.lookup_eq hr hc
    rw [recalibrated, newConfidence_of_lookup hactive hscope hkey hf]
    by_cases hnear : |model.confidenceAtAssertion * row.offset - model.confidence| < 1 / 1000
    · rw [if_pos hnear, if_pos hnear]
    · rw [if_neg hnear, if_neg hnear]
      simp [applyCalibration, hactors, hf, if_neg (Nat.not_lt.mpr hsamples)]
  · intro hnone
    have hf : lookupOffset offsets ⟨model.tenantId, actor, model.propositionKind⟩
        model.confidenceAtAssertion = none := by
      simpa [lookupOffset] using hnone
    simp [recalibrated, newConfidence, hactive, hscope, hkey, hf]

def reliable : List Stat :=
  List.replicate 18 ⟨0.85, some true⟩ ++ List.replicate 2 ⟨0.85, some false⟩

def belief : CalibratedModel where
  id := 1
  tenantId := 1
  status := "active"
  scopeActors := [7]
  propositionKind := "belief"
  confidence := 0.81
  confidenceAtAssertion := 0.85

def reliableOffsets : Offsets := fun key =>
  if key = ⟨1, 7, "belief"⟩ then computeOffsetsForTuple reliable "belief" else []

theorem written_reliable : Written reliableOffsets := by
  intro key
  by_cases hk : key = ⟨1, 7, "belief"⟩
  · subst hk
    exact .inr ⟨reliable, rfl, by decide +kernel⟩
  · exact .inl (if_neg hk)

theorem recalibration_agrees_belief : (recalibrated none reliableOffsets belief).confidence =
    applyCalibration reliableOffsets 0.85 [7] "belief" 1 := by
  rw [(recalibration_agrees written_reliable rfl rfl rfl).1 ⟨0.8, 0.9, 18 / 17, 20⟩
    (by decide +kernel) (by decide +kernel) le_rfl, if_neg (by decide +kernel)]
  rfl

/-- Without a row for its tuple a model keeps its confidence, and a new one gets the default. -/
theorem recalibration_skips : Written (fun _ => []) ∧
    (recalibrated none (fun _ => []) belief).confidence ≠
      applyCalibration (fun _ => []) 0.85 [7] "belief" 1 := by
  refine ⟨fun _ => .inl rfl, by decide +kernel⟩

theorem foldlM_upsertOffsets (rowsOf : TupleKey → List OffsetRow) (keys : List TupleKey) :
    keys.foldlM (fun offsets key => upsertOffsets offsets key (rowsOf key)) offsets =
      if ∀ key ∈ keys, (rowsOf key).all allowed then
        some fun key => if key ∈ keys then rowsOf key else offsets key
      else none := by
  induction keys generalizing offsets with
  | nil => simp
  | cons first keys ih =>
    rw [foldlM_cons, upsertOffsets]
    by_cases ha : (rowsOf first).all allowed
    · rw [if_pos ha, Option.bind_eq_bind, Option.bind_some, ih]
      simp only [forall_mem_cons, ha, true_and]
      congr 2
      funext key
      by_cases hk : key = first
      · subst hk
        simp
      · simp [hk]
    · rw [if_neg ha, if_neg fun h => ha (h _ (.head _))]
      rfl

def allStats (scope : Option Nat) (db : CalibrationDb) : List StatRow :=
  db.stats ++ harvestStats scope db

section

variable (now : Nat) (scope : Option Nat) (db : CalibrationDb)

def offsetsAfter : Offsets := fun key =>
  if key ∈ tuples now scope (allStats scope db) then windowOffsets now (allStats scope db) key
  else db.offsets key

def dbAfter : CalibrationDb :=
  ⟨allStats scope db, offsetsAfter now scope db,
    db.models.map (recalibrated scope (offsetsAfter now scope db))⟩

/-- Every tuple of the window has rows that the table takes. -/
def AllWarm : Prop :=
  ∀ key ∈ tuples now scope (allStats scope db), Warm (windowStats now (allStats scope db) key)

end

theorem runOnce_spec (now : Nat) (scope : Option Nat) (db : CalibrationDb) :
    (∀ r after, runOnce now scope db = some (r, after) →
      AllWarm now scope db ∧ after = dbAfter now scope db ∧ r.modelsRecalibrated =
        (db.models.filter fun model =>
          (newConfidence scope (offsetsAfter now scope db) model).isSome).length) ∧
      (AllWarm now scope db → ∃ r, runOnce now scope db = some (r, dbAfter now scope db)) := by
  have hw : (∀ key ∈ tuples now scope (allStats scope db),
      (windowOffsets now (allStats scope db) key).all allowed) ↔ AllWarm now scope db :=
    forall₂_congr fun key _ => allowed_compute_iff _ _
  rw [runOnce]
  simp only [recomputeAllOffsets, foldlM_upsertOffsets]
  rw [← allStats]
  by_cases h : AllWarm now scope db
  · rw [if_pos (hw.mpr h)]
    refine ⟨fun r after hr => ?_, fun _ => ⟨_, rfl⟩⟩
    cases hr
    exact ⟨h, rfl, rfl⟩
  · rw [if_neg (mt hw.mp h)]
    exact ⟨fun _ _ hr => absurd hr (by simp), fun ha => absurd ha h⟩

theorem recalibrated_eq (scope : Option Nat) (offsets : Offsets) (model : CalibratedModel) :
    ∃ confidence, recalibrated scope offsets model = { model with confidence } := by
  unfold recalibrated
  split
  · exact ⟨_, rfl⟩
  · exact ⟨model.confidence, rfl⟩

theorem harvestedStat_eq_some {found : StatRow}
    (hf : harvestedStat scope stats model = some found) :
    (∀ row ∈ stats, row.sourceModelId ≠ model.id) ∧ found.sourceModelId = model.id ∧
      ∀ others : List StatRow, (∀ row ∈ others, row.sourceModelId ≠ model.id) →
        harvestedStat scope others model = some found := by
  simp only [harvestedStat, Option.bind_eq_bind, Option.bind_eq_some_iff] at hf ⊢
  obtain ⟨resolvedAt, hr, outcome, hother, key, hk, done, hg, hf⟩ := hf
  cases hf
  obtain ⟨hs, hfr⟩ := (Option.guard_eq_some' done).mp hg
  exact ⟨hfr, rfl, fun others ho => ⟨resolvedAt, hr, outcome, hother, key, hk, done,
    (Option.guard_eq_some' done).mpr ⟨hs, ho⟩, rfl⟩⟩

/-- What has been harvested is not harvested again. -/
theorem harvestStats_again : harvestStats scope (dbAfter now scope db) = [] := by
  rw [harvestStats, filterMap_eq_nil_iff]
  intro model hm
  obtain ⟨old, hold, rfl⟩ := mem_map.mp hm
  obtain ⟨confidence, hs⟩ := recalibrated_eq scope (offsetsAfter now scope db) old
  rw [hs]
  by_contra hne
  obtain ⟨row, hr⟩ := Option.ne_none_iff_exists'.mp hne
  obtain ⟨hf, hi, ha⟩ := harvestedStat_eq_some hr
  have hn : row ∈ harvestStats scope db := mem_filterMap.mpr
    ⟨old, hold, ha _ fun other ho => hf other (mem_append_left _ ho)⟩
  exact hf row (mem_append_right _ hn) hi

theorem allStats_again : allStats scope (dbAfter now scope db) = allStats scope db := by
  rw [allStats, harvestStats_again, append_nil]
  rfl

theorem offsetsAfter_again : offsetsAfter now scope (dbAfter now scope db) =
    offsetsAfter now scope db := by
  funext key
  rw [offsetsAfter, allStats_again]
  change (if _ then _ else offsetsAfter now scope db key) = _
  by_cases hk : key ∈ tuples now scope (allStats scope db) <;> simp [offsetsAfter, hk]

/-- The confidence that the offset asks for is close to the one that the model has, or the clip
keeps it close to itself. -/
def Within (model : CalibratedModel) (row : OffsetRow) : Prop :=
  |model.confidenceAtAssertion * row.offset - model.confidence| < 1 / 1000 ∨
    |model.confidenceAtAssertion * row.offset -
      clipConfidence (model.confidenceAtAssertion * row.offset)| < 1 / 1000

/-- A second rewrite leaves the model alone. -/
theorem newConfidence_again_iff : newConfidence scope offsets (recalibrated scope offsets model) =
    none ↔ (model.status = "active" → inScope scope model.tenantId → ∀ key, model.key = some key →
      ∀ row, lookupOffset offsets key model.confidenceAtAssertion = some row →
        Within model row) := by
  by_cases ha : model.status = "active" ∧ inScope scope model.tenantId
  · cases hk : model.key with
    | none => simp [recalibrated, newConfidence, hk]
    | some key =>
      cases hf : lookupOffset offsets key model.confidenceAtAssertion with
      | none => simp [recalibrated, newConfidence, hk, hf]
      | some row =>
        have hfr := newConfidence_of_lookup ha.1 ha.2 hk hf
        simp only [Within, ha.1, ha.2, forall_const, Option.some.injEq, forall_eq', hf]
        by_cases hn : |model.confidenceAtAssertion * row.offset - model.confidence| < 1 / 1000
        · rw [if_pos hn] at hfr
          simp only [recalibrated, hfr, hn, true_or]
        · rw [if_neg hn] at hfr
          simp only [recalibrated, hfr, hn, false_or]
          have hs := @newConfidence_of_lookup scope offsets key row
            { model with confidence := clipConfidence (model.confidenceAtAssertion * row.offset) }
            ha.1 ha.2 hk hf
          rw [hs]
          simp
  · have hsm : recalibrated scope offsets model = model := by
      simp [recalibrated, newConfidence, ha]
    rw [hsm, newConfidence, if_neg ha]
    exact ⟨fun _ h1 h2 => absurd ⟨h1, h2⟩ ha, fun _ => rfl⟩

/-- A run returns and leaves exactly the offsets of its window; another one right after it
changes none of them and rewrites no model. -/
def FixedPoint (now : Nat) (scope : Option Nat) (db : CalibrationDb) : Prop :=
  ∃ result after, runOnce now scope db = some (result, after) ∧
    (∀ key, inScope scope key.tenantId → after.offsets key =
      if key ∈ tuples now scope after.stats then
        computeOffsetsForTuple (windowStats now after.stats key) key.propositionKind
      else []) ∧
    ∃ again final, runOnce now scope after = some (again, final) ∧
      (∀ key, final.offsets key = after.offsets key) ∧ again.modelsRecalibrated = 0

structure Settled (now : Nat) (scope : Option Nat) (db : CalibrationDb) : Prop where
  warm : AllWarm now scope db
  /-- no offsets of a tuple that has left the window -/
  fresh : ∀ key, inScope scope key.tenantId → db.offsets key ≠ [] →
    key ∈ tuples now scope (allStats scope db)
  within : ∀ model ∈ db.models, model.status = "active" → inScope scope model.tenantId →
    ∀ key ∈ tuples now scope (allStats scope db), model.key = some key →
      ∀ row ∈ windowOffsets now (allStats scope db) key,
        row.covers model.confidenceAtAssertion → Within model row

theorem offsetsAfter_of_fresh (hf : ∀ key, inScope scope key.tenantId → db.offsets key ≠ [] →
    key ∈ tuples now scope (allStats scope db)) (hs : inScope scope key.tenantId) :
    offsetsAfter now scope db key = if key ∈ tuples now scope (allStats scope db) then
      windowOffsets now (allStats scope db) key else [] := by
  unfold offsetsAfter
  split
  · rfl
  · next hold => exact not_not.mp (mt (hf key hs) hold)

theorem lookup_window_iff {confidence : ℚ} (hk : key ∈ tuples now scope (allStats scope db)) :
    lookupOffset (offsetsAfter now scope db) key confidence = some row ↔
      row ∈ windowOffsets now (allStats scope db) key ∧ row.covers confidence := by
  rw [lookupOffset, offsetsAfter, if_pos hk]
  constructor
  · intro hf
    exact ⟨mem_of_find?_eq_some hf, List.find?_some hf⟩
  · rintro ⟨hm, hc⟩
    obtain ⟨found, hf⟩ := Option.isSome_iff_exists.mp (List.find?_isSome.mpr ⟨row, hm, hc⟩)
    rw [hf, eq_of_covers (mem_of_find?_eq_some hf) hm (List.find?_some hf) hc]

theorem runOnce_again_iff (hw : AllWarm now scope db) :
    (∃ again final, runOnce now scope (dbAfter now scope db) = some (again, final) ∧
      (∀ key, final.offsets key = (dbAfter now scope db).offsets key) ∧
      again.modelsRecalibrated = 0) ↔ ∀ model ∈ db.models,
        newConfidence scope (offsetsAfter now scope db)
          (recalibrated scope (offsetsAfter now scope db) model) = none := by
  have ha : AllWarm now scope (dbAfter now scope db) := by
    rw [AllWarm, allStats_again]
    exact hw
  obtain ⟨hrn, hrt⟩ := runOnce_spec now scope (dbAfter now scope db)
  obtain ⟨r, hr⟩ := hrt ha
  obtain ⟨-, -, hc⟩ := hrn r _ hr
  have hz : r.modelsRecalibrated = 0 ↔ ∀ model ∈ db.models,
      newConfidence scope (offsetsAfter now scope db)
        (recalibrated scope (offsetsAfter now scope db) model) = none := by
    rw [hc, offsetsAfter_again, length_eq_zero_iff, filter_eq_nil_iff]
    simp [dbAfter]
  rw [← hz]
  constructor
  · rintro ⟨again, final, hs, -, hn⟩
    cases hr.symm.trans hs
    exact hn
  · intro hn
    exact ⟨r, _, hr, fun key => congrFun offsetsAfter_again key, hn⟩

theorem inScope_key (hk : model.key = some key) (hs : inScope scope model.tenantId) :
    inScope scope key.tenantId := by
  obtain ⟨actor, -, rfl⟩ := Option.map_eq_some_iff.mp hk
  exact hs

theorem quiet_iff_within (hfr : ∀ key, inScope scope key.tenantId → db.offsets key ≠ [] →
    key ∈ tuples now scope (allStats scope db)) : newConfidence scope (offsetsAfter now scope db)
        (recalibrated scope (offsetsAfter now scope db) model) = none ↔
      (model.status = "active" → inScope scope model.tenantId →
        ∀ key ∈ tuples now scope (allStats scope db), model.key = some key →
          ∀ row ∈ windowOffsets now (allStats scope db) key,
            row.covers model.confidenceAtAssertion → Within model row) := by
  rw [newConfidence_again_iff]
  refine imp_congr_right fun _ => forall_congr' fun hs => forall_congr' fun key => ?_
  constructor
  · intro hq hm hk row hr hc
    exact hq hk row ((lookup_window_iff hm).mpr ⟨hr, hc⟩)
  · intro hw hk row hf
    by_cases hm : key ∈ tuples now scope (allStats scope db)
    · obtain ⟨hr, hc⟩ := (lookup_window_iff hm).mp hf
      exact hw hm hk row hr hc
    · rw [lookupOffset, offsetsAfter_of_fresh hfr (inScope_key hk hs), if_neg hm] at hf
      cases hf

def staleDb : CalibrationDb where
  stats := []
  offsets key := if key = ⟨1, 7, "norm"⟩ then [⟨0, 0.2, 1, 5⟩] else []
  models := []

def coldDb : CalibrationDb where
  stats := [⟨⟨1, 7, "belief"⟩, ⟨0.9, some true⟩, 0, 2⟩]
  offsets _ := []
  models := []

def surpassedDb : CalibrationDb where
  stats := (List.range 20).map fun id =>
    ⟨⟨1, 7, "belief"⟩, ⟨if id < 10 then 0.95 else 0.5, some true⟩, 0, id⟩
  offsets _ := []
  models := [{ belief with id := 30, confidenceAtAssertion := 0.95 }]

end FyralisCore.Calibration
