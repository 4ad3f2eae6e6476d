import Mathlib.Algebra.Order.Field.Rat
import Mathlib.Data.List.Pairwise
import FyralisCore.Lib.Dict

/-! The weekly calibration: the offsets that the updater computes from resolved models,
and the two places that read them, the insertion of a model and the rewrite of all
active ones. Confidences and offsets are exact numbers. -/
namespace FyralisCore.Calibration

/-! ### compute.py -/

structure Stat where
  assertedConfidence : ℚ
  outcome : Option Bool

structure OffsetRow where
  bucketLow : ℚ
  bucketHigh : ℚ
  offset : ℚ
  sampleSize : Nat
  deriving DecidableEq

def confidenceBuckets : List (ℚ × ℚ) :=
  [(0, 0.2), (0.2, 0.4), (0.4, 0.6), (0.6, 0.7), (0.7, 0.8), (0.8, 0.9), (0.9, 1)]

/-- `PROP_KIND_DEFAULTS`, 1 for a kind that it lacks. -/
def propKindDefault (kind : String) : ℚ :=
  ([("observation", 0.95), ("belief", 0.95), ("norm", 0.85), ("state", 0.95), ("relation", 0.93),
    ("prediction", 0.85), ("pattern", 0.90), ("pattern_instance", 0.90),
    ("capability_assessment", 0.88), ("hypothesis", 0.80), ("concern", 0.92),
    ("market_assessment", 0.87), ("environmental_trend", 0.90), ("recommendation", 0.85),
    ("situation", 0.86)].lookup kind).getD 1

def minSamplesPerTuple : Nat := 20
def minSamplesPerBucket : Nat := 5

def clip (value low high : ℚ) : ℚ :=
  if value < low then low else if value > high then high else value

section

variable (stats : List Stat)

def concluded : List Stat :=
  stats.filter (·.outcome.isSome)

def bucketOf (bucket : ℚ × ℚ) : List Stat :=
  (concluded stats).filter fun stat =>
    bucket.1 ≤ stat.assertedConfidence && stat.assertedConfidence < bucket.2

def bucketOffset (bucket : ℚ × ℚ) : Option OffsetRow :=
  let samples := bucketOf stats bucket
  if samples.length < minSamplesPerBucket then none
  else
    let empirical := (samples.map fun stat => if stat.outcome = some true then (1 : ℚ) else 0).sum /
      samples.length
    let midpoint := (bucket.1 + bucket.2) / 2
    let rawOffset := if midpoint ≤ 0 then 1 else empirical / midpoint
    some ⟨bucket.1, bucket.2, clip rawOffset 0.3 1.5, samples.length⟩

def bucketedOffsets : List OffsetRow :=
  confidenceBuckets.filterMap (bucketOffset stats)

def coldStartOffsets (kind : String) : List OffsetRow :=
  [⟨0, 1.01, propKindDefault kind, 0⟩]

def computeOffsetsForTuple (kind : String) : List OffsetRow :=
  if (concluded stats).length < minSamplesPerTuple then coldStartOffsets kind
  else if bucketedOffsets (concluded stats) = [] then coldStartOffsets kind
  else bucketedOffsets (concluded stats)

end

structure TupleKey where
  tenantId : Nat
  actorId : Nat
  propositionKind : String
  deriving DecidableEq

structure StatRow where
  key : TupleKey
  stat : Stat
  resolvedAt : Nat
  sourceModelId : Nat

structure CalibratedModel where
  id : Nat
  tenantId : Nat
  status : String
  scopeActors : List Nat
  propositionKind : String
  confidence : ℚ
  confidenceAtAssertion : ℚ
  resolvedAt : Option Nat := none
  resolutionOutcome : Option Bool := none

def CalibratedModel.key (model : CalibratedModel) : Option TupleKey :=
  model.scopeActors.head?.map (⟨model.tenantId, ·, model.propositionKind⟩)

/-- `calibration_offsets`, by the first three columns of its primary key. -/
abbrev Offsets := TupleKey → List OffsetRow

structure CalibrationDb where
  stats : List StatRow
  offsets : Offsets
  models : List CalibratedModel

def OffsetRow.allowed (row : OffsetRow) : Bool :=
  0 ≤ row.bucketLow && row.bucketLow ≤ 1 && 0 < row.bucketHigh && row.bucketHigh ≤ 1 &&
    0.3 ≤ row.offset && row.offset ≤ 1.5 && row.bucketLow < row.bucketHigh

def OffsetRow.covers (confidence : ℚ) (row : OffsetRow) : Bool :=
  row.bucketLow ≤ confidence && confidence < row.bucketHigh

def lookupOffset (offsets : Offsets) (key : TupleKey) (confidence : ℚ) : Option OffsetRow :=
  (offsets key).find? (·.covers confidence)

/-! ### calibration.py -/

def clipConfidence (value : ℚ) : ℚ := clip value 0.05 0.95

/-- `apply_calibration` with a tenant, a kind and a connection. -/
def applyCalibration (offsets : Offsets) (confidence : ℚ) (actorIds : List Nat) (kind : String)
    (tenantId : Nat) : ℚ :=
  match actorIds with
  | [] => clipConfidence confidence
  | primaryActor :: _ =>
    match lookupOffset offsets ⟨tenantId, primaryActor, kind⟩ confidence with
    | some row =>
      if row.sampleSize < minSamplesPerTuple then clipConfidence (confidence * propKindDefault kind)
      else clipConfidence (confidence * row.offset)
    | none => clipConfidence (confidence * propKindDefault kind)

/-! ### worker.py -/

variable (now : Nat) (scope : Option Nat)

def inScope (tenantId : Nat) : Bool := scope.all (· == tenantId)

/-- `HARVEST_LOOKBACK_DAYS`, in seconds. -/
def harvestLookback : Nat := 180 * 86400

section

variable (stats : List StatRow)

def harvestedStat (model : CalibratedModel) : Option StatRow := do
  let resolvedAt ← model.resolvedAt
  let outcome ← model.resolutionOutcome
  let key ← model.key
  guard (inScope scope model.tenantId ∧ ∀ row ∈ stats, row.sourceModelId ≠ model.id)
  return ⟨key, ⟨model.confidenceAtAssertion, some outcome⟩, resolvedAt, model.id⟩

def harvestStats (db : CalibrationDb) : List StatRow :=
  db.models.filterMap (harvestedStat scope db.stats)

def windowStats (key : TupleKey) : List Stat :=
  (stats.filter fun row => row.key = key ∧ row.stat.outcome.isSome ∧
    now < row.resolvedAt + harvestLookback).map StatRow.stat

def tuples : List TupleKey :=
  ((stats.filter fun row => row.stat.outcome.isSome ∧ now < row.resolvedAt + harvestLookback ∧
    inScope scope row.key.tenantId).map StatRow.key).eraseDups

def windowOffsets (key : TupleKey) : List OffsetRow :=
  computeOffsetsForTuple (windowStats now stats key) key.propositionKind

/-- `_upsert_offsets`; a row that the constraints refuse fails the transaction. -/
def upsertOffsets (offsets : Offsets) (key : TupleKey) (rows : List OffsetRow) : Option Offsets :=
  if rows.all OffsetRow.allowed then some (Function.update offsets key rows) else none

def recomputeAllOffsets (offsets : Offsets) : Option Offsets :=
  (tuples now scope stats).foldlM
    (fun offsets key => upsertOffsets offsets key (windowOffsets now stats key)) offsets

end

/-- The confidence to which `_apply_offsets_to_active_models` updates the model, if it does. -/
def newConfidence (offsets : Offsets) (model : CalibratedModel) : Option ℚ :=
  if model.status = "active" ∧ inScope scope model.tenantId then do
    let key ← model.key
    let row ← lookupOffset offsets key model.confidenceAtAssertion
    let newConf := model.confidenceAtAssertion * row.offset
    if |newConf - model.confidence| < 1 / 1000 then none else some newConf
  else none

def recalibrated (offsets : Offsets) (model : CalibratedModel) : CalibratedModel :=
  match newConfidence scope offsets model with
  | some newConf => { model with confidence := clipConfidence newConf }
  | none => model

structure RunResult where
  harvestedStats : Nat
  offsetsWritten : Nat
  modelsRecalibrated : Nat

/-- `run_once`, `none` where its transaction fails. -/
def runOnce (db : CalibrationDb) : Option (RunResult × CalibrationDb) := do
  let harvested := harvestStats scope db
  let stats := db.stats ++ harvested
  let offsets ← recomputeAllOffsets now scope stats db.offsets
  let result : RunResult := {
    harvestedStats := harvested.length
    offsetsWritten := ((tuples now scope stats).map fun key =>
      (windowOffsets now stats key).length).sum
    modelsRecalibrated := (db.models.filter fun model =>
      (newConfidence scope offsets model).isSome).length }
  return (result, ⟨stats, offsets, db.models.map (recalibrated scope offsets)⟩)

end FyralisCore.Calibration
