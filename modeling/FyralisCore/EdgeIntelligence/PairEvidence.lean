import FyralisCore.Lib.Dict
import FyralisCore.Lib.ReadCommitted
import FyralisCore.Models.Falsifier

/-! Pair evidence (`edge_intelligence/repo.py`, `types.py`, `compiler.py`,
migration 0147): what has been observed of two Models under a primitive is
folded into one row, by an insert that gives way to a row that is there, a
locking re-read and an update. -/
namespace FyralisCore.EdgeIntelligence

open Relational Transaction ReadCommitted
open Acts (Json strip)

inductive Signal where
  | coRetrieved
  | coUsedValidDiff
  | explicitRelation
  | thinkEdgeOp
  | t4Accept
  | t4Reject
  | noEdge
  | positiveOutcome
  | negativeOutcome
  deriving DecidableEq

def signals : List Signal :=
  [.coRetrieved, .coUsedValidDiff, .explicitRelation, .thinkEdgeOp, .t4Accept, .t4Reject, .noEdge,
    .positiveOutcome, .negativeOutcome]

abbrev Counts := Signal → Int

structure PairEvidenceObservation where
  tenantId : Nat
  leftModelId : Nat
  rightModelId : Nat
  primitive : String := "UNKNOWN"
  delta : Counts := fun _ => 0
  directedSourceModelId : Option Nat := none
  directedTargetModelId : Option Nat := none
  edgeKindHint : Option String := none
  metadata : List (String × Json) := []

inductive PairError where
  /-- `ValueError` -/
  | value (message : String)
  | validation (message : String)
  /-- A count that an INTEGER column does not hold. -/
  | outOfRange
  deriving DecidableEq

/-- `canonical_model_pair`; the texts of two UUIDs are ordered as the UUIDs are. -/
def canonicalModelPair (left right : Nat) : Except PairError (Nat × Nat) :=
  if left = right then .error (.value "model pair evidence cannot use the same model twice")
  else .ok (if left < right then (left, right) else (right, left))

section

variable (upper : String → String)

def normalizePrimitive (value : String) : String :=
  let primitive := upper (strip (if value = "" then "UNKNOWN" else value))
  if primitive = "" then "UNKNOWN" else primitive

def cleanOptionalText (value : Option String) : Option String :=
  (value.map strip).filter (· ≠ "")

def validatePairObservation (observation : PairEvidenceObservation) : Except PairError Unit := do
  let _ ← canonicalModelPair observation.leftModelId observation.rightModelId
  if signals.any fun signal => observation.delta signal < 0 then
    .error (.validation "pair evidence deltas must be non-negative")
  else if (signals.map observation.delta).sum ≤ 0 ∧ observation.edgeKindHint.getD "" = "" then
    .error (.validation "pair evidence observation has no signal")
  else if observation.directedSourceModelId.isNone ≠ observation.directedTargetModelId.isNone then
    .error (.validation "direction evidence requires both endpoints")
  else
    .ok ()

def directionVote (observation : PairEvidenceObservation) (modelAId modelBId : Nat) :
    Option String :=
  match observation.directedSourceModelId, observation.directedTargetModelId with
  | some src, some tgt =>
    if src = modelAId ∧ tgt = modelBId then some "a_to_b"
    else if src = modelBId ∧ tgt = modelAId then some "b_to_a"
    else some "unknown"
  | _, _ => none

abbrev Votes := Table String Int

def voteDict (value : Option String) : Votes :=
  match value with
  | some vote => if vote = "" then ∅ else Table.put ∅ vote 1
  | none => ∅

/-- `_merge_votes`; a jsonb object has no order, so the sorting is left out. -/
def mergeVotes (left right : Votes) : Votes :=
  Table.deleteWhere (right.rows.foldl (fun merged entry =>
      Table.put merged entry.1 ((merged.get entry.1).getD 0 + entry.2)) left)
    fun _ value => value ≤ 0

def clampScore (value : ℚ) : ℚ := max 0 (min 1 value)

def confidenceFromPairEvidence (counts : Counts) : ℚ :=
  let positive : ℚ := 24 / 10 * counts .explicitRelation + 17 / 10 * counts .coUsedValidDiff
    + 15 / 10 * counts .thinkEdgeOp + 22 / 10 * counts .t4Accept
    + 35 / 100 * counts .coRetrieved + counts .positiveOutcome
  let negative : ℚ := 22 / 10 * counts .t4Reject + 9 / 10 * counts .noEdge
    + 12 / 10 * counts .negativeOutcome
  if positive ≤ 0 then 0 else clampScore (positive / (positive + negative + 3))

structure PairKey where
  tenantId : Nat
  modelAId : Nat
  modelBId : Nat
  primitive : String
  deriving DecidableEq

structure PairRow where
  id : Nat
  counts : Counts
  directionVotes : Votes := ∅
  edgeKindVotes : Votes := ∅
  confidenceScore : ℚ := 0
  metadata : List (String × Json) := []

structure ModelPairEvidence extends PairRow where
  key : PairKey

abbrev PairTable := Table PairKey PairRow

inductive PairWrite where
  | insert (key : PairKey) (row : PairRow)
  /-- The update that adds an observation. -/
  | add (key : PairKey) (delta : Counts) (directionVotes edgeKindVotes : Votes)
      (metadata : List (String × Json))
  | setConfidence (key : PairKey) (confidence : ℚ)

def PairWrite.key : PairWrite → PairKey
  | .insert key _ => key
  | .add key _ _ _ _ => key
  | .setConfidence key _ => key

def PairWrite.onRow : PairWrite → Option PairRow → Option PairRow
  | .insert _ row, current => current.or (some row)
  | .add _ delta directionVotes edgeKindVotes metadata, current => current.map fun row =>
    { row with counts := row.counts + delta, directionVotes, edgeKindVotes, metadata }
  | .setConfidence _ confidence, current => current.map fun row =>
    { row with confidenceScore := confidence }

def applyWrite (db : PairTable) : PairWrite → PairTable
  | .insert key row => db.insertNew key row
  | .add key delta directionVotes edgeKindVotes metadata => db.update key fun row =>
    { row with counts := row.counts + delta, directionVotes, edgeKindVotes, metadata }
  | .setConfidence key confidence => db.update key fun row =>
    { row with confidenceScore := confidence }

abbrev PairTx := Tx PairTable PairWrite PairKey PairError

def fitsInteger (counts : Counts) : Bool :=
  signals.all fun signal => counts signal ≤ 2147483647

def rowLock (key : PairKey) (db : PairTable) : Option PairKey :=
  (db.get key).map fun _ => key

/-- `INSERT ... ON CONFLICT ON CONSTRAINT model_pair_evidence_unique DO NOTHING
RETURNING`. It waits for a session that has inserted the row and not ended. -/
def insertPairEvidence (key : PairKey) (row : PairRow) : PairTx (Option ModelPairEvidence) :=
  Tx.query (fun db => if (db.get key).isSome then none else some key) fun db =>
    if fitsInteger row.counts then
      if (db.get key).isSome then .ok ([], none)
      else .ok ([.insert key row], some { row with key })
    else .error .outOfRange

def addPairEvidence (key : PairKey) (delta : Counts) (directionVotes edgeKindVotes : Votes)
    (metadata : List (String × Json)) : PairTx ModelPairEvidence :=
  Tx.query (rowLock key) fun db =>
    match db.get key with
    | none => .error (.validation "model pair evidence update returned no row")
    | some row =>
      if fitsInteger delta ∧ fitsInteger (row.counts + delta) then
        .ok ([.add key delta directionVotes edgeKindVotes metadata],
          { row with counts := row.counts + delta, directionVotes, edgeKindVotes, metadata, key })
      else .error .outOfRange

def updatePairConfidence (aggregate : ModelPairEvidence) : PairTx ModelPairEvidence :=
  let confidence := confidenceFromPairEvidence aggregate.counts
  if |confidence - aggregate.confidenceScore| < 1 / 1000000 then .done aggregate
  else Tx.query (rowLock aggregate.key) fun db =>
    match db.get aggregate.key with
    | none => .error (.validation "model pair confidence update returned no row")
    | some row =>
      .ok ([.setConfidence aggregate.key confidence],
        { row with confidenceScore := confidence, key := aggregate.key })

def recordPairObservation (observation : PairEvidenceObservation) : PairTx ModelPairEvidence := do
  Tx.ofExcept (validatePairObservation observation)
  let (modelAId, modelBId) ←
    Tx.ofExcept (canonicalModelPair observation.leftModelId observation.rightModelId)
  let primitive := normalizePrimitive upper observation.primitive
  let vote := directionVote observation modelAId modelBId
  let edgeKindVote := cleanOptionalText observation.edgeKindHint
  let key : PairKey := { tenantId := observation.tenantId, modelAId, modelBId, primitive }
  let id ← Tx.newId
  let inserted ← insertPairEvidence key
    { id
      counts := observation.delta
      directionVotes := voteDict vote
      edgeKindVotes := voteDict edgeKindVote
      metadata := observation.metadata }
  match inserted with
  | some aggregate => updatePairConfidence aggregate
  | none =>
    let current ← Tx.readLocking (rowLock key) fun db => db.get key
    match current with
    | none => .raise (.validation "model pair evidence upsert lost conflict row")
    | some current =>
      let aggregate ← addPairEvidence key observation.delta
        (mergeVotes current.directionVotes (voteDict vote))
        (mergeVotes current.edgeKindVotes (voteDict edgeKindVote))
        (Dict.update current.metadata observation.metadata)
      updatePairConfidence aggregate

def recordAll (observations : List PairEvidenceObservation) : PairTx Unit :=
  Tx.forEach observations fun observation =>
    (recordPairObservation upper observation).bind fun _ => .done ()

def pairSchema : Schema PairTable PairWrite PairKey PairError (List PairEvidenceObservation) where
  apply := applyWrite
  program := recordAll upper

end

end FyralisCore.EdgeIntelligence
