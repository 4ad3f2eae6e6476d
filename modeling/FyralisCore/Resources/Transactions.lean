import FyralisCore.Resources.Schema

/-! `record_transaction` (`resources/transactions.py`): the row lock, the new
value under it, the R1 check on that value, and the three writes. -/
namespace FyralisCore.Resources

open Relational Transaction Tx
open Acts (ResourceKind Clock)

structure RecordArgs where
  resourceId : Nat
  kind : String
  delta : Value
  occurredAt : Nat
  sourceEventId : Nat

def ResourceDb.lockResource (resourceId : Nat) (db : ResourceDb) : Option RowRef :=
  (db.resources.get resourceId).map fun _ => .resource resourceId

def checkR1 (resourceId : Nat) (row : ResourceRow) (delta newCv : Dict) :
    Except ResourceError Unit :=
  match row.kind with
  | .capacity => do
    let negative ← lifted (newCv.getD "available_units" (.int 0)).isNegative
    if negative then
      let requested ← lifted (requestedUnits delta)
      let available ← lifted (row.currentValue.units "available_units")
      throw (.invariantViolation .r1 "insufficient capacity: available_units would go negative"
        [("resource_id", idValue resourceId), ("requested", .int requested),
          ("available", .int available)])
  | _ => .ok ()

/-- The new value and utilization of a resource, or why they are refused. -/
def newValues (resourceId : Nat) (row : ResourceRow) (kind : TransactionType) (delta : Dict) :
    Except ResourceError (Dict × UtilizationState) := do
  let newCv ← lifted (applyDelta row.currentValue delta row.kind kind)
  checkR1 resourceId row delta newCv
  let newUtil ← lifted (computeUtilization newCv row.kind row.utilizationState)
  return (newCv, if kind = .expire then .expired else newUtil)

def transactionObservation (args : RecordArgs) (row : ResourceRow) (kind : TransactionType)
    (newUtil : UtilizationState) (txId : Nat) : Observations.StateChangeArgs where
  kind := "resource_" ++ kind.text
  entityId := args.resourceId
  tenantId := row.tenantId
  causeEventId := some args.sourceEventId
  entityKind := some "resource"
  metadata := some [("transaction_id", .text (toString txId)),
    ("transaction_type", .text kind.text), ("resource_kind", .text (kindText row.kind)),
    ("new_utilization_state", .text newUtil.text)]

section

variable (clock : Clock) (args : RecordArgs)

def transactionRow (row : ResourceRow) (kind : TransactionType) (delta : Dict) :
    TransactionRow where
  resourceId := args.resourceId
  tenantId := row.tenantId
  transactionType := kind
  delta := delta
  sourceEventId := args.sourceEventId
  createdAt := clock.transactionNow

def writeTransaction (row : ResourceRow) (kind : TransactionType) (delta newCv : Dict)
    (newUtil : UtilizationState) : ResourceTx TransactionRow := do
  let txId ← Tx.newId
  constrained none (fun db => [
      (!(db.transactions.get (txId, args.occurredAt)).isSome, .unique "resource_transactions"),
      ((db.resources.get args.resourceId).isSome,
        .foreignKey "resource_transactions" "resource_id"),
      (decide (row.tenantId ∈ db.tenants), .foreignKey "resource_transactions" "tenant_id")])
    (.insertTransaction txId args.occurredAt (transactionRow clock args row kind delta))
  constrained (some (.resource args.resourceId)) (fun _ => [])
    (.setValue args.resourceId newCv newUtil clock.transactionNow args.sourceEventId)
  let _ ← emitStateChange clock (transactionObservation args row kind newUtil txId)
  let written ← Tx.read fun db => db.transactions.get (txId, args.occurredAt)
  Tx.orRaise written (.python .typeError)

def recordLocked (kind : TransactionType) (delta : Dict) : ResourceTx TransactionRow := do
  let row? ← Tx.readLocking (ResourceDb.lockResource args.resourceId)
    fun db => db.resources.get args.resourceId
  let row ← Tx.orRaise row?
    (.validationError "resource not found" [("resource_id", idValue args.resourceId)])
  Tx.ensure row.archivedAt.isNone
    (.invariantViolation .r4 "cannot transact against archived resource"
      [("resource_id", idValue args.resourceId)])
  let values ← Tx.ofExcept (newValues args.resourceId row kind delta)
  writeTransaction clock args row kind delta values.1 values.2

def recordTransaction : ResourceTx TransactionRow :=
  match TransactionType.ofText args.kind with
  | none => .raise (.validationError
      ("invalid transaction_type '" ++ args.kind ++ "'")
      [("transaction_type", .text args.kind),
        ("valid", .array (TransactionType.all.map fun type => .text type.text))])
  | some kind =>
    match args.delta with
    | .object delta => recordLocked clock args kind delta
    | other => .raise (.validationError "delta must be a dict"
        [("field", .text "delta"), ("got", .text other.typeName)])

end

structure Recorded (clock : Clock) (args : RecordArgs) (db after : ResourceDb)
    (kind : TransactionType) (delta : Dict) (row : ResourceRow) (newCv : Dict) : Prop where
  kind_eq : TransactionType.ofText args.kind = some kind
  delta_eq : args.delta = .object delta
  found : db.resources.get args.resourceId = some row
  unarchived : row.archivedAt = none
  written : ∃ newUtil, newValues args.resourceId row kind delta = .ok (newCv, newUtil) ∧
    after.resources = db.resources.update args.resourceId
      fun row => row.withValue newCv newUtil clock.transactionNow args.sourceEventId
  inserted : ∃ txId, db.transactions.get (txId, args.occurredAt) = none ∧
    after.transactions = db.transactions.put (txId, args.occurredAt)
      (transactionRow clock args row kind delta)
  deployments : after.deployments = db.deployments

theorem returns_recordTransaction
        (hrt : Tx.Returns ResourceDb.apply (recordTransaction clock args) db n v after
      left) : ∃ kind delta row newCv, Recorded clock args db after kind delta row newCv := by
  unfold recordTransaction at hrt
  cases hk : TransactionType.ofText args.kind with
  | none => simp [hk] at hrt
  | some kind =>
    rw [hk] at hrt
    cases hd : args.delta with
    | object delta =>
      simp only [hd, recordLocked, bind_eq_bind] at hrt
      rw [returns_readLocking_bind, returns_bind] at hrt
      obtain ⟨row, _, _, hf, hrt⟩ := hrt
      obtain ⟨hr, rfl, rfl⟩ := returns_orRaise.mp hf
      obtain ⟨_, _, _, ha, hrt⟩ := hrt.parts
      obtain ⟨hn, rfl, rfl⟩ := returns_ensure.mp ha
      obtain ⟨⟨newCv, newUtil⟩, _, _, hv, hrt⟩ := hrt.parts
      obtain ⟨hnw, rfl, rfl⟩ := returns_ofExcept.mp hv
      simp only [writeTransaction, bind_eq_bind] at hrt
      rw [returns_newId_bind, returns_bind] at hrt
      obtain ⟨_, _, _, hi, hrt⟩ := hrt
      obtain ⟨hc, rfl, rfl⟩ := returns_constrained.mp hi
      obtain ⟨_, _, _, hs, hrt⟩ := hrt.parts
      obtain ⟨-, rfl, rfl⟩ := returns_constrained.mp hs
      obtain ⟨_, _, _, he, hrt⟩ := hrt.parts
      obtain rfl := returns_emitStateChange he
      obtain ⟨-, rfl, -⟩ := returns_orRaise.mp hrt
      have hfr : db.transactions.get (n, args.occurredAt) = none := by
        simpa using hc _ (.head _)
      refine ⟨kind, delta, row, newCv, hk, hd, hr, by simpa using hn,
        ⟨newUtil, hnw, rfl⟩, ⟨_, hfr, ?_⟩, rfl⟩
      simp [ResourceDb.apply, Table.insertNew, hfr]
    | _ => simp [hd] at hrt

namespace Recorded

variable {clock : Clock} {args : RecordArgs} {db after : ResourceDb} {kind : TransactionType}
  {delta newCv : Dict} {row : ResourceRow}

section

variable (hrc : Recorded clock args db after kind delta row newCv)

include hrc

theorem get_resource : ∃ newUtil, newValues args.resourceId row kind delta = .ok (newCv, newUtil) ∧
    after.resources.get args.resourceId = some
    (row.withValue newCv newUtil clock.transactionNow args.sourceEventId) := by
  obtain ⟨newUtil, hv, hr⟩ := hrc.written
  refine ⟨newUtil, hv, ?_⟩
  rw [hr, Table.get_update, if_pos rfl, hrc.found]
  rfl

theorem get_resource_ne {id : Nat} (ho : id ≠ args.resourceId) : after.resources.get id =
    db.resources.get id := by
  obtain ⟨_, -, hr⟩ := hrc.written
  rw [hr, Table.get_update, if_neg ho]

end

end Recorded

/-- What a new value that is accepted satisfies: it is the delta applied, and a
capacity has no negative availability. -/
theorem newValues_eq_ok (hv : newValues resourceId row kind delta = .ok (newCv, newUtil)) :
    applyDelta row.currentValue delta row.kind kind = .ok newCv ∧ (row.kind = .capacity →
        (newCv.getD "available_units" (.int 0)).isNegative = .ok false) := by
  obtain ⟨applied, ha, hv⟩ := bind_eq_ok_iff.mp hv
  obtain ⟨_, hc, hv⟩ := bind_eq_ok_iff.mp hv
  obtain ⟨_, -, hv⟩ := bind_eq_ok_iff.mp hv
  cases hv
  refine ⟨lifted_eq_ok_iff.mp ha, fun hcp => ?_⟩
  simp only [checkR1, hcp] at hc
  obtain ⟨negative, hn, hc⟩ := bind_eq_ok_iff.mp hc
  cases negative with
  | false => exact lifted_eq_ok_iff.mp hn
  | true =>
    obtain ⟨_, -, hc⟩ := bind_eq_ok_iff.mp hc
    obtain ⟨_, -, hc⟩ := bind_eq_ok_iff.mp hc
    cases hc

end FyralisCore.Resources
