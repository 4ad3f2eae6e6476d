import FyralisCore.Observations.StateChange
import FyralisCore.Resources.Values

/-! The resource tables (`0001_foundation.sql`, `0037_tenant_fks.sql`), the
statements that write them and the errors of the resource store. Identifiers
and timestamps are natural numbers. -/
namespace FyralisCore.Resources

open Relational Transaction
open Acts (ResourceKind ObservationRow Clock)

structure ResourceRow where
  tenantId : Nat
  kind : ResourceKind
  currentValue : Dict
  utilizationState : UtilizationState := .available
  lastUpdatedAt : Nat
  lastUpdatedByEventId : Option Nat := none
  archivedAt : Option Nat := none

structure TransactionRow where
  resourceId : Nat
  tenantId : Nat
  transactionType : TransactionType
  delta : Dict
  sourceEventId : Nat
  createdAt : Nat

structure DeploymentRow where
  deployedQuantity : Option Dict
  deployedAt : Nat
  releasedAt : Option Nat := none

structure ResourceDb where
  tenants : List Nat := []
  commitments : List Nat := []
  resources : Table Nat ResourceRow := ∅
  /-- By id and `occurred_at`. -/
  transactions : Table (Nat × Nat) TransactionRow := ∅
  /-- By resource and commitment. -/
  deployments : Table (Nat × Nat) DeploymentRow := ∅
  observations : Table Nat ObservationRow := ∅

/-- The invariants that the resource store names in its errors. -/
inductive ResourceInvariant where
  | r1 | r2 | r3 | r4 | r5
  deriving DecidableEq, Repr

def ResourceInvariant.text : ResourceInvariant → String
  | .r1 => "R1"
  | .r2 => "R2"
  | .r3 => "R3"
  | .r4 => "R4"
  | .r5 => "R5"

/-- What a call of the resource store raises. The context keeps the keyword
arguments of the error. -/
inductive ResourceError where
  | validationError (message : String) (context : Dict)
  | invariantViolation (invariant : ResourceInvariant) (message : String) (context : Dict)
  | python (error : PyError)
  | database (violation : Acts.ConstraintViolation)

def ResourceError.Violates (invariant : ResourceInvariant) : ResourceError → Prop
  | .invariantViolation reported _ _ => reported = invariant
  | _ => False

def idValue (id : Nat) : Value := .text (toString id)

/-- The rows that statements lock; an INSERT holds the key it adds. -/
inductive RowRef where
  | resource (id : Nat)
  | deployment (resourceId commitmentId : Nat)
  deriving DecidableEq, Repr

inductive Write where
  | insertTransaction (id occurredAt : Nat) (row : TransactionRow)
  | setValue (id : Nat) (value : Dict) (utilization : UtilizationState) (now eventId : Nat)
  | insertDeployment (resourceId commitmentId : Nat) (row : DeploymentRow)
  | setReleased (resourceId commitmentId releasedAt : Nat)
  | insertObservation (id : Nat) (row : ObservationRow)

def ResourceRow.withValue (row : ResourceRow) (value : Dict) (utilization : UtilizationState)
    (now eventId : Nat) : ResourceRow :=
  { row with
    currentValue := value
    utilizationState := utilization
    lastUpdatedAt := now
    lastUpdatedByEventId := some eventId }

def DeploymentRow.released (row : DeploymentRow) (releasedAt : Nat) : DeploymentRow :=
  { row with releasedAt := some releasedAt }

def ResourceDb.apply (db : ResourceDb) : Write → ResourceDb
  | .insertTransaction id occurredAt row =>
    { db with transactions := db.transactions.insertNew (id, occurredAt) row }
  | .setValue id value utilization now eventId =>
    { db with
      resources := db.resources.update id fun row => row.withValue value utilization now eventId }
  | .insertDeployment resourceId commitmentId row =>
    { db with deployments := db.deployments.insertNew (resourceId, commitmentId) row }
  | .setReleased resourceId commitmentId releasedAt =>
    { db with
      deployments := db.deployments.update (resourceId, commitmentId) (·.released releasedAt) }
  | .insertObservation id row => { db with observations := db.observations.insertNew id row }

abbrev ResourceTx (α : Type) : Type := Tx ResourceDb Write RowRef ResourceError α

def constrained (lock : Option RowRef)
    (constraints : ResourceDb → List (Bool × Acts.ConstraintViolation)) (write : Write) :
    ResourceTx Unit :=
  .query (fun _ => lock) fun db =>
    match (constraints db).find? fun constraint => !constraint.1 with
    | some constraint => .error (.database constraint.2)
    | none => .ok ([write], ())

def lifted {α : Type} : Except PyError α → Except ResourceError α
  | .ok value => .ok value
  | .error error => .error (.python error)

def emitStateChange (clock : Clock) (args : Observations.StateChangeArgs) : ResourceTx Nat := do
  let obsId ← Tx.newId
  constrained none
    (fun db => [(decide (args.tenantId ∈ db.tenants), .foreignKey "observations" "tenant_id")])
    (.insertObservation obsId (args.row clock))
  return obsId

@[simp] theorem lifted_eq_ok_iff : lifted computed = .ok value ↔ computed = .ok value := by
  cases computed <;> simp [lifted]

theorem returns_constrained :
    Tx.Returns ResourceDb.apply (constrained lock constraints w) db n () t left ↔
      (∀ constraint ∈ constraints db, constraint.1) ∧ t = db.apply w ∧ n = left := by
  unfold constrained
  rw [Tx.returns_query, ← Tx.find?_fails_eq_none]
  cases (constraints db).find? fun constraint => !constraint.1 <;> simp

theorem returns_emitStateChange {db : ResourceDb} {n id : Nat}
    (hr : Tx.Returns ResourceDb.apply (emitStateChange clock a) db n id t left) :
    t = db.apply (.insertObservation n (a.row clock)) := by
  unfold emitStateChange at hr
  simp only [Tx.bind_eq_bind] at hr
  rw [Tx.returns_newId_bind, Tx.returns_bind] at hr
  obtain ⟨_, m, _, hi, hd⟩ := hr
  obtain ⟨-, rfl, -⟩ := hd.ended
  exact (returns_constrained.mp hi).2.1

end FyralisCore.Resources
