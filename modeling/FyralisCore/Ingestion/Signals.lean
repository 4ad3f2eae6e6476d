import FyralisCore.Lib.ReadCommitted

/-! The workflow_signals table. An emit inserts under the UNIQUE constraint and
falls back to the row that is there; a claim stamps the unconsumed rows it could
lock. Both run in the transaction of their caller, whatever else that does. -/
namespace FyralisCore.Ingestion

open Relational Transaction

structure Inbox where
  workflowKind : String
  workflowId : String
deriving DecidableEq

/-- A row of workflow_signals; `consumed_at` and `consumed_by` are set together. -/
structure SignalRow (K D : Type) where
  key : K
  signalData : D
  consumedBy : Option String := none

structure EmitResult where
  signalId : Nat
  wasNew : Bool
deriving DecidableEq

inductive SignalError where
  | idempotencyKeyRequired
  /-- the insert collided but the existing row could not be located -/
  | existingRowMissing
deriving DecidableEq

/-- Where a database keeps its signals, and how its writes and locks are named. -/
structure SignalAccess (σ ω ρ ε K D : Type) where
  signals : σ → Table Nat (SignalRow K D)
  inboxOf : K → Inbox
  hasIdempotencyKey : K → Bool
  emptyData : D
  insert : Nat → K → D → ω
  consume : Nat → String → ω
  rowLock : Nat → ρ
  /-- the entry of the unique index -/
  keyLock : K → ρ
  error : SignalError → ε

variable {K D : Type}

def findSignal [DecidableEq K] (signals : Table Nat (SignalRow K D)) (key : K) : Option Nat :=
  (signals.rows.find? fun entry => entry.2.key = key).map Prod.fst

theorem findSignal_eq_some [DecidableEq K] {signals : Table Nat (SignalRow K D)}
    {id : Nat} (hf : findSignal signals key = some id) :
    ∃ row, signals.get id = some row ∧ row.key = key := by
  obtain ⟨⟨found, row⟩, he, rfl⟩ := Option.map_eq_some_iff.mp hf
  have hm := List.mem_of_find?_eq_some he
  have hk := List.find?_some he
  exact ⟨row, (Table.mem_rows_iff _ _ _).mp hm, of_decide_eq_true hk⟩

theorem isSome_findSignal [DecidableEq K] {signals : Table Nat (SignalRow K D)}
    {key : K} : (findSignal signals key).isSome ↔
      ∃ id row, signals.get id = some row ∧ row.key = key := by
  constructor
  · intro hs
    obtain ⟨id, hf⟩ := Option.isSome_iff_exists.mp hs
    exact ⟨id, findSignal_eq_some hf⟩
  · rintro ⟨id, row, hg, hk⟩
    rw [findSignal, Option.isSome_map, List.find?_isSome]
    exact ⟨(id, row), (Table.mem_rows_iff _ _ _).mpr hg, decide_eq_true hk⟩

section

variable {σ ω ρ ε K D : Type} [DecidableEq K] (access : SignalAccess σ ω ρ ε K D)

/-- INSERT ... ON CONFLICT DO NOTHING RETURNING id. An uncommitted row of another
transaction holds the entry of the index, and the insert waits for it. -/
def insertSignal (newId : Nat) (key : K) (data : D) : Tx σ ω ρ ε (Option Nat) :=
  Tx.query (fun seen => if (findSignal (access.signals seen) key).isSome then none
      else some (access.keyLock key))
    fun seen => .ok <|
      if (findSignal (access.signals seen) key).isSome then ([], none)
      else ([access.insert newId key data], some newId)

def fetchExistingId (key : K) : Tx σ ω ρ ε Nat :=
  Tx.query (fun _ => none) fun seen =>
    match findSignal (access.signals seen) key with
    | some id => .ok ([], id)
    | none => .error (access.error .existingRowMissing)

def emitSignal (key : K) (signalData : Option D) : Tx σ ω ρ ε EmitResult := do
  Tx.ensure (access.hasIdempotencyKey key) (access.error .idempotencyKeyRequired)
  let newId ← Tx.newId
  let inserted ← insertSignal access newId key (signalData.getD access.emptyData)
  match inserted with
  | some signalId => return ⟨signalId, true⟩
  | none => return ⟨← fetchExistingId access key, false⟩

def claimable (inbox : Inbox) (seen : σ) (id : Nat) : Option (SignalRow K D) :=
  ((access.signals seen).get id).filter fun row =>
    row.consumedBy.isNone && decide (access.inboxOf row.key = inbox)

def claimRow (inbox : Inbox) (consumedBy : String) (id : Nat) :
    Tx σ ω ρ ε (Option (Nat × SignalRow K D)) :=
  Tx.query (fun seen => (claimable access inbox seen id).map fun _ => access.rowLock id)
    fun seen => .ok <|
      match claimable access inbox seen id with
      | some row => ([access.consume id consumedBy], some (id, row))
      | none => ([], none)

/-- `scan` are the rows in the order of `created_at`, less those that SKIP LOCKED
passed over because another transaction held them. -/
def claimSignals (inbox : Inbox) (consumedBy : String) (batchSize : Nat) (scan : List Nat) :
    Tx σ ω ρ ε (List (Nat × SignalRow K D)) := do
  let rows ← Tx.mapEach (scan.take batchSize) (claimRow access inbox consumedBy)
  return rows.reduceOption

end

end FyralisCore.Ingestion
