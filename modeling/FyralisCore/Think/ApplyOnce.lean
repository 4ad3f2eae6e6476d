import FyralisCore.Lib.ReadCommitted

/-! The transaction of one application of a diff (`apply_diff` of `applier.py`,
with its caller in `reason.py`) as far as the ledger applied_triggers goes. The
operations of the diff are arbitrary statements; the other tables are given by
the writes that were made to them, each with the Think run that made it. -/
namespace FyralisCore.Think.ApplyOnce

open Relational Transaction

inductive ApplyOutcome where
  | pending
  | success
  | validationFailure
  | reasoningFailure
  | databaseError
  deriving DecidableEq, Repr

def ApplyOutcome.text : ApplyOutcome → String
  | .pending => "pending"
  | .success => "success"
  | .validationFailure => "validation_failure"
  | .reasoningFailure => "reasoning_failure"
  | .databaseError => "database_error"

structure AppliedRow where
  tenantId : Nat
  appliedAt : Nat
  diffHash : String
  triggerKind : String
  outcome : ApplyOutcome

/-- A write to the other tables: by the `apply_diff` of a trigger and a Think run,
or by a caller around it. -/
structure Effect (E : Type) where
  attempt : Option (Nat × Nat)
  write : E

structure LedgerDb (E : Type) where
  /-- applied_triggers by `trigger_id`. -/
  applied : Table Nat AppliedRow := ∅
  effects : List (Effect E) := []

inductive Write (E : Type) where
  | claim (triggerId : Nat) (row : AppliedRow)
  | outcome (triggerId : Nat) (outcome : ApplyOutcome)
  | effect (effect : Effect E)

/-- What a transaction holds to its end: a key of applied_triggers, an advisory
lock or a row of another table. -/
inductive Lock (R : Type) where
  | applied (triggerId : Nat)
  | advisory (key : Int × Int)
  | row (row : R)
  deriving DecidableEq

variable {E R ε : Type}

def LedgerDb.apply (db : LedgerDb E) : Write E → LedgerDb E
  | .claim triggerId row => { db with applied := db.applied.put triggerId row }
  | .outcome triggerId outcome =>
    { db with applied := db.applied.update triggerId fun row => { row with outcome } }
  | .effect effect => { db with effects := db.effects ++ [effect] }

abbrev ApplyTx (E R ε α : Type) : Type := Tx (LedgerDb E) (Write E) (Lock R) ε α

abbrev OtherTx (E R ε : Type) : Type := Tx (LedgerDb E) E R ε Unit

/-- What `apply_diff` reads of a diff before its operations. -/
structure DiffHeader where
  triggerRef : Nat
  tenantId : Nat
  diffHash : String
  /-- `touched_entity_ids_from_diff` -/
  entities : List (String × Nat)

/-- One Think run up to its commit: what the caller does before `apply_diff`, the
operations and the outcome events of the diff, and what the caller does after it
or when it was already applied. Each is told the id of the run. -/
structure Attempt (E R ε : Type) where
  now : Nat
  header : DiffHeader
  triggerKind : String
  prologue : Nat → OtherTx E R ε
  ops : Nat → OtherTx E R ε
  outcomeEvents : Nat → OtherTx E R ε
  epilogue : Nat → OtherTx E R ε
  skipped : Nat → OtherTx E R ε

/-- `AlreadyAppliedError`, which the caller catches; every other error ends the
transaction. -/
structure AlreadyAppliedError where
  triggerId : Nat
  priorOutcome : String

section

variable (regionLockKey : Nat → List (String × Nat) → Int × Int)

def acquireRegionLock (tenantId : Nat) (entities : List (String × Nat)) : ApplyTx E R ε Unit :=
  .readLocking (fun _ => some (.advisory (regionLockKey tenantId entities))) fun _ => ()

def checkAlreadyApplied (triggerRef : Nat) : ApplyTx E R ε (Option ApplyOutcome) :=
  .read fun db => (db.applied.get triggerRef).map AppliedRow.outcome

def Attempt.pendingRow (attempt : Attempt E R ε) : AppliedRow where
  tenantId := attempt.header.tenantId
  appliedAt := attempt.now
  diffHash := attempt.header.diffHash
  triggerKind := attempt.triggerKind
  outcome := .pending

/-- INSERT INTO applied_triggers ... ON CONFLICT DO NOTHING. A row that another
transaction has inserted and not committed makes it wait; one that it sees makes
it insert nothing. -/
def insertApplied (attempt : Attempt E R ε) : ApplyTx E R ε Bool :=
  .query (fun db =>
      if (db.applied.get attempt.header.triggerRef).isSome then none
      else some (.applied attempt.header.triggerRef))
    fun db =>
      if (db.applied.get attempt.header.triggerRef).isSome then .ok ([], false)
      else .ok ([.claim attempt.header.triggerRef attempt.pendingRow], true)

def prepareApplyTransaction (attempt : Attempt E R ε) : ApplyTx E R ε
    (Except AlreadyAppliedError Unit) := do
  let header := attempt.header
  acquireRegionLock regionLockKey header.tenantId [("tenant_model_write", header.tenantId)]
  Tx.when (!header.entities.isEmpty)
    (acquireRegionLock regionLockKey header.tenantId header.entities)
  let inserted ← insertApplied attempt
  if inserted then return .ok ()
  else
    let prior ← checkAlreadyApplied header.triggerRef
    return .error
      { triggerId := header.triggerRef
        priorOutcome := prior.elim "unknown" ApplyOutcome.text }

def markSuccess (triggerRef : Nat) : ApplyTx E R ε Unit :=
  .query (fun _ => some (.applied triggerRef)) fun _ => .ok ([.outcome triggerRef .success], ())

def ofAttempt (triggerRef thinkRunId : Nat) (body : OtherTx E R ε) : ApplyTx E R ε Unit :=
  body.embed (fun write => .effect { attempt := some (triggerRef, thinkRunId), write }) .row

def ofCaller (body : OtherTx E R ε) : ApplyTx E R ε Unit :=
  body.embed (fun write => .effect { attempt := none, write }) .row

def applyDiff (attempt : Attempt E R ε) (thinkRunId : Nat) : ApplyTx E R ε
    (Except AlreadyAppliedError Unit) := do
  match ← prepareApplyTransaction regionLockKey attempt with
  | .error error => return .error error
  | .ok () =>
    ofAttempt attempt.header.triggerRef thinkRunId (attempt.ops thinkRunId)
    markSuccess attempt.header.triggerRef
    ofAttempt attempt.header.triggerRef thinkRunId (attempt.outcomeEvents thinkRunId)
    return .ok ()

def thinkRun (attempt : Attempt E R ε) : ApplyTx E R ε Unit := do
  let thinkRunId ← Tx.newId
  ofCaller (attempt.prologue thinkRunId)
  match ← applyDiff regionLockKey attempt thinkRunId with
  | .error _ => ofCaller (attempt.skipped thinkRunId)
  | .ok () => ofCaller (attempt.epilogue thinkRunId)

def applySchema (E R ε : Type) : ReadCommitted.Schema (LedgerDb E) (Write E) (Lock R) ε
    (List (Attempt E R ε)) where
  apply := LedgerDb.apply
  program attempts := Tx.forEach attempts (thinkRun regionLockKey)

end

end FyralisCore.Think.ApplyOnce
