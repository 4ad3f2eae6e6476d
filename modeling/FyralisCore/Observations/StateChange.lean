import FyralisCore.Acts.Goals

/-! The shared emitter of `state_change` observations
(`observations/state_change.py`). -/
namespace FyralisCore.Observations

open Relational Transaction Acts

def scalarText : Scalar → String
  | .null => "None"
  | .flag true => "True"
  | .flag false => "False"
  | .number value => toString value
  | .text value => value

def renderStateChangeText (kind : String) (entityId : Nat) (entityKind : Option String)
    (metadata : Option (List (String × Scalar))) : String :=
  let named := (entityKind.filter (· ≠ "")).getD "entity"
  let subject := named ++ " " ++ toString entityId
  let sorted := (metadata.getD []).mergeSort fun first second => first.1 ≤ second.1
  let extras := ", ".intercalate (sorted.map fun (key, value) => key ++ "=" ++ scalarText value)
  let text := "state change: " ++ kind ++ " on " ++ subject
  if extras = "" then text else text ++ " (" ++ extras ++ ")"

/-- What a call of `emit_state_change` passes; `actor_id` and `occurred_at` are
left to their defaults by every caller here. -/
structure StateChangeArgs where
  kind : String
  entityId : Nat
  tenantId : Nat
  causeEventId : Option Nat := none
  metadata : Option (List (String × Scalar)) := none
  entityKind : Option String := none

def StateChangeArgs.row (args : StateChangeArgs) (clock : Clock) : ObservationRow where
  tenantId := args.tenantId
  occurredAt := clock.processNow
  ingestedAt := clock.transactionNow
  content := .lifecycle args.entityId args.kind args.entityKind args.metadata
  contentText :=
    renderStateChangeText args.kind args.entityId args.entityKind args.metadata
  causeId := args.causeEventId
  entitiesMentioned := []

def emitStateChange (clock : Clock) (args : StateChangeArgs) : ActTx Nat := do
  let obsId ← Tx.newId
  insertObservation obsId (args.row clock)
  return obsId

end FyralisCore.Observations
