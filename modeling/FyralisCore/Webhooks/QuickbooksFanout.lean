import FyralisCore.Models.Insert

/-! The fan-out of a QuickBooks delivery (`webhooks/router.py`): every changed entity of
every notification is a unit of its own, for the tenant of its own realm, and one HTTP
status answers for all of them. -/
namespace FyralisCore.Webhooks

open Relational
open Acts (Json)
open Models (field truthy)

/-- `(realm_id, flat_single_entity_payload)` -/
structure QboUnit where
  realmId : String
  name : Json
  id : Json
  operation : Json
  lastUpdated : Json

section

variable (str : Json → String)

/-- `str(notif.get("realmId") or "")`; `str` is that of the standard library. -/
def realmIdOf (notif : Json) : String :=
  match field "realmId" notif with
  | some v => if truthy v then str v else ""
  | none => ""

def entityUnit (realmId : String) : Json → Option QboUnit
  | .object ent => some
      { realmId
        name := (ent.lookup "name").getD .null
        id := (ent.lookup "id").getD .null
        operation := (ent.lookup "operation").getD .null
        lastUpdated := (ent.lookup "lastUpdated").getD .null }
  | _ => none

def notificationUnits (notif : Json) : List QboUnit :=
  let realmId := realmIdOf str notif
  if realmId = "" then []
  else
    match (field "dataChangeEvent" notif).bind (field "entities") with
    | some (.array ents) => ents.filterMap (entityUnit realmId)
    | _ => []

def qboFanoutUnits (payload : Json) : List QboUnit :=
  match field "eventNotifications" payload with
  | some (.array notifications) => notifications.flatMap (notificationUnits str)
  | _ => []

/-- A CompanyOSError: a ValidationError, or any other. -/
inductive IngestError where
  | validationError
  | companyOSError
  deriving DecidableEq

/-- What the unit meets: the flag of its tenant, whether Kafka takes it, and what the
inline ingest ends in. -/
structure Attempt where
  flagEnabled : Bool
  kafkaSucceeds : Bool
  ingest : Except IngestError Unit

def processQboUnit (attempt : Attempt) : Except IngestError Nat :=
  if attempt.flagEnabled && attempt.kafkaSucceeds then .ok 202
  else attempt.ingest.map fun _ => 200

/-- The locals of the loop, and the calls of `_process_qbo_unit` it has made. -/
structure Fanout where
  statuses : List Nat := []
  ingested : Nat := 0
  unknownRealms : Nat := 0
  realmTenant : Table String Nat := ∅
  calls : List (Nat × QboUnit × Nat) := []

def Fanout.process (attempt : Nat → Attempt) (state : Fanout) (tenantId : Nat)
    (unit : QboUnit × Nat) : Fanout :=
  let state := { state with calls := state.calls ++ [(tenantId, unit)] }
  match processQboUnit (attempt unit.2) with
  | .ok status =>
    { state with statuses := status :: state.statuses, ingested := state.ingested + 1 }
  | .error _ => state

/-- One round of the loop: `resolve` is the tenant resolver, and `attempt` what the unit at
an index meets. -/
def Fanout.step (resolve : String → Option Nat) (attempt : Nat → Attempt) (state : Fanout)
    (unit : QboUnit × Nat) : Fanout :=
  match state.realmTenant.get unit.1.realmId with
  | some tenantId => state.process attempt tenantId unit
  | none =>
    match resolve unit.1.realmId with
    | none => { state with unknownRealms := state.unknownRealms + 1 }
    | some tenantId =>
      { state with realmTenant := state.realmTenant.put unit.1.realmId tenantId }.process
        attempt tenantId unit

def fanout (resolve : String → Option Nat) (attempt : Nat → Attempt) (units : List QboUnit) :
    Fanout :=
  units.zipIdx.foldl (Fanout.step resolve attempt) {}

inductive Response where
  | failed (statusCode : Nat) (code message : String)
  | accepted (statusCode units unknownRealms : Nat) (secretLabel : Option String)

def Response.statusCode : Response → Nat
  | .failed statusCode .. | .accepted statusCode .. => statusCode

def fanoutResponse (units : List QboUnit) (state : Fanout) (secretLabel : Option String) :
    Response :=
  if units = [] then
    .failed 400 "validation_error" "quickbooks webhook carried no (realm, entity) units"
  else if state.ingested = 0 then
    .failed 401 "webhook_verification_failed"
      "no enabled installation matched any realm in the delivery"
  else
    .accepted (if 202 ∈ state.statuses then 202 else 200) state.ingested state.unknownRealms
      secretLabel

def ingestQuickbooksFanout (resolve : String → Option Nat) (attempt : Nat → Attempt)
    (payload : Json) (secretLabel : Option String) : Response × List (Nat × QboUnit × Nat) :=
  let units := qboFanoutUnits str payload
  let state := fanout resolve attempt units
  (fanoutResponse units state secretLabel, state.calls)

end

/-- The units of known realms, each with the tenant of its realm. -/
def knownUnits (resolve : String → Option Nat) (units : List (QboUnit × Nat)) :
    List (Nat × QboUnit × Nat) :=
  units.filterMap fun unit => (resolve unit.1.realmId).map (·, unit)

def Attempt.Accepted (attempt : Attempt) : Prop :=
  attempt.flagEnabled ∧ attempt.kafkaSucceeds ∨ attempt.ingest = .ok ()

/-- Neither accepted nor rejected with a ValidationError. -/
def Attempt.Lost (attempt : Attempt) : Prop :=
  ¬ (attempt.flagEnabled ∧ attempt.kafkaSucceeds) ∧ attempt.ingest = .error .companyOSError

variable {str : Json → String} {resolve : String → Option Nat} {attempt : Nat → Attempt}
  {units : List (QboUnit × Nat)} {unit : QboUnit × Nat} {state : Fanout} {tenantId : Nat}

theorem isOk_processQboUnit_iff (attempt : Attempt) :
    (processQboUnit attempt).isOk ↔ attempt.Accepted := by
  obtain ⟨flagEnabled, kafkaSucceeds, ingest⟩ := attempt
  unfold processQboUnit Attempt.Accepted
  cases flagEnabled <;> cases kafkaSucceeds <;> rcases ingest with error | ⟨⟩ <;>
    simp [Except.isOk, Except.toBool, Except.map]

/-- The memo holds what the resolver answers. -/
def MemoRight (resolve : String → Option Nat) (state : Fanout) : Prop :=
  ∀ realmId tenantId, state.realmTenant.get realmId = some tenantId →
    resolve realmId = some tenantId

theorem process_spec (attempt : Nat → Attempt) (state : Fanout) (tenantId : Nat)
    (unit : QboUnit × Nat) :
    (state.process attempt tenantId unit).realmTenant = state.realmTenant ∧
      (state.process attempt tenantId unit).calls = state.calls ++ [(tenantId, unit)] ∧
      ((state.process attempt tenantId unit).ingested = 0 ↔
        state.ingested = 0 ∧ ¬ (attempt unit.2).Accepted) := by
  rw [← isOk_processQboUnit_iff]
  unfold Fanout.process
  cases processQboUnit (attempt unit.2) with
  | ok status => simp [Except.isOk, Except.toBool]
  | error error => simp [Except.isOk, Except.toBool]

theorem step_spec (hm : MemoRight resolve state) (unit : QboUnit × Nat) :
    MemoRight resolve (state.step resolve attempt unit) ∧
      (state.step resolve attempt unit).calls = state.calls ++ knownUnits resolve [unit] ∧
      ((state.step resolve attempt unit).ingested = 0 ↔ state.ingested = 0 ∧
        ∀ call ∈ knownUnits resolve [unit], ¬ (attempt call.2.2).Accepted) := by
  unfold Fanout.step
  split
  · next tenantId hg =>
    obtain ⟨hr, hc, hi⟩ := process_spec attempt state tenantId unit
    have hk : knownUnits resolve [unit] = [(tenantId, unit)] := by
      simp [knownUnits, hm _ _ hg]
    rw [hk]
    exact ⟨fun realmId other ho => hm realmId other (hr ▸ ho), hc, by simpa using hi⟩
  · split
    · next hn =>
      have hk : knownUnits resolve [unit] = [] := by simp [knownUnits, hn]
      rw [hk]
      exact ⟨hm, (List.append_nil _).symm, by simp⟩
    · next tenantId hs =>
      obtain ⟨hr, hc, hi⟩ := process_spec attempt
        { state with realmTenant := state.realmTenant.put unit.1.realmId tenantId } tenantId unit
      have hk : knownUnits resolve [unit] = [(tenantId, unit)] := by simp [knownUnits, hs]
      rw [hk]
      refine ⟨fun realmId other ho => ?_, hc, by simpa using hi⟩
      rw [hr, Table.get_put] at ho
      split at ho
      · next he =>
        cases ho
        rw [he, hs]
      · exact hm realmId other ho

/-- Every unit of a known realm is processed once, for the tenant of its realm, and nothing
is ingested exactly when none is accepted. -/
theorem foldl_step (hm : MemoRight resolve state) (units : List (QboUnit × Nat)) :
    (units.foldl (Fanout.step resolve attempt) state).calls =
        state.calls ++ knownUnits resolve units ∧
      ((units.foldl (Fanout.step resolve attempt) state).ingested = 0 ↔ state.ingested = 0 ∧
        ∀ call ∈ knownUnits resolve units, ¬ (attempt call.2.2).Accepted) := by
  induction units generalizing state with
  | nil => simp [knownUnits]
  | cons unit rest ih =>
    obtain ⟨hm', hc, hi⟩ := @step_spec resolve attempt state hm unit
    obtain ⟨hcr, hir⟩ := ih hm'
    have hk : knownUnits resolve (unit :: rest) =
        knownUnits resolve [unit] ++ knownUnits resolve rest :=
      List.filterMap_append (l := [unit])
    rw [List.foldl_cons, hcr, hir, hc, hi, hk, List.append_assoc]
    simp only [List.mem_append, or_imp, forall_and, and_assoc, and_self]

theorem fanout_spec (units : List QboUnit) :
    (fanout resolve attempt units).calls = knownUnits resolve units.zipIdx ∧
      ((fanout resolve attempt units).ingested = 0 ↔
        ∀ call ∈ knownUnits resolve units.zipIdx, ¬ (attempt call.2.2).Accepted) := by
  have hf := @foldl_step resolve attempt {} (fun _ _ hg => by cases hg) units.zipIdx
  simpa [fanout] using hf

theorem ok_response_iff (units : List QboUnit) (secretLabel : Option String) :
    (fanoutResponse units (fanout resolve attempt units) secretLabel).statusCode / 100 = 2 ↔
      ∃ call ∈ knownUnits resolve units.zipIdx, (attempt call.2.2).Accepted := by
  have hi := (@fanout_spec resolve attempt units).2
  unfold fanoutResponse
  split
  · next hn => simp [hn, knownUnits, Response.statusCode]
  · split
    · next hz =>
      have hn := hi.mp hz
      simpa [Response.statusCode] using hn
    · next hz =>
      have hs : ∃ call ∈ knownUnits resolve units.zipIdx, (attempt call.2.2).Accepted := by
        by_contra hn
        exact hz (hi.mpr fun call hc ha => hn ⟨call, hc, ha⟩)
      refine iff_of_true ?_ hs
      simp only [Response.statusCode]
      split <;> rfl

/-- Each unit of a known realm is processed exactly once, for the tenant of its own realm,
and a 2xx answer says that all of them were accepted or rejected with a ValidationError. -/
def LosesNothing (str : Json → String) (resolve : String → Option Nat)
    (attempt : Nat → Attempt) (payload : Json) (secretLabel : Option String) : Prop :=
  let (response, calls) := ingestQuickbooksFanout str resolve attempt payload secretLabel
  let known := knownUnits resolve (qboFanoutUnits str payload).zipIdx
  calls = known ∧ (response.statusCode / 100 = 2 → ∀ call ∈ known, ¬ (attempt call.2.2).Lost)

/-- What is lost is silent exactly when another unit of the delivery is accepted. -/
theorem losesNothing_iff (str : Json → String) (resolve : String → Option Nat)
    (attempt : Nat → Attempt) (payload : Json) (secretLabel : Option String) :
    LosesNothing str resolve attempt payload secretLabel ↔
      ∀ call ∈ knownUnits resolve (qboFanoutUnits str payload).zipIdx,
        (attempt call.2.2).Lost → ∀ other ∈ knownUnits resolve (qboFanoutUnits str payload).zipIdx,
          ¬ (attempt other.2.2).Accepted := by
  unfold LosesNothing ingestQuickbooksFanout
  simp only [ok_response_iff, (fanout_spec _).1, true_and]
  constructor
  · intro ha call hc hl other ho hac
    exact ha ⟨other, ho, hac⟩ call hc hl
  · rintro hn ⟨other, ho, hac⟩ call hc hl
    exact hn call hc hl other ho hac

def twoEntities : Json :=
  .object [("eventNotifications", .array [.object [("realmId", .string "9130"),
    ("dataChangeEvent", .object [("entities", .array
      [.object [("name", .string "Invoice"), ("id", .string "146")],
        .object [("name", .string "Payment"), ("id", .string "207")]])])]])]

/-- The second entity is refused by the ingest for another reason than its shape. -/
theorem payment_lost_invoice_accepted : ¬ ∀ (str : Json → String) (resolve : String → Option Nat)
    (attempt : Nat → Attempt) (payload : Json) (secretLabel : Option String),
      LosesNothing str resolve attempt payload secretLabel := by
  intro hall
  let attempt : Nat → Attempt := fun index =>
    ⟨false, false, if index = 0 then .ok () else .error .companyOSError⟩
  have hs := (hall (fun _ => "9130") (fun _ => some 1) attempt twoEntities none).2 (by decide)
  exact hs (1, ⟨"9130", .string "Payment", .string "207", .null, .null⟩, 1)
    (List.mem_of_getElem? (i := 1) rfl) ⟨by simp [attempt], rfl⟩

end FyralisCore.Webhooks
