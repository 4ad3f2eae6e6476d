import Mathlib.Data.Prod.Lex
import FyralisCore.Models.Schema

/-! The audit trail of a claim, and the earlier event that a new one re-asserts. -/
namespace FyralisCore.Think.Audit

/-- A value as `jsonb` keeps it: no key of an object is there twice. -/
inductive Jsonb where
  | null
  | bool (value : Bool)
  | number (value : Rat)
  | text (value : String)
  | array (items : List Jsonb)
  | object (fields : List (String × Jsonb))

def Jsonb.isScalar : Jsonb → Bool
  | .array _ | .object _ => false
  | _ => true

mutual

/-- `found @> asserted` of two values at the same place. -/
def contained : Jsonb → Jsonb → Bool
  | .null, .null => true
  | .bool asserted, .bool found => asserted == found
  | .number asserted, .number found => asserted == found
  | .text asserted, .text found => asserted == found
  | .array asserted, .array found => containedItems asserted found
  | .object asserted, .object found => containedFields asserted found
  | _, _ => false

def containedItems : List Jsonb → List Jsonb → Bool
  | [], _ => true
  | item :: rest, found => found.any (contained item) && containedItems rest found

def containedFields : List (String × Jsonb) → List (String × Jsonb) → Bool
  | [], _ => true
  | (key, value) :: rest, found =>
    found.any (fun field => field.1 == key && contained value field.2) && containedFields rest found

end

def causeTypes : List String :=
  ["create", "archive", "field_update", "confidence_update", "reconciliation_merge"]

structure AuditEvent where
  eventId : Nat
  modelId : Nat
  tenantId : Nat
  occurredAt : Int
  causeId : Option Nat
  causeType : String
  previousState : Option (List (String × Jsonb))
  newState : List (String × Jsonb)
  changedFields : List String
  reAssertsEventId : Option Nat
  sourceModelIds : List Nat

structure Assertion where
  modelId : Nat
  tenantId : Nat
  causeType : String
  newState : List (String × Jsonb)
  previousState : Option (List (String × Jsonb)) := none
  causeId : Option Nat := none
  changedFields : Option (List String) := none
  reAssertsEventId : Option Nat := none
  sourceModelIds : Option (List Nat) := none
  detectReAssert : Bool := true

/-- `WHERE model_id = $1 AND new_state @> $2 ORDER BY occurred_at, event_id LIMIT 1` -/
def findReAssertableEvent (events : List AuditEvent) (modelId : Nat)
    (newState : List (String × Jsonb)) : Option Nat :=
  ((events.filter fun event =>
      event.modelId == modelId && containedFields newState event.newState).map fun event =>
    toLex (event.occurredAt, event.eventId)).min?.map fun first => (ofLex first).2

def emitAuditEvent (events : List AuditEvent) (eventId : Nat) (occurredAt : Int)
    (args : Assertion) : Except String AuditEvent :=
  if args.causeType ∉ causeTypes then
    .error s!"unknown cause_type {Models.pyRepr args.causeType}; must be one of {
      Models.pyReprList (causeTypes.mergeSort (· ≤ ·))}"
  else
    .ok {
      eventId, occurredAt
      modelId := args.modelId
      tenantId := args.tenantId
      causeId := args.causeId
      causeType := args.causeType
      previousState := args.previousState
      newState := args.newState
      changedFields := args.changedFields.getD []
      reAssertsEventId :=
        if args.reAssertsEventId.isNone && args.detectReAssert && args.causeType != "create" then
          findReAssertableEvent events args.modelId args.newState
        else args.reAssertsEventId
      sourceModelIds := args.sourceModelIds.getD [] }

mutual

theorem contained_self : ∀ v : Jsonb, contained v v
  | .null => rfl
  | .bool _ | .number _ | .text _ => by simp [contained]
  | .array items => by
    exact containedItems_of_subset items items fun _ h => h
  | .object fields => by
    exact containedFields_of_subset fields fields fun _ h => h

theorem containedItems_of_subset : ∀ asserted found : List Jsonb, asserted ⊆ found →
    containedItems asserted found
  | [], _, _ => rfl
  | item :: rest, found, hs => by
    rw [containedItems, Bool.and_eq_true, List.any_eq_true]
    exact ⟨⟨item, hs (.head _), contained_self item⟩,
      containedItems_of_subset rest found fun _ h => hs (.tail _ h)⟩

theorem containedFields_of_subset : ∀ asserted found : List (String × Jsonb),
    asserted ⊆ found → containedFields asserted found
  | [], _, _ => rfl
  | (key, v) :: rest, found, hs => by
    rw [containedFields, Bool.and_eq_true, List.any_eq_true]
    exact ⟨⟨(key, v), hs (.head _), by simp [contained_self v]⟩,
      containedFields_of_subset rest found fun _ h => hs (.tail _ h)⟩

end

theorem contained_scalar_iff {v found : Jsonb} (hs : v.isScalar) :
    contained v found ↔ v = found := by
  cases v <;> cases found <;> simp_all [contained, Jsonb.isScalar]

theorem containedFields_scalars_iff {found : List (String × Jsonb)} :
    ∀ {asserted : List (String × Jsonb)}, (∀ field ∈ asserted, field.2.isScalar) →
      (containedFields asserted found ↔ asserted ⊆ found)
  | [], _ => by simp [containedFields]
  | (key, v) :: rest, hs => by
    rw [containedFields, Bool.and_eq_true, List.any_eq_true, List.cons_subset,
      containedFields_scalars_iff fun field h => hs field (.tail _ h)]
    simp [contained_scalar_iff (hs (key, v) (.head _))]

/-- The id is that of the first event of the model, by time and id, with the property. -/
structure Earliest (events : List AuditEvent) (modelId : Nat) (p : AuditEvent → Prop)
    (found : Option Nat) : Prop where
  missing : found = none → ∀ event ∈ events, event.modelId = modelId → ¬ p event
  first : ∀ id, found = some id → ∃ event ∈ events, event.modelId = modelId ∧ p event ∧
    event.eventId = id ∧ ∀ other ∈ events, other.modelId = modelId → p other →
      toLex (event.occurredAt, event.eventId) ≤ toLex (other.occurredAt, other.eventId)

theorem Earliest.congr {events : List AuditEvent} {modelId : Nat} {p q : AuditEvent → Prop}
    {found : Option Nat} (he : Earliest events modelId p found) (hi : ∀ event, p event ↔ q event) :
    Earliest events modelId q found := by
  rwa [← funext fun event => propext (hi event)]

theorem earliest_findReAssertableEvent (events : List AuditEvent) (modelId : Nat)
    (newState : List (String × Jsonb)) :
    Earliest events modelId (fun event => containedFields newState event.newState)
      (findReAssertableEvent events modelId newState) where
  missing := by
    intro hn event hm he hc
    simp only [findReAssertableEvent, Option.map_eq_none_iff, List.min?_eq_none_iff,
      List.map_eq_nil_iff, List.filter_eq_nil_iff] at hn
    exact hn event hm (by simp [he, hc])
  first := by
    intro id hs
    simp only [findReAssertableEvent, Option.map_eq_some_iff] at hs
    obtain ⟨first, hmn, rfl⟩ := hs
    obtain ⟨hm, hl⟩ := List.min?_eq_some_iff.mp hmn
    simp only [List.mem_map, List.mem_filter, Bool.and_eq_true, beq_iff_eq] at hm
    obtain ⟨event, ⟨hm, he, hc⟩, rfl⟩ := hm
    refine ⟨event, hm, he, hc, rfl, fun other ho hother hco => hl _ ?_⟩
    simp only [List.mem_map, List.mem_filter, Bool.and_eq_true, beq_iff_eq]
    exact ⟨other, ⟨ho, hother, hco⟩, rfl⟩

/-- A lookup records the first event that contains what is asserted. Where that is scalars only,
this is the first event that gives just these values; none that gives them is ever missed. -/
theorem re_asserts_first_containing {events : List AuditEvent} {eventId : Nat} {occurredAt : Int}
    {args : Assertion} {row : AuditEvent}
    (hrow : emitAuditEvent events eventId occurredAt args = .ok row) :
    (args.reAssertsEventId ≠ none ∨ args.detectReAssert = false ∨ args.causeType = "create" →
      row.reAssertsEventId = args.reAssertsEventId) ∧
    (args.reAssertsEventId = none → args.detectReAssert → args.causeType ≠ "create" →
      Earliest events args.modelId
        (fun event => containedFields args.newState event.newState) row.reAssertsEventId ∧
      ((∀ field ∈ args.newState, field.2.isScalar) → Earliest events args.modelId
        (fun event => args.newState ⊆ event.newState) row.reAssertsEventId)) ∧
    ∀ event : AuditEvent, args.newState ⊆ event.newState →
      containedFields args.newState event.newState := by
  unfold emitAuditEvent at hrow
  split at hrow
  · cases hrow
  cases hrow
  refine ⟨fun hskip => if_neg ?_, fun hnone hdetect hcause => ?_,
    fun event => containedFields_of_subset _ _⟩
  · rcases hskip with hskip | hskip | hskip <;> simp [hskip]
  · have hfirst := earliest_findReAssertableEvent events args.modelId args.newState
    simp only [hnone, hdetect, Option.isNone_none, Bool.true_and, bne_iff_ne, ne_eq, hcause,
      not_false_eq_true, if_true]
    exact ⟨hfirst, fun hs => hfirst.congr fun event => containedFields_scalars_iff hs⟩

def taggedTwice : AuditEvent :=
  { eventId := 1, modelId := 7, tenantId := 0, occurredAt := 0, causeId := none
    causeType := "create", previousState := none
    newState := [("tags", .array [.text "a", .text "b"])]
    changedFields := [], reAssertsEventId := none, sourceModelIds := [] }

def taggedOnce : Assertion :=
  { modelId := 7, tenantId := 0, causeType := "field_update"
    newState := [("tags", .array [.text "a"])] }

theorem re_asserts_first_containing_tagged :
    ∃ row, emitAuditEvent [taggedTwice] 2 1 taggedOnce = .ok row ∧ Earliest [taggedTwice] 7
      (fun event => containedFields taggedOnce.newState event.newState)
      row.reAssertsEventId :=
  ⟨_, rfl, ((re_asserts_first_containing rfl).2.1 rfl rfl
    (show taggedOnce.causeType ≠ "create" by decide)).1⟩

/-- The claim had two tags before, and never the one it is left with alone. -/
theorem tag_subset_re_asserted : ¬ ∀ events eventId occurredAt args row,
      emitAuditEvent events eventId occurredAt args = .ok row →
      Earliest events args.modelId (fun event => args.newState ⊆ event.newState)
        row.reAssertsEventId := by
  intro hclaim
  obtain ⟨event, hm, -, hsub, -⟩ := (hclaim [taggedTwice] 2 1 taggedOnce _ rfl).first 1 rfl
  cases List.mem_singleton.mp hm
  simp [taggedOnce, taggedTwice] at hsub

end FyralisCore.Think.Audit
